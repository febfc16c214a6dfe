import LogicLess.Proofs.Tag.InForce
import LogicLess.Proofs.Token.LiteralText
import LogicLess.Proofs.Token.SectionParts
import LogicLess.Proofs.Token.Structure
import LogicLess.Text.IdentifierTable

/-!
# Where sections stand

A section takes up its source from the beginning of its open tag to the end of its close tag, and its raw
text is what lies between them. Sections that are not inside one another follow each other, and those in a
body lie in the raw text around them.
-/

namespace LogicLess

namespace Lexeme

variable [Alphabet] {source : List Char}

theorem resume_of_mem_readAll (c : Cursor) (hc : c.Settled) (hsource : c.source = source) :
    ∀ l ∈ (readAll c).1, l.resume = (l.tag.removed source).stop ∧ Text.IsBoundary source l.resume := by
  induction c using readAll.induct with
  | case1 c fault h => simp [readAll_of_error h]
  | case2 c h => simp [readAll_of_none h]
  | case3 c l next h _ _ _ ih =>
    obtain ⟨_, _, _, _, hspans⟩ := exists_spans_of_read? hc h
    have hnext : next.source = source := hspans.passes.source_eq.trans hsource
    rw [readAll_of_some h]
    intro l' hl'
    rcases List.mem_cons.1 hl' with rfl | hl'
    · rw [resume_of_read? h, hspans.removed_eq hsource]
      refine ⟨rfl, next.seen.reverse, next.rest, hnext.symm, ?_⟩
      rw [Text.byteSize_reverse, next.offset_eq]
    · exact ih hspans.settled hnext l' hl'

theorem pairwise_resume (c : Cursor) (hc : c.Settled) :
    (∀ l ∈ (readAll c).1, c.offset ≤ l.tag.region.start) ∧
      (readAll c).1.Pairwise fun l l' => l.resume ≤ l'.tag.region.start := by
  induction c using readAll.induct with
  | case1 c fault h => simp [readAll_of_error h]
  | case2 c h => simp [readAll_of_none h]
  | case3 c l next h _ _ _ ih =>
    obtain ⟨before, _, _, _, hspans⟩ := exists_spans_of_read? hc h
    obtain ⟨hstart, hpairwise⟩ := ih hspans.settled
    have hoffset : c.offset ≤ next.offset := hspans.passes.offset_eq ▸ Nat.le_add_right _ _
    rw [readAll_of_some h]
    refine ⟨fun l' hl' => ?_, List.pairwise_cons.2 ⟨fun l' hl' => ?_, hpairwise⟩⟩
    · rcases List.mem_cons.1 hl' with rfl | hl'
      · rw [hspans.region_eq]
        exact Nat.le_add_right _ _
      · exact Nat.le_trans hoffset (hstart l' hl')
    · rw [resume_of_read? h]
      exact hstart l' hl'

/-- What the places of lexemes have to do with the source that they are read from. -/
structure Standing (d : Delimiters) (source : List Char) (ls : List Lexeme) : Prop where
  ordered : Tag.Ordered (ls.map Lexeme.tag)
  resume_eq : ∀ l ∈ ls, l.resume = (l.tag.removed source).stop
  boundary : ∀ l ∈ ls, Text.IsBoundary source l.resume
  resume_le : ls.Pairwise fun l l' => l.resume ≤ l'.tag.region.start
  in_force : ∀ l ∈ ls, l.tag.delimiters = Tag.delimitersAt d source l.tag.region.start
  slice_eq : ∀ l ∈ ls, ∃ inner, l.tag.region.slice? source =
    some (l.tag.delimiters.opening ++ inner ++ l.tag.delimiters.closing)

theorem standing_readAll (d : Delimiters) (source : List Char) :
    Standing d source (readAll (.start d source)).1 := by
  have hsettled := Cursor.settled_start d source
  have htags := (Token.map_tag_readAll d source).1
  have hresume := resume_of_mem_readAll _ hsettled (Cursor.source_start d source)
  have hstands : ∀ l ∈ (readAll (.start d source)).1,
      l.tag ∈ (Tag.scan (.start d source)).1.map Prod.snd :=
    fun l hl => htags ▸ List.mem_map_of_mem hl
  exact {
    ordered := htags ▸ Token.ordered_tags d source
    resume_eq := fun l hl => (hresume l hl).1
    boundary := fun l hl => (hresume l hl).2
    resume_le := (pairwise_resume _ hsettled).2
    in_force := fun l hl => (Tag.exists_slice?_of_mem_scan (hstands l hl)).1
    slice_eq := fun l hl => (Tag.exists_slice?_of_mem_scan (hstands l hl)).2 }

theorem Standing.sublist {d : Delimiters} {ls ls' : List Lexeme} (h : Standing d source ls)
    (hs : ls'.Sublist ls) : Standing d source ls' where
  ordered := h.ordered.sublist (hs.map _)
  resume_eq l hl := h.resume_eq l (hs.subset hl)
  boundary l hl := h.boundary l (hs.subset hl)
  resume_le := h.resume_le.sublist hs
  in_force l hl := h.in_force l (hs.subset hl)
  slice_eq l hl := h.slice_eq l (hs.subset hl)

variable {d : Delimiters} {ls before more inside : List Lexeme} {l first last : Lexeme} {place : Nat}

theorem Standing.stop_le_resume (h : Standing d source ls) (hl : l ∈ ls) :
    l.tag.region.stop ≤ l.resume := by
  rw [h.resume_eq l hl, Tag.removed]
  split
  · split
    · exact Nat.le_add_right _ _
    · exact Nat.le_refl _
  · exact Nat.le_refl _

theorem Standing.opening_lt (h : Standing d source ls) (hl : l ∈ ls) :
    l.tag.region.start + Text.byteSize l.tag.delimiters.opening < l.tag.region.stop := by
  have hclosing := Text.byteSize_pos l.tag.delimiters.closing_ne_nil
  obtain ⟨inner, hslice⟩ := h.slice_eq l hl
  obtain ⟨before, after, -, hregion⟩ := Region.slice?_eq_some_iff.1 hslice
  simp only [hregion, Text.byteSize_append]
  omega

theorem Standing.apart (h : Standing d source (before ++ l :: more)) (hstart : l.tag.region.start < place)
    (hstop : place < l.tag.region.stop) :
    ∀ l' ∈ before ++ l :: more, l'.tag.region.start ≠ place ∧ l'.tag.region.stop ≠ place := by
  intro l' hl'
  have hself := h.ordered.start_le l'.tag (List.mem_map_of_mem hl')
  have hordered := h.ordered.pairwise
  rw [List.map_append, List.map_cons, List.pairwise_append, List.pairwise_cons] at hordered
  rcases List.mem_append.1 hl' with hl' | hl'
  · have hle := hordered.2.2 l'.tag (List.mem_map_of_mem hl') l.tag List.mem_cons_self
    omega
  · rcases List.mem_cons.1 hl' with rfl | hl'
    · omega
    · have hle := hordered.2.1.1 l'.tag (List.mem_map_of_mem hl')
      omega

theorem Standing.exists_raw (h : Standing d source (first :: (inside ++ [last]))) :
    ∃ raw, Region.slice? ⟨first.resume, last.tag.region.start⟩ source = some raw := by
  obtain ⟨closing, hclosing⟩ := h.slice_eq last (by simp)
  have hresume := List.pairwise_cons.1 h.resume_le
  exact Region.exists_slice? (h.boundary first List.mem_cons_self) (Region.isBoundary_of_slice? hclosing).1
    (hresume.1 last (by simp))

end Lexeme

namespace Token

def region? : Token → Option Region
  | .block _ _ _ _ _ region => some region
  | .text _ | .lineStart | .value _ _ | .embed _ _ => none

def regions (tokens : List Token) : List Region := tokens.filterMap region?

theorem mem_regions {tokens : List Token} {r : Region} (h : r ∈ regions tokens) :
    ∃ path inverted body raw d, .block path inverted body raw d r ∈ tokens := by
  obtain ⟨token, htoken, hr⟩ := List.mem_filterMap.1 h
  cases token with
  | block path inverted body raw d region =>
    cases hr
    exact ⟨path, inverted, body, raw, d, htoken⟩
  | _ => cases hr

end Token

namespace Nesting

variable {source : List Char} {ls : List Lexeme} {tokens out body : List Token} {path : Path}
  {inverted : Bool} {raw : List Char} {d : Delimiters} {region : Region}

theorem regions_addLines (tokens : List Token) (text : List Char) :
    Token.regions (addLines tokens text) = Token.regions tokens := by
  refine addLines_invariant (f := Token.regions) ?_ tokens text
  intro tokens line
  rw [addLine_eq, extendText.eq_def]
  split <;> split <;> rfl

/-- The sections that are added to a list of tokens, latest first, stand behind those in it, in their
order. -/
theorem Grows.pairwise_regions (h : Grows source ls tokens out)
    (hordered : Tag.Ordered (ls.map Lexeme.tag))
    (hbefore : ∀ r ∈ Token.regions tokens, ∀ l ∈ ls, r.stop ≤ l.tag.region.start)
    (htokens : (Token.regions tokens).Pairwise fun r s => s.stop ≤ r.start) :
    (Token.regions out).Pairwise fun r s => s.stop ≤ r.start := by
  induction h with
  | nil => exact htokens
  | @leaf l rest tokens out _ _ _ ih =>
    have hregions : Token.regions (l.token?.toList ++ addLines tokens l.text) =
        Token.regions tokens := by
      rw [Token.regions, List.filterMap_append, ← Token.regions, ← Token.regions, regions_addLines]
      unfold Lexeme.token?
      split <;> rfl
    apply ih (hordered.sublist (by simp))
    · rw [hregions]
      exact fun r hr l hl => hbefore r hr l (List.mem_cons_of_mem _ hl)
    · rwa [hregions]
  | @block first last inside rest tokens inner out _ _ _ _ _ _ ih =>
    rw [List.map_cons, List.map_append, List.map_cons] at hordered
    have hregions : Token.regions (closedSection source
        ⟨first.tag, first.resume, addLines tokens first.text⟩ (addLines inner last.text) last.tag ::
          addLines tokens first.text) =
        ⟨first.tag.region.start, last.tag.region.stop⟩ :: Token.regions tokens := by
      rw [← regions_addLines tokens first.text, ← hordered.join_eq.1]
      rfl
    have hrest : ∀ l ∈ rest, last.tag.region.stop ≤ l.tag.region.start := fun l hl =>
      (List.pairwise_cons.1 hordered.behind.pairwise).1 l.tag (List.mem_map_of_mem hl)
    apply ih (hordered.behind.sublist (List.sublist_cons_self _ _))
    · intro r hr l hl
      rw [hregions] at hr
      rcases List.mem_cons.1 hr with rfl | hr
      · exact hrest l hl
      · exact hbefore r hr l (by simp [hl])
    · rw [hregions]
      exact List.pairwise_cons.2 ⟨fun r hr => hbefore r hr first List.mem_cons_self, htokens⟩

theorem IsSection.exists_region_eq
    (h : IsSection source ls (.block path inverted body raw d region))
    (hordered : Tag.Ordered (ls.map Lexeme.tag)) :
    ∃ first ∈ ls, ∃ last ∈ ls, region = ⟨first.tag.region.start, last.tag.region.stop⟩ := by
  generalize htoken : Token.block path inverted body raw d region = token at h
  cases h with
  | @intro front before first last inside rest inner =>
    rw [closedSection, Token.block.injEq] at htoken
    rw [List.map_append, List.map_cons, List.map_append, List.map_cons] at hordered
    refine ⟨first, by simp, last, by simp, ?_⟩
    rw [htoken.2.2.2.2.2]
    exact (hordered.sublist (List.sublist_append_right _ _)).join_eq.1

theorem Grows.marks_eq {before inner : List Token} {first last : Lexeme}
    {inside : List Lexeme} (h : Grows source inside [] inner)
    (hopen : first.tag.sigil.opensSection = true) (hclose : last.tag.sigil = .slash)
    (hkey : last.tag.content = first.tag.content)
    (hordered : Tag.Ordered (first.tag :: (inside.map Lexeme.tag ++ [last.tag]))) :
    Token.marks (closedSection source ⟨first.tag, first.resume, before⟩ (addLines inner last.text)
        last.tag) =
      (first.tag :: (inside.map Lexeme.tag ++ [last.tag])).filterMap Tag.mark? := by
  have hgrows : Grows source (first :: (inside ++ [last])) [] _ :=
    .block hopen hclose hkey h .nil
  have hmarks := hgrows.allMarks_eq (by simpa using hordered)
  rw [List.reverse_cons, Token.allMarks_append, allMarks_addLines] at hmarks
  simpa [Token.allMarks, closedSection] using hmarks

end Nesting

namespace Tag

/-- Two tags that begin and end a section, with the tags between them. -/
structure Encloses (first : Tag) (inside : List Tag) (last : Tag) : Prop where
  opens : first.sigil.opensSection = true
  closes : last.sigil = .slash
  same_key : last.content = first.content
  nested : Nested inside

end Tag

namespace Token

section

variable [Alphabet]

/-- The place in a source of a section between the tags `first` and `last`. Only a region between two
boundaries of the source has a text there. -/
structure SectionSpan (d : Delimiters) (source : List Char) (first last : Tag) (body : List Token)
    (raw : List Char) (closing : Delimiters) (region : Region) : Prop where
  region_eq : region = ⟨first.region.start, last.region.stop⟩
  text_eq : ∃ text, region.slice? source =
    some ((Tag.delimitersAt d source region.start).opening ++ text ++ closing.closing)
  open_tag : ∃ inner, first.region.slice? source =
    some ((Tag.delimitersAt d source region.start).opening ++ inner ++ first.delimiters.closing)
  close_tag : ∃ inner, last.region.slice? source =
    some (closing.opening ++ inner ++ closing.closing)
  closing_eq : closing = Tag.delimitersAt d source last.region.start
  /-- The raw text begins behind the line of an open tag that is alone on it. -/
  raw_eq : Region.slice? ⟨(first.removed source).stop, last.region.start⟩ source = some raw
  within : ∀ r ∈ regions (allNodes body),
    (first.removed source).stop ≤ r.start ∧ r.stop ≤ last.region.start
  siblings : (regions body).Pairwise fun r s => r.stop ≤ s.start

theorem sectionSpan_of_grows {d : Delimiters} {source : List Char} {first last : Lexeme}
    {inside : List Lexeme} {inner : List Token} (h : Nesting.Grows source inside [] inner)
    (hs : Lexeme.Standing d source (first :: (inside ++ [last]))) :
    SectionSpan d source first.tag last.tag (Nesting.addLines inner last.text).reverse
      (Region.literal ⟨first.resume, last.tag.region.start⟩ source) last.tag.delimiters
      (first.tag.region.join last.tag.region) := by
  have hfirst : first ∈ first :: (inside ++ [last]) := by simp
  have hlast : last ∈ first :: (inside ++ [last]) := by simp
  have hordered := hs.ordered
  rw [List.map_cons, List.map_append, List.map_singleton] at hordered
  obtain ⟨opening, hopening⟩ := hs.slice_eq first hfirst
  obtain ⟨closing, hclosing⟩ := hs.slice_eq last hlast
  have hboundary := (Region.isBoundary_of_slice? hclosing).1
  have hregion := hordered.join_eq.1
  have hresume := List.pairwise_cons.1 hs.resume_le
  exact {
    region_eq := hregion
    text_eq := by
      have hopened := (Region.isBoundary_of_slice? hopening).2
      obtain ⟨middle, hmiddle⟩ := Region.exists_slice? hopened hboundary
        ((List.pairwise_cons.1 hordered.pairwise).1 last.tag (by simp))
      have htext := Region.slice?_trans hopening (Region.slice?_trans hmiddle hclosing)
      refine ⟨opening ++ first.tag.delimiters.closing ++ middle ++ last.tag.delimiters.opening ++
        closing, ?_⟩
      rw [hregion, htext, ← hs.in_force first hfirst]
      simp
    open_tag := by
      refine ⟨opening, ?_⟩
      rw [hregion, ← hs.in_force first hfirst]
      exact hopening
    close_tag := ⟨closing, hclosing⟩
    closing_eq := hs.in_force last hlast
    raw_eq := by
      obtain ⟨raw, hraw⟩ := hs.exists_raw
      rw [← hs.resume_eq first hfirst, Region.literal, hraw]
      rfl
    within := by
      intro r hr
      obtain ⟨path, inverted, body, raw, d', hmem⟩ := mem_regions hr
      rw [mem_allNodes_reverse, Nesting.block_mem_allNodes_addLines] at hmem
      have hsection := (h.isSection_of_mem hmem).resolve_left (by simp [allNodes])
      obtain ⟨l, hl, l', hl', rfl⟩ := hsection.exists_region_eq hordered.inside
      rw [← hs.resume_eq first hfirst]
      refine ⟨hresume.1 l (by simp [hl]), ?_⟩
      have hbetween := (List.pairwise_cons.1 hordered.pairwise).2
      exact (List.pairwise_append.1 hbetween).2.2 l'.tag (List.mem_map_of_mem hl') last.tag (by simp)
    siblings := by
      rw [regions, List.filterMap_reverse, List.pairwise_reverse, ← regions, Nesting.regions_addLines]
      exact h.pairwise_regions hordered.inside (by simp [regions]) .nil }

theorem exists_sectionSpan {d closing : Delimiters} {source raw : List Char} {ls : List Lexeme}
    {path : Path} {inverted : Bool} {body : List Token} {region : Region}
    (h : Nesting.IsSection source ls (.block path inverted body raw closing region))
    (hs : Lexeme.Standing d source ls) :
    ∃ first inside last, first :: (inside ++ [last]) <:+: ls.map Lexeme.tag ∧
      first.Encloses inside last ∧
      marks (.block path inverted body raw closing region) =
        (first :: (inside ++ [last])).filterMap Tag.mark? ∧
      SectionSpan d source first last body raw closing region := by
  generalize htoken : Token.block path inverted body raw closing region = token at h
  cases h with
  | @intro front before first last inside rest inner hinside hopen hclose hkey =>
    have hinfix : first :: (inside ++ [last]) <:+: front ++ first :: (inside ++ last :: rest) :=
      ⟨front, rest, by simp⟩
    have hpart := hs.sublist hinfix.sublist
    have htags : (first :: (inside ++ [last])).map Lexeme.tag =
        first.tag :: (inside.map Lexeme.tag ++ [last.tag]) := by simp
    refine ⟨first.tag, inside.map Lexeme.tag, last.tag, htags ▸ hinfix.map Lexeme.tag,
      ⟨hopen, hclose, hkey, hinside.nested⟩, ?_, ?_⟩
    · exact hinside.marks_eq hopen hclose hkey (htags ▸ hpart.ordered)
    · rw [Nesting.closedSection, Token.block.injEq] at htoken
      obtain ⟨-, -, rfl, rfl, rfl, rfl⟩ := htoken
      exact sectionSpan_of_grows hinside hpart

end

/-- Every section of a template stands between two tags that match. Its region goes from the beginning of
the one to the end of the other, and its raw text is the source between them, less the line end of an open
tag that is alone on its line. -/
theorem sections_stand_between_tags [Alphabet] {d : Delimiters} {source : List Char}
    {tokens : List Token} (h : parse d source = .ok tokens) :
    (regions tokens).Pairwise (fun r s => r.stop ≤ s.start) ∧
      ∀ path inverted body raw closing region,
        .block path inverted body raw closing region ∈ allNodes tokens →
          ∃ first inside last, first :: (inside ++ [last]) <:+: tags d source ∧
            first.Encloses inside last ∧
            marks (.block path inverted body raw closing region) =
              (first :: (inside ++ [last])).filterMap Tag.mark? ∧
            SectionSpan d source first last body raw closing region := by
  obtain ⟨out, text, d', -, hgrows, rfl⟩ := ofLexemes_eq_ok_iff.1 h
  have hstanding := Lexeme.standing_readAll d source
  refine ⟨?_, fun path inverted body raw closing region hmem => ?_⟩
  · rw [regions, List.filterMap_reverse, List.pairwise_reverse, ← regions, Nesting.regions_addLines]
    exact hgrows.pairwise_regions hstanding.ordered (by simp [regions, region?]) .nil
  · rw [mem_allNodes_reverse, Nesting.block_mem_allNodes_addLines] at hmem
    have hsection := (hgrows.isSection_of_mem hmem).resolve_left (by simp [allNodes, nodes])
    exact exists_sectionSpan hsection hstanding

/-- Sections side by side in another one, with a change of delimiters inside it. -/
theorem sections_stand_between_tags_nested :
    let d : Delimiters := ⟨['<', '%'], ['%', '>'], by decide, by decide⟩
    let source := "é\n<%#a%>\n <%=[[ ]]=%>\n[[^b]]x[[/b]][[#b]]y[[/b]]\n[[/a]]\n".toList
    ∃ tokens, parse d source = .ok tokens ∧
      regions (allNodes tokens) = [⟨3, 56⟩, ⟨23, 36⟩, ⟨36, 49⟩] ∧
      (regions tokens).Pairwise (fun r s => r.stop ≤ s.start) ∧
      ∀ path inverted body raw closing region,
        .block path inverted body raw closing region ∈ allNodes tokens →
          ∃ first inside last, first :: (inside ++ [last]) <:+: tags d source ∧
            first.Encloses inside last ∧
            marks (.block path inverted body raw closing region) =
              (first :: (inside ++ [last])).filterMap Tag.mark? ∧
            SectionSpan d source first last body raw closing region := by
  intro d source
  have hfind : (parse d source).toOption.map (fun tokens => regions (allNodes tokens)) =
      some [⟨3, 56⟩, ⟨23, 36⟩, ⟨36, 49⟩] := by decide +kernel
  cases h : parse d source with
  | error fault =>
    rw [h] at hfind
    cases hfind
  | ok tokens =>
    rw [h] at hfind
    exact ⟨tokens, rfl, Option.some.inj hfind, sections_stand_between_tags h⟩

end Token

end LogicLess
