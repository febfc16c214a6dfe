import LogicLess.Proofs.Tag.Scan

/-!
# Lexemes and tags

Lexemes have the tags that a scan of the source finds. The text between them differs only by the white
space on the lines that tags remove, since no delimiter holds any.
-/

namespace LogicLess

namespace Tag

/-- The tags of a scan, with the text between them without its white space. -/
def outline (r : List (List Char × Tag) × Ending) : List (List Char × Tag) × Ending :=
  (r.1.map fun p => (Text.dense p.1, p.2), r.2.dense)

theorem afterTag_advance (c : Cursor) (tag : Tag) (n : Nat) :
    (c.advance n).afterTag tag = (c.afterTag tag).map (·.advance n) := by
  by_cases hsigil : tag.sigil = .equals
  · rw [Cursor.afterTag, if_pos hsigil, Cursor.afterTag, if_pos hsigil]
    cases Delimiters.ofContent tag.content <;> rfl
  · rw [Cursor.afterTag, if_neg hsigil, Cursor.afterTag, if_neg hsigil]
    rfl

variable [Alphabet] {c : Cursor} {tail : List Char}

private theorem next?_advance (htail : tail <+: c.rest)
    (hspacing : ∀ x ∈ tail, Text.isSpacing x = true) :
    next? c = (next? (c.advance tail.length)).map
      (Option.map fun (before, tag, next) => (tail ++ before, tag, next)) := by
  obtain ⟨rest, hrest⟩ := htail
  have hnot : ∀ x ∈ tail, x ∉ c.delimiters.opening := by
    intro x hx hmem
    have hfalse := Text.isSpacing_of_mem_delimiter c.delimiters.opening_ok hmem
    rw [hspacing x hx] at hfalse
    cases hfalse
  have hcut := Text.cutAt?_append_left c.delimiters.opening_ne_nil hnot rest
  rw [hrest] at hcut
  simp only [next?, Cursor.delimiters_advance, hcut, Cursor.rest_advance hrest.symm]
  cases Text.cutAt? c.delimiters.opening rest with
  | none => rfl
  | some parts =>
    simp only [Option.map_some, List.length_append, Cursor.advance_advance]
    rcases read (c.advance (tail.length + parts.1.length)) with fault | ⟨tag, close⟩
    · rfl
    · simp only [bind, Except.bind]
      cases close.afterTag tag <;> rfl

theorem outline_scan_advance (htail : tail <+: c.rest)
    (hspacing : ∀ x ∈ tail, Text.isSpacing x = true) :
    outline (scan (c.advance tail.length)) = outline (scan c) := by
  have hnext := next?_advance htail hspacing
  rcases hcase : next? (c.advance tail.length) with fault | _ | ⟨before, tag, next⟩
  · rw [hcase] at hnext
    rw [scan_of_error hcase, scan_of_error hnext]
  · rw [hcase] at hnext
    obtain ⟨rest, hrest⟩ := htail
    rw [scan_of_none hcase, scan_of_none hnext, outline, outline, Ending.dense, Ending.dense,
      Cursor.rest_advance hrest.symm, ← hrest, Text.dense_append, Text.dense_eq_nil hspacing]
    rfl
  · rw [hcase] at hnext
    rw [scan_of_some hcase, scan_of_some hnext, outline, outline, List.map_cons, List.map_cons,
      Text.dense_append, Text.dense_eq_nil hspacing]
    rfl

end Tag

namespace Lexeme

/-- The tags of lexemes, with the text between them without its white space. -/
def outline (r : List Lexeme × Ending) : List (List Char × Tag) × Ending :=
  (r.1.map fun l => (Text.dense l.text, l.tag), r.2.dense)

variable {c next : Cursor} {before : List Char} {tag : Tag}

theorem ofTag_eq (c close : Cursor) (before : List Char) (tag : Tag) :
    ∃ tail l, ofTag c before tag close = (l, close.advance tail.length) ∧ tail <+: close.rest ∧
      (∀ x ∈ tail, Text.isSpacing x = true) ∧ l.tag = tag ∧
      Text.dense l.text = Text.dense before := by
  by_cases h : (tag.sigil.mayStandAlone &&
      Text.isAlone (c.seen.reverse ++ before) close.rest) = true
  · obtain ⟨tail, htail⟩ := Option.isSome_iff_exists.1
      (Bool.and_eq_true_iff.1 (Bool.and_eq_true_iff.1 h).2).2
    have hpadding := Text.all_splitTrailing Text.isBlank before
    have hbefore := Text.splitTrailing_append Text.isBlank before
    refine ⟨tail, _, ofTag_of_alone h rfl htail, Text.prefix_of_blankLineEnd? htail,
      Text.isSpacing_of_blankLineEnd? htail, rfl, ?_⟩
    have hdense := Text.dense_append (Text.splitTrailing Text.isBlank before).1
      (Text.splitTrailing Text.isBlank before).2
    rw [hbefore, Text.dense_eq_nil fun x hx => Text.isSpacing_of_isBlank (hpadding x hx),
      List.append_nil] at hdense
    exact hdense.symm
  · rw [Bool.not_eq_true] at h
    refine ⟨[], ⟨before, tag, [], close.offset⟩, ?_, List.nil_prefix, by simp, rfl, rfl⟩
    rw [ofTag_of_not_alone h]
    exact congrArg _ close.advance_zero.symm

variable [Alphabet]

theorem exists_read?_of_next? (hc : c.Settled) (h : Tag.next? c = .ok (some (before, tag, next))) :
    ∃ l tail, read? c = .ok (some (l, next.advance tail.length)) ∧ tail <+: next.rest ∧
      (∀ x ∈ tail, Text.isSpacing x = true) ∧ l.tag = tag ∧
      Text.dense l.text = Text.dense before := by
  obtain ⟨rest, close, hcut, hread, hafter⟩ := Tag.next?_eq_some_iff.1 h
  obtain ⟨tail, l, hl, htail, hspacing, htag, htext⟩ := ofTag_eq c close before tag
  have hrest : next.rest = close.rest := (Cursor.passes_of_afterTag hafter).rest_eq.symm
  refine ⟨l, tail, ?_, hrest ▸ htail, hspacing, htag, htext⟩
  rw [read?_eq hc hcut]
  simp only [hread, bind, Except.bind, hl, Tag.afterTag_advance, hafter, Except.map, pure,
    Except.pure]

theorem read?_of_next?_error (hc : c.Settled) {fault : Fault} (h : Tag.next? c = .error fault) :
    read? c = .error fault := by
  cases hcut : Text.cutAt? c.delimiters.opening c.rest with
  | none => simp [Tag.next?, hcut] at h
  | some parts =>
    obtain ⟨before, rest⟩ := parts
    rw [read?_eq hc hcut]
    simp only [Tag.next?, hcut] at h
    rcases hread : Tag.read (c.advance before.length) with _ | ⟨tag, close⟩ <;> rw [hread] at h
    · exact congrArg Except.error (Except.error.inj h)
    · obtain ⟨tail, l, hl, -⟩ := ofTag_eq c close before tag
      cases hafter : close.afterTag tag with
      | error fault' =>
        simp only [bind, Except.bind, hafter] at h
        simp only [bind, Except.bind, hl, Tag.afterTag_advance, hafter, Except.map]
        exact congrArg Except.error (Except.error.inj h)
      | ok next => simp [bind, Except.bind, hafter, pure, Except.pure] at h

theorem read?_of_next?_none (h : Tag.next? c = .ok none) : read? c = .ok none := by
  cases hcut : Text.cutAt? c.delimiters.opening c.rest with
  | none => simp only [read?, hcut]
  | some parts =>
    simp only [Tag.next?, hcut] at h
    obtain ⟨_, -, h⟩ := bind_eq_ok h
    obtain ⟨_, -, h⟩ := bind_eq_ok h
    cases h

/-- Lexemes have the tags of the source. -/
theorem outline_readAll (c : Cursor) (hc : c.Settled) :
    outline (readAll c) = Tag.outline (Tag.scan c) := by
  -- After a removed line the next lexeme begins behind the place where the scan goes on, so the
  -- induction is over the text that is left and not over one of the two readers.
  induction hlength : c.rest.length using Nat.strongRecOn generalizing c with
  | ind n ih =>
    rcases hnext : Tag.next? c with fault | _ | ⟨before, tag, next⟩
    · rw [readAll_of_error (read?_of_next?_error hc hnext), Tag.scan_of_error hnext]
      rfl
    · rw [readAll_of_none (read?_of_next?_none hnext), Tag.scan_of_none hnext]
      rfl
    · obtain ⟨l, tail, hread, htail, hspacing, htag, htext⟩ := exists_read?_of_next? hc hnext
      obtain ⟨_, _, _, _, hspans⟩ := exists_spans_of_read? hc hread
      have hrest := (ih _ (hlength ▸ length_rest_of_read? hread) _ hspans.settled rfl).trans
        (Tag.outline_scan_advance htail hspacing)
      rw [outline, Tag.outline, Prod.mk.injEq] at hrest
      rw [readAll_of_some hread, Tag.scan_of_some hnext, outline, Tag.outline, List.map_cons,
        List.map_cons, hrest.1, hrest.2, htag, htext]

theorem resume_of_read? {l : Lexeme} (h : read? c = .ok (some (l, next))) :
    l.resume = next.offset := by
  simp only [read?] at h
  split at h
  · cases h
  · split at h
    · cases h
    · split at h
      · cases h
      · next place hplace =>
        have hoffset : place.offset = _ := (Cursor.passes_of_afterTag hplace).offset_eq
        split at h
        all_goals
          next halone =>
          rw [halone] at hoffset
          cases h
          exact hoffset.symm

theorem exists_of_readAll_cons {l : Lexeme} {ls : List Lexeme} {ending : Ending}
    (h : readAll c = (l :: ls, ending)) :
    ∃ next, read? c = .ok (some (l, next)) ∧ readAll next = (ls, ending) := by
  rcases hread : read? c with fault | _ | ⟨l', next⟩
  · rw [readAll_of_error hread] at h
    cases h
  · rw [readAll_of_none hread] at h
    cases h
  · rw [readAll_of_some hread] at h
    cases h
    exact ⟨next, rfl, rfl⟩

theorem exists_readAll_eq {front more : List Lexeme} {l : Lexeme} {ending : Ending}
    (hc : c.Settled) (h : readAll c = (front ++ l :: more, ending)) :
    ∃ next, next.Settled ∧ next.source = c.source ∧ next.offset = l.resume ∧
      readAll next = (more, ending) := by
  induction front generalizing c with
  | nil =>
    obtain ⟨next, hread, hnext⟩ := exists_of_readAll_cons h
    obtain ⟨_, _, _, _, hspans⟩ := exists_spans_of_read? hc hread
    exact ⟨next, hspans.settled, hspans.passes.source_eq, (resume_of_read? hread).symm, hnext⟩
  | cons l' front ih =>
    obtain ⟨middle, hread, hmiddle⟩ := exists_of_readAll_cons h
    obtain ⟨_, _, _, _, hspans⟩ := exists_spans_of_read? hc hread
    obtain ⟨next, hsettled, hsource, hoffset, hnext⟩ := ih hspans.settled hmiddle
    exact ⟨next, hsettled, hsource.trans hspans.passes.source_eq, hoffset, hnext⟩

/-- The source between two tags, cut out and read by itself, has the tags that stand there, as long as the
delimiters stay the same. -/
theorem exists_readAll_between {front inside rest : List Lexeme} {first last : Lexeme}
    {ending : Ending} (hc : c.Settled)
    (h : readAll c = (front ++ first :: (inside ++ last :: rest), ending))
    (hfixed : ∀ l ∈ inside, l.tag.sigil ≠ .equals) :
    ∃ n ls text,
      readAll (.start last.tag.delimiters
        (Region.literal ⟨first.resume, last.tag.region.start⟩ c.source)) =
          (ls, .complete text last.tag.delimiters) ∧
      Text.dense text = Text.dense last.text ∧
      inside.map (fun l => (Text.dense l.text, l.tag)) =
        ls.map fun l => (Text.dense l.text, l.tag.shift n) := by
  obtain ⟨next, hnext, hsource, hoffset, hread⟩ := exists_readAll_eq hc h
  have houtline := outline_readAll next hnext
  rw [hread] at houtline
  rcases hscan : Tag.scan next with ⟨tags, ending'⟩
  simp only [hscan, outline, Tag.outline, Prod.mk.injEq, List.map_append, List.map_cons] at houtline
  obtain ⟨tags, more, rfl, htags, hmore⟩ := List.map_eq_append_iff.1 houtline.1.symm
  obtain ⟨⟨before, tag⟩, more, rfl, hlast, -⟩ := List.map_eq_cons_iff.1 hmore
  obtain ⟨hbefore, rfl⟩ := Prod.mk.inj hlast
  have hfixed' : ∀ p ∈ tags, p.2.sigil ≠ .equals := by
    intro p hp
    have hmem : (Text.dense p.1, p.2) ∈ tags.map fun p => (Text.dense p.1, p.2) :=
      List.mem_map_of_mem hp
    rw [htags] at hmem
    obtain ⟨l, hl, heq⟩ := List.mem_map.1 hmem
    exact (Prod.mk.inj heq).2 ▸ hfixed l hl
  obtain ⟨place, back, rfl, hplace, hstart, hdelimiters⟩ := Tag.exists_scan_eq hscan hfixed'
  have hraw : Region.literal ⟨first.resume, last.tag.region.start⟩ c.source = place.rest := by
    have hslice := Region.slice?_append place.seen.reverse place.rest back
    rw [Text.byteSize_reverse, ← place.offset_eq] at hslice
    rw [← hsource, ← hoffset, hstart]
    exact congrArg (Option.getD · []) hslice
  rw [Cursor.delimiters_extend] at hdelimiters hplace
  rw [hraw, hdelimiters]
  have hpiece := outline_readAll _ (Cursor.settled_start place.delimiters place.rest)
  have hmoved := Tag.scan_behind place.seen.reverse (.start place.delimiters place.rest)
  rcases hread' : readAll (.start place.delimiters place.rest) with ⟨ls, e⟩
  rcases hscan' : Tag.scan (.start place.delimiters place.rest) with ⟨tags', e'⟩
  rw [← place.eq_start_behind, hplace, hscan', Prod.mk.injEq] at hmoved
  rw [hread', hscan', outline, Tag.outline, Prod.mk.injEq] at hpiece
  obtain ⟨hsame, hend⟩ := hmoved
  cases e' with
  | broken => cases hend
  | complete text' d =>
    cases e with
    | broken => cases hpiece.2
    | complete text d' =>
      simp only [Ending.shift, Ending.dense, Ending.complete.injEq] at hend hpiece
      obtain ⟨rfl, rfl⟩ := hend
      obtain ⟨htags', htext, rfl⟩ := hpiece
      refine ⟨Text.byteSize place.seen.reverse, ls, text, rfl, htext.trans hbefore, ?_⟩
      have hshift := congrArg (List.map fun p : List Char × Tag =>
        (p.1, p.2.shift (Text.byteSize place.seen.reverse))) htags'
      rw [← htags, hsame]
      simpa [Function.comp_def] using hshift.symm

end Lexeme

end LogicLess
