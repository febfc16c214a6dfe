import LogicLess.Proofs.Lexeme.Pieces
import LogicLess.Proofs.Token.Growth
import LogicLess.Text.IdentifierTable

/-!
# Printing a tree

A tree can be printed as a template: text as it is, and tags with their delimiters, sigils and keys,
with blanks around the keys. The printed template is read into the same tree again, as long as no tag
that would remove its line is alone on one.
-/

namespace LogicLess

def Text.IsGap (s : List Char) : Prop := s ≠ [] ∧ s.all isBlank = true

/-- A key of a tag, and blanks on both sides of it. -/
structure Tag.IsSpaced [Alphabet] (sigil : Sigil) (lead key trail : List Char) : Prop where
  lead_gap : Text.IsGap lead
  key_ne : key ≠ []
  key_chars : key.all sigil.isContentChar = true
  trail_gap : Text.IsGap trail

/-- A text that can stand between tags. -/
structure Delimiters.Admits (d : Delimiters) (t : List Char) : Prop where
  no_marker : NoMarker t
  only_at_end : Text.OnlyAtEnd d.opening t

namespace Token

def valueSigil (escaped : Bool) : Sigil := if escaped then .plain else .ampersand

def sectionSigil (inverted : Bool) : Sigil := if inverted then .caret else .pound

/-- A tree of tokens after its first mark, and pieces that it can be printed as. Text ends a line or
stands within one, and the source of a section is its printed body. -/
inductive Prints [Alphabet] (d : Delimiters) : List Token → List Piece → Prop
  | nil : Prints d [] []
  | line {t rest pieces} (ht : '\n' ∉ t) (hadmits : d.Admits (t ++ ['\n']))
    (h : Prints d rest pieces) :
    Prints d (.text (t ++ ['\n']) :: .lineStart :: rest) (.text (t ++ ['\n']) :: pieces)
  | text {t rest pieces} (hne : t ≠ []) (ht : '\n' ∉ t) (hadmits : d.Admits t)
    (hrest : ∀ s, rest.head? ≠ some (.text s)) (h : Prints d rest pieces) :
    Prints d (.text t :: rest) (.text t :: pieces)
  | value {escaped lead key trail rest pieces}
    (hspaced : Tag.IsSpaced (valueSigil escaped) lead key trail) (h : Prints d rest pieces) :
    Prints d (.value (.ofKey key) escaped :: rest)
      (.tag (valueSigil escaped) lead key trail :: pieces)
  | block {inverted lead key trail lead' trail' body inner region rest pieces}
    (hopen : Tag.IsSpaced (sectionSigil inverted) lead key trail)
    (hclose : Tag.IsSpaced .slash lead' key trail') (hbody : Prints d body inner)
    (h : Prints d rest pieces) :
    Prints d (.block (.ofKey key) inverted body (Piece.print d inner) d region :: rest)
      (.tag (sectionSigil inverted) lead key trail :: inner ++ .tag .slash lead' key trail' :: pieces)
  | embed {lead key trail rest pieces} (hspaced : Tag.IsSpaced .angle lead key trail)
    (h : Prints d rest pieces) :
    Prints d (.embed (String.ofList key) [] :: rest) (.tag .angle lead key trail :: pieces)

mutual

def withoutRegions : Token → Token
  | .block path inverted body raw delimiters _ =>
    .block path inverted (allWithoutRegions body) raw delimiters ⟨0, 0⟩
  | token => token
termination_by structural token => token

def allWithoutRegions : List Token → List Token
  | [] => []
  | token :: rest => withoutRegions token :: allWithoutRegions rest
termination_by structural tokens => tokens

end

end Token

theorem Tag.IsSpaced.legible [Alphabet] {sigil : Sigil} {lead key trail after : List Char}
    (h : IsSpaced sigil lead key trail) (hsigil : sigil.isFreeText = false) (d : Delimiters)
    (hafter : Delimiters.NoMarker after) : Legible d sigil lead key trail after where
  sigil_eq := hsigil
  lead_blank := List.all_eq_true.1 h.lead_gap.2
  key_ne := h.key_ne
  key_chars := List.all_eq_true.1 h.key_chars
  trail_blank := List.all_eq_true.1 h.trail_gap.2
  key_ends := by
    obtain ⟨c, trail, rfl⟩ := List.exists_cons_of_ne_nil h.trail_gap.1
    intro x hx
    rw [← Option.some.inj hx]
    exact sigil.not_isContentChar_of_isBlank (List.all_eq_true.1 h.trail_gap.2 c (by simp))
  no_marker := hafter

namespace Token

variable {d : Delimiters}

private theorem noMarker_append {s t : List Char} (hne : s ≠ []) (h : Delimiters.NoMarker s) :
    Delimiters.NoMarker (s ++ t) := by
  obtain ⟨c, s, rfl⟩ := List.exists_cons_of_ne_nil hne
  exact h

private theorem noMarker_tag (hopening : Delimiters.NoMarker d.opening) (sigil : Sigil)
    (lead key trail after : List Char) :
    Delimiters.NoMarker (Tag.written d sigil lead key trail ++ after) := by
  rw [Tag.written, List.append_assoc]
  exact noMarker_append d.opening_ne_nil hopening

private theorem newline_not_mem_opening (d : Delimiters) : '\n' ∉ d.opening :=
  fun h => (Delimiters.not_isBlank_of_mem d.opening_ok h).2 rfl

private theorem onlyAtEnd_append {pending t : List Char} (hadmits : d.Admits t)
    (hpending : Text.OnlyAtEnd d.opening pending)
    (hend : pending = [] ∨ pending.getLast? = some '\n') : Text.OnlyAtEnd d.opening (pending ++ t) :=
  hpending.append hadmits.only_at_end (newline_not_mem_opening d) hend

@[simp] theorem isFreeText_valueSigil (escaped : Bool) : (valueSigil escaped).isFreeText = false := by
  cases escaped <;> rfl

@[simp] theorem isFreeText_sectionSigil (inverted : Bool) :
    (sectionSigil inverted).isFreeText = false := by
  cases inverted <;> rfl

/-- The pieces of a tree can be told from each other, whatever text is `pending` before them that does
not run into a text of theirs, if the pieces after them can. -/
theorem Prints.separate [Alphabet] {tokens : List Token} {pieces : List Piece}
    (h : Prints d tokens pieces) (hopening : Delimiters.NoMarker d.opening) :
    ∀ (pending : List Char) (more : List Piece),
      (∀ s, Text.OnlyAtEnd d.opening s → Piece.Separate d s more) →
      Delimiters.NoMarker (Piece.print d more) → Text.OnlyAtEnd d.opening pending →
      (pending = [] ∨ pending.getLast? = some '\n') ∨ (∀ s, tokens.head? ≠ some (.text s)) →
      Piece.Separate d pending (pieces ++ more) ∧
        Delimiters.NoMarker (Piece.print d (pieces ++ more)) := by
  have hnone : Text.OnlyAtEnd d.opening [] := by simp [Text.OnlyAtEnd]
  induction h with
  | nil => exact fun pending more hmore hmarker hpending _ => ⟨hmore pending hpending, hmarker⟩
  | @line t rest pieces ht hadmits _ ih =>
    intro pending more hmore hmarker hpending hend
    have hend := hend.resolve_right fun h => h _ rfl
    have hlast : (pending ++ (t ++ ['\n'])).getLast? = some '\n' := by simp
    refine ⟨(ih (pending ++ (t ++ ['\n'])) more hmore hmarker ?_ (.inl (.inr hlast))).1, ?_⟩
    · exact onlyAtEnd_append hadmits hpending hend
    · rw [List.cons_append, Piece.print_cons]
      exact noMarker_append (by simp [Piece.chars]) hadmits.no_marker
  | @text t rest pieces hne ht hadmits hrest _ ih =>
    intro pending more hmore hmarker hpending hend
    have hend := hend.resolve_right fun h => h _ rfl
    refine ⟨(ih (pending ++ t) more hmore hmarker ?_ (.inr hrest)).1, ?_⟩
    · exact onlyAtEnd_append hadmits hpending hend
    · rw [List.cons_append, Piece.print_cons]
      exact noMarker_append hne hadmits.no_marker
  | value hspaced _ ih =>
    intro pending more hmore hmarker hpending _
    obtain ⟨hseparate, hafter⟩ := ih [] more hmore hmarker hnone (.inl (.inl rfl))
    rw [List.cons_append, Piece.print_cons]
    exact ⟨⟨hpending, hspaced.legible (isFreeText_valueSigil _) d hafter, hseparate⟩,
      noMarker_tag hopening _ _ _ _ _⟩
  | @block inverted lead key trail lead' trail' body inner region rest pieces hopen hclose _ _ ihbody ih =>
    intro pending more hmore hmarker hpending _
    obtain ⟨hseparate, hafter⟩ := ih [] more hmore hmarker hnone (.inl (.inl rfl))
    have hclosed : ∀ s, Text.OnlyAtEnd d.opening s →
        Piece.Separate d s (.tag .slash lead' key trail' :: (pieces ++ more)) :=
      fun s hs => ⟨hs, hclose.legible rfl d hafter, hseparate⟩
    obtain ⟨hbody, hinside⟩ := ihbody [] (.tag .slash lead' key trail' :: (pieces ++ more)) hclosed
      (by rw [Piece.print_cons]; exact noMarker_tag hopening _ _ _ _ _) hnone (.inl (.inl rfl))
    rw [List.cons_append, List.cons_append, List.append_assoc, List.cons_append, Piece.print_cons]
    exact ⟨⟨hpending, hopen.legible (isFreeText_sectionSigil _) d hinside, hbody⟩,
      noMarker_tag hopening _ _ _ _ _⟩
  | embed hspaced _ ih =>
    intro pending more hmore hmarker hpending _
    obtain ⟨hseparate, hafter⟩ := ih [] more hmore hmarker hnone (.inl (.inl rfl))
    rw [List.cons_append, Piece.print_cons]
    exact ⟨⟨hpending, hspaced.legible rfl d hafter, hseparate⟩, noMarker_tag hopening _ _ _ _ _⟩

end Token

namespace Nesting

variable {d : Delimiters} {source : List Char}

def addPieces (d : Delimiters) (source : List Char) :
    Nat → Nesting → List Piece → Except Fault Nesting
  | _, n, [] => .ok n
  | place, n, .text t :: rest => addPieces d source (place + Text.byteSize t) (n.addText t) rest
  | place, n, .tag sigil lead key trail :: rest =>
    let stop := place + Text.byteSize (Tag.written d sigil lead key trail)
    do
      let n ← n.addTag source ⟨[], ⟨sigil, key, ⟨place, stop⟩, d⟩, [], stop⟩
      addPieces d source stop n rest

theorem addPieces_eq (pieces : List Piece) : ∀ (place : Nat) (pending : List Char) (n : Nesting),
    addPieces d source (place + Text.byteSize pending) (n.addText pending) pieces =
      (do let n ← (Piece.lexemes d place pending pieces).1.foldlM (addLexeme source) n
          pure (n.addText (Piece.lexemes d place pending pieces).2)) := by
  induction pieces with
  | nil => exact fun place pending n => rfl
  | cons p rest ih =>
    intro place pending n
    cases p with
    | text t =>
      rw [addPieces, ← addText_append, Nat.add_assoc, ← Text.byteSize_append]
      exact ih place (pending ++ t) n
    | tag sigil lead key trail =>
      have hmore := fun n => ih
        (place + Text.byteSize pending + Text.byteSize (Tag.written d sigil lead key trail)) [] n
      simp only [Text.byteSize, Nat.add_zero, addText_nil] at hmore
      simp only [addPieces, hmore, Piece.lexemes, List.foldlM_cons, bind_assoc]
      rfl

private theorem addPieces_tag {before lead key trail : List Char} {sigil : Sigil}
    {n after : Nesting} {rest : List Piece}
    (h : n.addTag source
      ⟨[], ⟨sigil, key, ⟨Text.byteSize before,
        Text.byteSize (before ++ Tag.written d sigil lead key trail)⟩, d⟩, [],
        Text.byteSize (before ++ Tag.written d sigil lead key trail)⟩ = .ok after) :
    addPieces d source (Text.byteSize before) n (.tag sigil lead key trail :: rest) =
      addPieces d source (Text.byteSize (before ++ Tag.written d sigil lead key trail)) after rest := by
  rw [Text.byteSize_append] at h ⊢
  simp only [addPieces, h]
  rfl

private theorem addPieces_value (before lead key trail : List Char) (escaped : Bool) (n : Nesting)
    (rest : List Piece) :
    addPieces d source (Text.byteSize before) n
        (.tag (Token.valueSigil escaped) lead key trail :: rest) =
      addPieces d source
        (Text.byteSize (before ++ Tag.written d (Token.valueSigil escaped) lead key trail))
        (n.addToken (.value (.ofKey key) escaped)) rest :=
  addPieces_tag (by cases escaped <;> rfl)

/-- A section that is open between its tag and the place `resume`. -/
private def opened (d : Delimiters) (inverted : Bool) (key : List Char) (start resume : Nat)
    (tokens : List Token) : OpenSection :=
  ⟨⟨Token.sectionSigil inverted, key, ⟨start, resume⟩, d⟩, resume, tokens⟩

private theorem addPieces_open (before lead key trail : List Char) (inverted : Bool) (n : Nesting)
    (rest : List Piece) :
    let inside := before ++ Tag.written d (Token.sectionSigil inverted) lead key trail
    addPieces d source (Text.byteSize before) n
        (.tag (Token.sectionSigil inverted) lead key trail :: rest) =
      addPieces d source (Text.byteSize inside)
        ⟨[], opened d inverted key (Text.byteSize before) (Text.byteSize inside) n.tokens ::
          n.sections⟩ rest :=
  addPieces_tag (by cases inverted <;> rfl)

private theorem addPieces_close (inside inner lead key trail after : List Char) (inverted : Bool)
    (start : Nat) (outer body : List Token) (sections : List OpenSection) (rest : List Piece)
    (hsource : source = inside ++ (inner ++ after)) :
    ∃ region, addPieces d source (Text.byteSize (inside ++ inner))
        ⟨body.reverse, opened d inverted key start (Text.byteSize inside) outer :: sections⟩
        (.tag .slash lead key trail :: rest) =
      addPieces d source (Text.byteSize (inside ++ inner ++ Tag.written d .slash lead key trail))
        ⟨.block (.ofKey key) inverted body inner d region :: outer, sections⟩ rest := by
  have hraw : Region.literal ⟨Text.byteSize inside, Text.byteSize (inside ++ inner)⟩ source =
      inner := by
    rw [Text.byteSize_append, hsource, Region.literal, Region.slice?_append]
    rfl
  let close : Region := ⟨Text.byteSize (inside ++ inner),
    Text.byteSize (inside ++ inner ++ Tag.written d .slash lead key trail)⟩
  refine ⟨Region.join ⟨start, Text.byteSize inside⟩ close, addPieces_tag ?_⟩
  simp only [addTag, closeSection, opened, if_true, hraw, List.reverse_reverse]
  cases inverted <;> rfl

theorem exists_addPieces_eq [Alphabet] {tokens : List Token} {pieces : List Piece}
    (h : Token.Prints d tokens pieces) :
    ∀ (before after : List Char) (n : Nesting) (more : List Piece),
      source = before ++ (Piece.print d pieces ++ after) →
      (∀ s t, n.tokens.head? = some (.text s) → tokens.head? ≠ some (.text t)) →
      ∃ grown, Token.allWithoutRegions grown = Token.allWithoutRegions tokens ∧
        addPieces d source (Text.byteSize before) n (pieces ++ more) =
          addPieces d source (Text.byteSize (before ++ Piece.print d pieces))
            ⟨grown.reverse ++ n.tokens, n.sections⟩ more := by
  induction h with
  | nil => exact fun before after n more _ _ => ⟨[], rfl, by simp⟩
  | @line t rest pieces ht hadmits _ ih =>
    intro before after n more hsource hhead
    have htext := addText_of_isLine (n := n) (.inl ⟨t, ht, rfl⟩) fun s hs => hhead s _ hs rfl
    obtain ⟨grown, hgrown, hadd⟩ := ih (before ++ (t ++ ['\n'])) after (n.addText (t ++ ['\n'])) more
      (by rw [hsource]; simp [Piece.chars]) (by simp [htext])
    refine ⟨.text (t ++ ['\n']) :: .lineStart :: grown,
      by simp [Token.allWithoutRegions, hgrown], ?_⟩
    rw [List.cons_append, addPieces, ← Text.byteSize_append, hadd, htext]
    simp [Piece.chars]
  | @text t rest pieces hne ht hadmits hrest _ ih =>
    intro before after n more hsource hhead
    have htext := addText_of_isLine (n := n) (.inr ⟨hne, ht⟩) fun s hs => hhead s _ hs rfl
    rw [if_neg fun hlast => ht (List.mem_of_getLast? hlast)] at htext
    obtain ⟨grown, hgrown, hadd⟩ := ih (before ++ t) after (n.addText t) more
      (by rw [hsource]; simp [Piece.chars]) (by intro s u _ hu; exact hrest u hu)
    refine ⟨.text t :: grown, by simp [Token.allWithoutRegions, hgrown], ?_⟩
    rw [List.cons_append, addPieces, ← Text.byteSize_append, hadd, htext]
    simp [Piece.chars]
  | @value escaped lead key trail rest pieces hspaced _ ih =>
    intro before after n more hsource _
    obtain ⟨grown, hgrown, hadd⟩ :=
      ih (before ++ Tag.written d (Token.valueSigil escaped) lead key trail) after
        (n.addToken (.value (.ofKey key) escaped)) more (by rw [hsource]; simp [Piece.chars])
        (by simp [addToken])
    refine ⟨.value (.ofKey key) escaped :: grown, by simp [Token.allWithoutRegions, hgrown], ?_⟩
    rw [List.cons_append, addPieces_value, hadd]
    simp [Piece.chars, addToken]
  | @block inverted lead key trail lead' trail' body inner region rest pieces hopen hclose _ _ ihbody ih =>
    intro before after n more hsource _
    obtain ⟨inside, hopened⟩ :
        ∃ inside, inside = before ++ Tag.written d (Token.sectionSigil inverted) lead key trail :=
      ⟨_, rfl⟩
    have hinside : source = inside ++ (Piece.print d inner ++
        (Tag.written d .slash lead' key trail' ++ (Piece.print d pieces ++ after))) := by
      rw [hsource, hopened]
      simp [Piece.chars]
    obtain ⟨grownBody, hgrownBody, hbody⟩ := ihbody inside _
      ⟨[], opened d inverted key (Text.byteSize before) (Text.byteSize inside) n.tokens :: n.sections⟩
      (.tag .slash lead' key trail' :: (pieces ++ more)) hinside (by simp)
    obtain ⟨region', hclosed⟩ := addPieces_close inside (Piece.print d inner) lead' key trail' _
      inverted (Text.byteSize before) n.tokens grownBody n.sections (pieces ++ more) hinside
    obtain ⟨grown, hgrown, hadd⟩ :=
      ih (inside ++ Piece.print d inner ++ Tag.written d .slash lead' key trail') after
        ⟨.block (.ofKey key) inverted grownBody (Piece.print d inner) d region' :: n.tokens, n.sections⟩
        more (by rw [hinside]; simp) (by simp)
    refine ⟨.block (.ofKey key) inverted grownBody (Piece.print d inner) d region' :: grown, ?_, ?_⟩
    · simp [Token.allWithoutRegions, Token.withoutRegions, hgrown, hgrownBody]
    · rw [List.cons_append, List.cons_append, List.append_assoc, List.cons_append, addPieces_open,
        ← hopened, hbody, List.append_nil, hclosed, hadd, hopened]
      simp [Piece.chars]
  | @embed lead key trail rest pieces hspaced _ ih =>
    intro before after n more hsource _
    obtain ⟨grown, hgrown, hadd⟩ := ih (before ++ Tag.written d .angle lead key trail) after
      (n.addToken (.embed (String.ofList key) [])) more (by rw [hsource]; simp [Piece.chars])
      (by simp [addToken])
    refine ⟨.embed (String.ofList key) [] :: grown, by simp [Token.allWithoutRegions, hgrown], ?_⟩
    rw [List.cons_append, addPieces_tag rfl, hadd]
    simp [Piece.chars, addToken]

end Nesting

namespace Token

/-- A tree that is printed is read back, but for the regions of its sections. -/
theorem parse_print [Alphabet] {d : Delimiters} {tokens : List Token} {pieces : List Piece}
    (h : Prints d tokens pieces) (hopening : Delimiters.NoMarker d.opening)
    (halone : Piece.noneAlone d [] pieces = true) :
    ∃ parsed, parse d (Piece.print d pieces) = .ok parsed ∧
      allWithoutRegions parsed = allWithoutRegions (.lineStart :: tokens) := by
  have hseparate := (h.separate hopening [] [] (fun _ hs => hs)
    (show Delimiters.NoMarker [] by decide) (by simp [Text.OnlyAtEnd]) (.inl (.inl rfl))).1
  rw [List.append_nil] at hseparate
  have hread := Lexeme.readAll_print d pieces (.start d (Piece.print d pieces)) [] rfl
    (Cursor.settled_start _ _) rfl hseparate halone
  obtain ⟨grown, hgrown, hadd⟩ := Nesting.exists_addPieces_eq h [] [] Nesting.empty []
    (List.append_nil _).symm (by simp [Nesting.empty])
  have hfold := (Nesting.addPieces_eq pieces 0 [] Nesting.empty).symm.trans
    ((congrArg _ (List.append_nil pieces).symm).trans hadd)
  refine ⟨.lineStart :: grown, ?_, by rw [allWithoutRegions, hgrown, allWithoutRegions]⟩
  obtain ⟨n, hn, htail⟩ := bind_eq_ok hfold
  have htail := Except.ok.inj htail
  rw [parse, hread]
  simp only [ofLexemes, Cursor.start, hn]
  change (n.addText _).finish d = _
  rw [htail]
  simp [Nesting.finish, Nesting.empty]

/-- A tree with a section and another template, printed with the same bar on both sides of a tag. -/
theorem parse_print_bars :
    let d : Delimiters := ⟨['|'], ['|'], by decide, by decide⟩
    ∃ parsed, parse d "a\nx |# s\t|| k.l\t||/ s\t||> p/q\t|".toList = .ok parsed ∧
      allWithoutRegions parsed =
        [.lineStart, .text ['a', '\n'], .lineStart, .text ['x', ' '],
          .block (.keys ["s"]) false [.value (.keys ["k", "l"]) true] "| k.l\t|".toList d ⟨0, 0⟩,
          .embed "p/q" []] := by
  intro d
  have hspaced : ∀ sigil key, key ≠ [] → key.all (Sigil.isContentChar sigil) = true →
      Tag.IsSpaced sigil [' '] key ['\t'] :=
    fun sigil key hne hkey => ⟨⟨by decide, rfl⟩, hne, hkey, ⟨by decide, rfl⟩⟩
  have hprints : Prints d
      [.text (['a'] ++ ['\n']), .lineStart, .text ['x', ' '],
        .block (.ofKey ['s']) false [.value (.ofKey ['k', '.', 'l']) true]
          (Piece.print d [.tag (valueSigil true) [' '] ['k', '.', 'l'] ['\t']]) d ⟨0, 0⟩,
        .embed (String.ofList ['p', '/', 'q']) []] _ :=
    .line (by decide) ⟨by decide, by decide⟩
      (.text (by decide) (by decide) ⟨by decide, by decide⟩ (by simp)
        (.block (hspaced _ _ (by decide) (by decide +kernel))
          (hspaced _ _ (by decide) (by decide +kernel))
          (.value (hspaced _ _ (by decide) (by decide +kernel)) .nil)
          (.embed (hspaced _ _ (by decide) (by decide +kernel)) .nil)))
  obtain ⟨parsed, hparse, herased⟩ := parse_print hprints (by decide) (by decide +kernel)
  exact ⟨parsed, hparse, herased⟩

end Token

end LogicLess
