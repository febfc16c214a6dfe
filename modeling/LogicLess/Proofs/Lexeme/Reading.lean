import LogicLess.Proofs.Tag.Spelling
import LogicLess.Proofs.Text.Split

/-!
# What a lexeme passes

A tag that is read runs from its opening delimiter through its closing delimiter. A lexeme passes the
text before the tag and the tag, and if the tag is alone on its line also the rest of that line.
Whether it is alone can be told from the source around the tag, since no lexeme ends in a blank while
text is left.
-/

namespace LogicLess

theorem bind_eq_ok {α β : Type} {x : Except Fault α} {f : α → Except Fault β} {b : β}
    (h : x >>= f = .ok b) : ∃ a, x = .ok a ∧ f a = .ok b := by
  cases x with
  | error fault => simp [bind, Except.bind] at h
  | ok a => exact ⟨a, rfl, h⟩

namespace Cursor

theorem atLineStart_iff (c : Cursor) :
    c.atLineStart = true ↔ ∀ p, c.seen.head? = some p → p = '\n' := by
  unfold atLineStart
  split <;> simp_all

theorem lineEnd?_eq (c : Cursor) :
    c.lineEnd? = (Text.blankLineEnd? c.rest).map fun tail => c.advance tail.length := by
  simp only [lineEnd?, Text.blankLineEnd?, rest_skipWhile]
  split <;> simp [*, skipWhile, advance_advance]

/-- No blank stands before the cursor while text is left. -/
def Settled (c : Cursor) : Prop :=
  c.rest = [] ∨ ∀ p, c.seen.head? = some p → Text.isBlank p = false

theorem settled_start (d : Delimiters) (source : List Char) : (start d source).Settled :=
  .inr (by simp [start])

theorem Passes.head?_seen {c next : Cursor} {s : List Char} {d : Delimiters}
    (h : Passes c (s ++ d.closing) next) :
    next.seen.head? = some (d.closing.getLast d.closing_ne_nil) := by
  rw [h.seen_eq, List.reverse_append, List.append_assoc, List.head?_append, List.head?_reverse,
    List.getLast?_eq_some_getLast d.closing_ne_nil, Option.some_or]

theorem Passes.settled {c next : Cursor} {s : List Char} {d : Delimiters}
    (h : Passes c (s ++ d.closing) next) : next.Settled := by
  refine .inr fun p hp => ?_
  rw [← Option.some.inj (h.head?_seen.symm.trans hp)]
  exact (Delimiters.not_isBlank_of_mem d.closing_ok (List.getLast_mem _)).1

theorem passes_of_afterTag {c next : Cursor} {tag : Tag} (h : c.afterTag tag = .ok next) :
    Passes c [] next := by
  refine ⟨(rest_of_afterTag h).symm, ?_⟩
  simp only [afterTag] at h
  split at h
  · split at h
    · simp only [Except.ok.injEq] at h
      rw [← h]
      rfl
    · simp at h
  · simp only [Except.ok.injEq] at h
    rw [h]
    rfl

end Cursor

namespace Lexeme

/-- A lexeme from `c` to `next`: it passes the text `before` its tag, the tag, and the text `tail`,
which is not empty only if the tag is alone on its line, before the text `after` the tag. -/
structure Spans (l : Lexeme) (c next : Cursor) (before tagText tail after : List Char) : Prop where
  rest_eq : c.rest = before ++ (tagText ++ after)
  passes : Cursor.Passes c (before ++ (tagText ++ tail)) next
  tag_eq : ∃ inner, tagText = c.delimiters.opening ++ inner ++ c.delimiters.closing
  delimiters_eq : l.tag.delimiters = c.delimiters
  before_eq : before = l.text ++ l.indent
  region_eq : l.tag.region =
    ⟨c.offset + Text.byteSize before, c.offset + Text.byteSize before + Text.byteSize tagText⟩
  line :
    if l.tag.sigil.mayStandAlone && Text.isAlone (c.seen.reverse ++ before) after then
      Text.blankLineEnd? after = some tail ∧ l.indent = Text.lastLine (c.seen.reverse ++ before)
    else tail = [] ∧ l.indent = []

/-- The text before a tag, without its blanks, does not end in a blank, whatever stands before it. -/
theorem head?_seen_line {c : Cursor} (hc : c.Settled) (hrest : c.rest ≠ [])
    (before : List Char) (p : Char)
    (hp : ((Text.splitTrailing Text.isBlank before).1.reverse ++ c.seen).head? = some p) :
    Text.isBlank p = false := by
  cases htext : (Text.splitTrailing Text.isBlank before).1.reverse with
  | nil =>
    rw [htext, List.nil_append] at hp
    exact (hc.resolve_left hrest) p hp
  | cons q rest =>
    rw [htext] at hp
    exact Text.head?_reverse_splitTrailing (by rw [htext]; exact hp)

theorem lastLine_of_alone {c : Cursor} (hc : c.Settled) (hrest : c.rest ≠ [])
    {before after : List Char} (h : Text.isAlone (c.seen.reverse ++ before) after = true) :
    Text.lastLine (c.seen.reverse ++ before) = (Text.splitTrailing Text.isBlank before).2 := by
  have hseen := head?_seen_line hc hrest before
  have hblank := Text.all_splitTrailing Text.isBlank before
  have hbefore := Text.splitTrailing_append Text.isBlank before
  rcases hparts : Text.splitTrailing Text.isBlank before with ⟨text, padding⟩
  rw [hparts] at hseen hblank hbefore
  have hline : (text.reverse ++ c.seen).reverse ++ padding = c.seen.reverse ++ before := by
    rw [List.reverse_append, List.reverse_reverse, List.append_assoc, hbefore]
  rw [← hline] at h ⊢
  exact Text.lastLine_of_isAlone hblank hseen h

/-- Whether a line is removed with its tag is told by the source around the tag. -/
theorem afterLine?_eq {line close : Cursor} {seen padding : List Char} {sigil : Sigil}
    (hline : line.seen = seen) (hpadding : ∀ p ∈ padding, Text.isBlank p = true)
    (hseen : ∀ p, seen.head? = some p → Text.isBlank p = false) :
    line.afterLine? close sigil =
      if sigil.mayStandAlone && Text.isAlone (seen.reverse ++ padding) close.rest then
        (Text.blankLineEnd? close.rest).map fun tail => close.advance tail.length
      else none := by
  have hstart : line.atLineStart = (Text.lastLine (seen.reverse ++ padding)).all Text.isBlank := by
    rw [Bool.eq_iff_iff, Text.all_isBlank_lastLine hpadding hseen, Cursor.atLineStart_iff, hline]
  unfold Cursor.afterLine? Text.isAlone
  rw [hstart, Cursor.lineEnd?_eq]
  cases sigil.mayStandAlone <;>
    cases (Text.lastLine (seen.reverse ++ padding)).all Text.isBlank <;>
    cases Text.blankLineEnd? close.rest <;> simp

/-- The lexeme of a tag that is read after the text `before`, and the place after it. -/
def ofTag (c : Cursor) (before : List Char) (tag : Tag) (close : Cursor) : Lexeme × Cursor :=
  if tag.sigil.mayStandAlone && Text.isAlone (c.seen.reverse ++ before) close.rest then
    let (text, padding) := Text.splitTrailing Text.isBlank before
    let next := close.advance ((Text.blankLineEnd? close.rest).getD []).length
    (⟨text, tag, padding, next.offset⟩, next)
  else (⟨before, tag, [], close.offset⟩, close)

variable {c close : Cursor} {before rest : List Char} {tag : Tag}

theorem ofTag_of_alone (h : (tag.sigil.mayStandAlone &&
      Text.isAlone (c.seen.reverse ++ before) close.rest) = true)
    {text padding tail : List Char} (hbefore : Text.splitTrailing Text.isBlank before = (text, padding))
    (htail : Text.blankLineEnd? close.rest = some tail) :
    ofTag c before tag close = (⟨text, tag, padding, (close.advance tail.length).offset⟩,
      close.advance tail.length) := by
  rw [ofTag, if_pos h, hbefore, htail]
  rfl

theorem ofTag_of_not_alone (h : (tag.sigil.mayStandAlone &&
      Text.isAlone (c.seen.reverse ++ before) close.rest) = false) :
    ofTag c before tag close = (⟨before, tag, [], close.offset⟩, close) := by
  rw [ofTag, if_neg (by simp [h])]

theorem ofTag_of_plain (h : tag.sigil = .plain) :
    ofTag c before tag close = (⟨before, tag, [], close.offset⟩, close) := by
  refine ofTag_of_not_alone ?_
  rw [h]
  rfl

/-- A lexeme is read as the text before the next tag, the tag, and its place on a line. -/
theorem read?_eq [Alphabet] (hc : c.Settled)
    (hcut : Text.cutAt? c.delimiters.opening c.rest = some (before, rest)) :
    read? c = (do
      let (tag, close) ← Tag.read (c.advance before.length)
      let next ← (ofTag c before tag close).2.afterTag tag
      pure (some ((ofTag c before tag close).1, next))) := by
  have hrest := Text.append_of_cutAt? hcut
  have hne : c.rest ≠ [] := by simp [hrest, c.delimiters.opening_ne_nil]
  have hbefore := Text.splitTrailing_append Text.isBlank before
  have hseen := head?_seen_line hc hne before
  have hblank := Text.all_splitTrailing Text.isBlank before
  rcases hparts : Text.splitTrailing Text.isBlank before with ⟨text, padding⟩
  rw [hparts] at hbefore hseen hblank
  have hline : (c.advance text.length).seen = text.reverse ++ c.seen :=
    (Cursor.passes_advance (by rw [hrest, ← hbefore, List.append_assoc, List.append_assoc])).seen_eq
  have hplace : (c.advance text.length).advance padding.length = c.advance before.length := by
    rw [Cursor.advance_advance, ← List.length_append, hbefore]
  simp only [read?, hcut, hparts, hplace]
  cases Tag.read (c.advance before.length) with
  | error fault => rfl
  | ok result =>
    obtain ⟨tag, close⟩ := result
    have halone : (c.advance text.length).afterLine? close tag.sigil = _ :=
      afterLine?_eq hline hblank hseen
    rw [List.reverse_append, List.reverse_reverse, List.append_assoc, hbefore] at halone
    simp only [halone]
    by_cases hcond : (tag.sigil.mayStandAlone &&
        Text.isAlone (c.seen.reverse ++ before) close.rest) = true
    · have hend := (Bool.and_eq_true_iff.1 (Bool.and_eq_true_iff.1 hcond).2).2
      obtain ⟨tail, htail⟩ := Option.isSome_iff_exists.1 hend
      simp only [if_pos hcond, htail, Option.map_some, Option.getD_some, bind, Except.bind,
        ofTag_of_alone hcond hparts htail]
      cases (close.advance tail.length).afterTag tag <;> rfl
    · simp only [if_neg hcond, Option.getD_none, bind, Except.bind,
        ofTag_of_not_alone (Bool.not_eq_true _ ▸ hcond)]
      cases close.afterTag tag <;> rfl

/-- The lexeme of a tag spans the text before the tag, the tag, and the rest of a line that is removed
with it. -/
theorem exists_spans_ofTag [Alphabet] {next : Cursor} (hc : c.Settled)
    (hcut : Text.cutAt? c.delimiters.opening c.rest = some (before, rest))
    (hread : Tag.read (c.advance before.length) = .ok (tag, close))
    (hnext : (ofTag c before tag close).2.afterTag tag = .ok next) :
    ∃ tagText tail after, (ofTag c before tag close).1.Spans c next before tagText tail after := by
  have hrest := Text.append_of_cutAt? hcut
  have hne : c.rest ≠ [] := by simp [hrest, c.delimiters.opening_ne_nil]
  rw [List.append_assoc] at hrest
  obtain ⟨inner, hinner, -, hregion, hdelimiters⟩ :=
    Tag.passes_of_read (Cursor.rest_advance hrest) hread
  have hbefore := Cursor.passes_advance hrest
  have hclose := hbefore.trans hinner
  have hpasses := Cursor.passes_of_afterTag hnext
  have hsource := hclose.rest_eq
  rw [List.append_assoc] at hsource
  have hplace : tag.region = ⟨c.offset + Text.byteSize before, c.offset + Text.byteSize before +
      Text.byteSize (c.delimiters.opening ++ inner ++ c.delimiters.closing)⟩ := by
    rw [hregion, hinner.offset_eq, hbefore.offset_eq]
    rfl
  by_cases hcond : (tag.sigil.mayStandAlone &&
      Text.isAlone (c.seen.reverse ++ before) close.rest) = true
  · have halone := (Bool.and_eq_true_iff.1 hcond).2
    obtain ⟨tail, htail⟩ := Option.isSome_iff_exists.1 (Bool.and_eq_true_iff.1 halone).2
    rw [ofTag_of_alone hcond rfl htail] at hpasses ⊢
    obtain ⟨rest', hrest'⟩ := Text.prefix_of_blankLineEnd? htail
    have hend := (hclose.trans (Cursor.passes_advance hrest'.symm)).trans hpasses
    exact ⟨_, tail, close.rest, {
      rest_eq := hsource
      passes := by simpa using hend
      tag_eq := ⟨inner, rfl⟩
      delimiters_eq := hdelimiters
      before_eq := (Text.splitTrailing_append Text.isBlank before).symm
      region_eq := hplace
      line := by
        rw [if_pos hcond]
        exact ⟨htail, (lastLine_of_alone hc hne halone).symm⟩ }⟩
  · rw [ofTag_of_not_alone (Bool.not_eq_true _ ▸ hcond)] at hpasses ⊢
    exact ⟨_, [], close.rest, {
      rest_eq := hsource
      passes := by simpa using hclose.trans hpasses
      tag_eq := ⟨inner, rfl⟩
      delimiters_eq := hdelimiters
      before_eq := (List.append_nil before).symm
      region_eq := hplace
      line := by
        rw [if_neg hcond]
        exact ⟨rfl, rfl⟩ }⟩

theorem exists_spans_of_read? [Alphabet] {next : Cursor} {l : Lexeme} (hc : c.Settled)
    (h : read? c = .ok (some (l, next))) :
    ∃ before tagText tail after, l.Spans c next before tagText tail after := by
  cases hcut : Text.cutAt? c.delimiters.opening c.rest with
  | none => simp [read?, hcut] at h
  | some parts =>
    rw [read?_eq hc hcut] at h
    obtain ⟨⟨tag, close⟩, hread, h⟩ := bind_eq_ok h
    obtain ⟨place, hplace, h⟩ := bind_eq_ok h
    simp only [pure, Except.pure, Except.ok.injEq, Option.some.injEq, Prod.mk.injEq] at h
    obtain ⟨rfl, rfl⟩ := h
    exact ⟨parts.1, exists_spans_ofTag hc hcut hread hplace⟩

theorem Spans.settled {l : Lexeme} {c next : Cursor} {before tagText tail after : List Char}
    (h : l.Spans c next before tagText tail after) : next.Settled := by
  have hafter : after = tail ++ next.rest := by
    have hrest := h.passes.rest_eq
    rw [h.rest_eq] at hrest
    simpa using hrest
  have hline := h.line
  split at hline
  · rcases Text.blankLineEnd?_complete hline.1 with htail | htail
    · exact .inl (by simpa [htail] using hafter)
    · refine .inr fun p hp => ?_
      obtain ⟨front, rfl⟩ := List.getLast?_eq_some_iff.1 htail
      have hp' : '\n' = p := by simpa [h.passes.seen_eq] using hp
      rw [← hp']
      rfl
  · obtain ⟨inner, hinner⟩ := h.tag_eq
    have hpasses := h.passes
    rw [hline.1, List.append_nil, hinner, ← List.append_assoc] at hpasses
    exact hpasses.settled

theorem Spans.offset_eq {l : Lexeme} {c next : Cursor} {before tagText tail after : List Char}
    (h : l.Spans c next before tagText tail after) :
    next.offset =
      c.offset + Text.byteSize l.text + Text.byteSize (l.indent ++ (tagText ++ tail)) := by
  rw [h.passes.offset_eq, h.before_eq]
  simp [Nat.add_assoc]

theorem Spans.offset_lt {l : Lexeme} {c next : Cursor} {before tagText tail after : List Char}
    (h : l.Spans c next before tagText tail after) :
    c.offset + Text.byteSize l.text < next.offset := by
  obtain ⟨inner, hinner⟩ := h.tag_eq
  have hopening := Text.byteSize_pos c.delimiters.opening_ne_nil
  rw [h.offset_eq, hinner]
  simp only [Text.byteSize_append]
  omega

theorem readAll_of_error [Alphabet] {c : Cursor} {fault : Fault} (h : read? c = .error fault) :
    readAll c = ([], .broken fault) := by
  rw [readAll]
  split <;> simp_all

theorem readAll_of_none [Alphabet] {c : Cursor} (h : read? c = .ok none) :
    readAll c = ([], .complete c.rest c.delimiters) := by
  rw [readAll]
  split <;> simp_all

theorem readAll_of_some [Alphabet] {c next : Cursor} {l : Lexeme}
    (h : read? c = .ok (some (l, next))) :
    readAll c = (l :: (readAll next).1, (readAll next).2) := by
  rw [readAll]
  split <;> simp_all

theorem forall_readAll [Alphabet] {P : Lexeme → Prop} {source : List Char}
    (h : ∀ (l : Lexeme) (c next : Cursor) (before tagText tail after : List Char),
      c.source = source → l.Spans c next before tagText tail after → P l)
    (c : Cursor) (hc : c.Settled) (hsource : c.source = source) : ∀ l ∈ (readAll c).1, P l := by
  induction c using readAll.induct with
  | case1 c fault hread => simp [readAll_of_error hread]
  | case2 c hread => simp [readAll_of_none hread]
  | case3 c l next hread _ _ _ ih =>
    obtain ⟨before, tagText, tail, after, hspans⟩ := exists_spans_of_read? hc hread
    rw [readAll_of_some hread]
    intro l' hl'
    rcases List.mem_cons.1 hl' with rfl | hl'
    · exact h l' c next before tagText tail after hsource hspans
    · exact ih hspans.settled (hspans.passes.source_eq.trans hsource) l' hl'

theorem Spans.isBlank_indent {l : Lexeme} {c next : Cursor} {before tagText tail after : List Char}
    (h : l.Spans c next before tagText tail after) : ∀ p ∈ l.indent, Text.isBlank p = true := by
  have hline := h.line
  split at hline
  · next halone =>
    have hblank := (Bool.and_eq_true_iff.1 (Bool.and_eq_true_iff.1 halone).2).1
    rw [hline.2]
    exact List.all_eq_true.1 hblank
  · simp [hline.2]

end Lexeme

end LogicLess
