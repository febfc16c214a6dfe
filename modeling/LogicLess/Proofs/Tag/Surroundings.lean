import LogicLess.Proofs.Lexeme.Written

/-!
# Tags and the text around them

A tag is read the same way wherever it stands. Text in front of a source only moves the regions in it,
and text behind a source does not change a tag that ends before it.
-/

namespace LogicLess

def Region.shift (n : Nat) (r : Region) : Region := ⟨n + r.start, n + r.stop⟩

theorem Region.join_shift (n : Nat) (r s : Region) :
    (r.shift n).join (s.shift n) = (r.join s).shift n := by
  simp [join, shift, Nat.add_min_add_left, Nat.add_max_add_left]

def Tag.shift (n : Nat) (tag : Tag) : Tag := { tag with region := tag.region.shift n }

def Fault.shift (n : Nat) : Fault → Fault
  | unclosedTag r closing => unclosedTag (r.shift n) closing
  | emptyTag r => emptyTag (r.shift n)
  | badDelimiters r problem => badDelimiters (r.shift n) problem
  | unopenedSection r key => unopenedSection (r.shift n) key
  | mismatchedSection r expected d => mismatchedSection (r.shift n) expected d
  | unclosedSection r expected d => unclosedSection (r.shift n) expected d

theorem Fault.kind_shift (n : Nat) (fault : Fault) : (fault.shift n).kind = fault.kind := by
  cases fault <;> rfl

theorem Fault.region_shift (n : Nat) (fault : Fault) :
    (fault.shift n).region = fault.region.shift n := by
  cases fault <;> rfl

namespace Cursor

/-- The same place in a source with the text `front` in front of it. -/
def behind (front : List Char) (c : Cursor) : Cursor where
  seen := c.seen ++ front.reverse
  rest := c.rest
  delimiters := c.delimiters
  offset := Text.byteSize front + c.offset
  offset_eq := by simp [c.offset_eq, Nat.add_comm]

/-- The same place in a source with the text `back` behind it. -/
def extend (back : List Char) (c : Cursor) : Cursor := { c with rest := c.rest ++ back }

variable {front back : List Char} {c : Cursor}

@[simp] theorem rest_behind : (c.behind front).rest = c.rest := rfl

@[simp] theorem delimiters_behind : (c.behind front).delimiters = c.delimiters := rfl

@[simp] theorem offset_behind : (c.behind front).offset = Text.byteSize front + c.offset := rfl

@[simp] theorem rest_extend : (c.extend back).rest = c.rest ++ back := rfl

@[simp] theorem delimiters_extend : (c.extend back).delimiters = c.delimiters := rfl

@[simp] theorem offset_extend : (c.extend back).offset = c.offset := rfl

theorem advance_behind (n : Nat) : (c.behind front).advance n = (c.advance n).behind front := by
  simp [advance, behind, Nat.add_assoc]

theorem eq_start_behind (c : Cursor) : c = (start c.delimiters c.rest).behind c.seen.reverse := by
  obtain ⟨seen, rest, d, offset, rfl⟩ := c
  simp [behind, start]

theorem Passes.eq_behind {c next : Cursor} {s : List Char} (h : Passes c s next) (hc : c.seen = []) :
    next = (start next.delimiters next.rest).behind s := by
  have hnext := next.eq_start_behind
  rwa [h.seen_eq, hc, List.append_nil, List.reverse_reverse] at hnext

theorem skipWhile_behind (p : Char → Bool) :
    (c.behind front).skipWhile p = (c.skipWhile p).behind front := advance_behind _

theorem takeSigil_behind :
    (c.behind front).takeSigil = (c.takeSigil.1, c.takeSigil.2.behind front) := by
  simp only [takeSigil, rest_behind, advance_behind]
  split <;> rfl

theorem afterTag_behind (tag : Tag) :
    (c.behind front).afterTag (tag.shift (Text.byteSize front)) =
      ((c.afterTag tag).map (behind front)).mapError (Fault.shift (Text.byteSize front)) := by
  by_cases hsigil : tag.sigil = .equals
  · have hshift : (tag.shift (Text.byteSize front)).sigil = .equals := hsigil
    have hcontent : (tag.shift (Text.byteSize front)).content = tag.content := rfl
    rw [afterTag, if_pos hshift, hcontent, afterTag, if_pos hsigil]
    cases Delimiters.ofContent tag.content <;> rfl
  · have hshift : ¬ (tag.shift (Text.byteSize front)).sigil = .equals := hsigil
    rw [afterTag, if_neg hshift, afterTag, if_neg hsigil]
    rfl

theorem extend_injective {c' : Cursor} (h : c.extend back = c'.extend back) : c = c' := by
  cases c
  cases c'
  simpa [extend] using h

theorem eq_extend {s : List Char} (h : c.rest = s ++ back) : c = extend back { c with rest := s } := by
  cases c
  simpa [extend] using h

theorem advance_extend {n : Nat} (h : n ≤ c.rest.length) :
    (c.extend back).advance n = (c.advance n).extend back := by
  simp [advance, extend, List.take_append_of_le_length h, List.drop_append_of_le_length h]

theorem takeSigil_extend (h : c.rest ≠ []) :
    (c.extend back).takeSigil = (c.takeSigil.1, c.takeSigil.2.extend back) := by
  obtain ⟨x, rest, hrest⟩ := List.exists_cons_of_ne_nil h
  have hone : (c.extend back).advance 1 = (c.advance 1).extend back :=
    advance_extend (by simp [hrest])
  have hhead : (c.extend back).rest.head? = c.rest.head? := by simp [hrest]
  simp only [takeSigil, hhead, hone]
  cases c.rest.head?.bind Sigil.ofChar? <;> rfl

theorem skipWhile_extend {p : Char → Bool}
    (h : back.length ≤ ((c.extend back).skipWhile p).rest.length) :
    (c.extend back).skipWhile p = (c.skipWhile p).extend back := by
  have hlength : ((c.extend back).rest.takeWhile p).length ≤ c.rest.length := by
    have hle := (List.takeWhile_prefix p (l := (c.extend back).rest)).length_le
    simp only [skipWhile, length_rest_advance, rest_extend, List.length_append] at h hle ⊢
    omega
  have hrun := Text.takeWhile_append_of_length_le hlength
  simp only [skipWhile, rest_extend] at hrun hlength ⊢
  rw [hrun] at hlength ⊢
  exact advance_extend hlength

theorem skipWhile_eq_self {p : Char → Bool} (h : ∀ x, c.rest.head? = some x → p x = false) :
    c.skipWhile p = c :=
  (skipWhile_eq (List.nil_append c.rest).symm (by simp) h).trans c.advance_zero

end Cursor

namespace Delimiters

variable {d : Delimiters} {s back : List Char}

private theorem isPrefixOf_append {needle : List Char} (h : needle.isPrefixOf s = true) :
    needle.isPrefixOf (s ++ back) = true := by
  rw [List.isPrefixOf_iff_prefix] at h ⊢
  exact h.trans (List.prefix_append s back)

private theorem isPrefixOf_of_append {needle : List Char} (hlength : needle.length ≤ s.length)
    (h : needle.isPrefixOf (s ++ back) = true) : needle.isPrefixOf s = true := by
  rw [List.isPrefixOf_iff_prefix] at h ⊢
  exact (Text.prefix_append_left_iff hlength).1 h

theorem closeLength?_of_append {n : Nat} (h : d.closeLength? (s ++ back) = some n)
    (hn : n ≤ s.length) : d.closeLength? s = some n := by
  cases s with
  | nil =>
    obtain ⟨marker, -, -, rfl, -⟩ := exists_takesIn h
    have hpos := List.length_pos_iff.2 d.closing_ne_nil
    simp only [List.length_append, List.length_nil] at hn
    omega
  | cons x s =>
    simp only [List.cons_append, closeLength?, List.length_cons] at h hn ⊢
    split at h
    · next hmarker =>
      rw [Bool.and_eq_true] at hmarker
      have hn' : d.closing.length + 1 = n := Option.some.inj h
      rw [hmarker.1, isPrefixOf_of_append (by omega) hmarker.2]
      exact h
    · next hmarker =>
      split at h
      · next hclosing =>
        have hn' : d.closing.length = n := Option.some.inj h
        have hshort : ¬ (isMarker x && d.closing.isPrefixOf s) = true := by
          rw [Bool.and_eq_true] at hmarker ⊢
          exact fun hs => hmarker ⟨hs.1, isPrefixOf_append hs.2⟩
        rw [if_neg hshort, if_pos (isPrefixOf_of_append (s := x :: s) (by simp; omega) hclosing)]
        exact h
      · cases h

theorem closeLength?_eq_none_of_append (h : d.closeLength? (s ++ back) = none) :
    d.closeLength? s = none := by
  cases s with
  | nil => rfl
  | cons x s =>
    simp only [List.cons_append, closeLength?] at h ⊢
    split at h
    · cases h
    · next hmarker =>
      split at h
      · cases h
      · next hclosing =>
        rw [if_neg, if_neg]
        · exact fun hs => hclosing (isPrefixOf_append (s := x :: s) hs)
        · rw [Bool.and_eq_true] at hmarker ⊢
          exact fun hs => hmarker ⟨hs.1, isPrefixOf_append hs.2⟩

theorem untilClose_of_append {n : Nat}
    (h : d.closeLength? ((s ++ back).drop (d.untilClose (s ++ back)).length) = some n)
    (hn : (d.untilClose (s ++ back)).length + n ≤ s.length) :
    d.untilClose (s ++ back) = d.untilClose s := by
  induction s with
  | nil =>
    have hnil : d.untilClose back = [] :=
      List.length_eq_zero_iff.1 (by simp only [List.nil_append, List.length_nil] at hn; omega)
    exact hnil
  | cons x s ih =>
    simp only [List.cons_append, untilClose] at h hn ⊢
    split at h
    · next hclose =>
      rw [if_pos hclose] at hn ⊢
      rw [if_pos]
      have hshort := closeLength?_of_append (s := x :: s) h (by simpa using hn)
      rw [hshort]
      rfl
    · next hclose =>
      rw [if_neg hclose] at hn ⊢
      rw [if_neg, ih h (by simp only [List.length_cons] at hn; omega)]
      rw [Option.not_isSome_iff_eq_none] at hclose ⊢
      exact closeLength?_eq_none_of_append (s := x :: s) hclose

theorem le_length_of_closeLength? {n : Nat} (h : d.closeLength? s = some n) : n ≤ s.length := by
  obtain ⟨marker, rest, rfl, rfl, -⟩ := exists_takesIn h
  simp

theorem not_isBlank_of_closeLength? {n : Nat} (h : d.closeLength? s = some n) (x : Char)
    (hx : s.head? = some x) : Text.isBlank x = false := by
  obtain ⟨rest, rfl⟩ := List.head?_eq_some_iff.1 hx
  simp only [closeLength?] at h
  split at h
  · next hmarker =>
    have hmark := (Bool.and_eq_true_iff.1 hmarker).1
    simp only [isMarker, Bool.or_eq_true, beq_iff_eq] at hmark
    rcases hmark with (rfl | rfl) | rfl <;> rfl
  · split at h
    · next hclosing =>
      obtain ⟨y, closing, hy⟩ := List.exists_cons_of_ne_nil d.closing_ne_nil
      rw [List.isPrefixOf_iff_prefix, hy, List.cons_prefix_cons] at hclosing
      rw [← hclosing.1]
      exact (not_isBlank_of_mem d.closing_ok (hy ▸ List.mem_cons_self)).1
    · cases h

/-- Free text goes on to the end of its tag, or of the source. -/
theorem closeLength?_untilClose (d : Delimiters) (s : List Char) :
    s.drop (d.untilClose s).length = [] ∨
      (d.closeLength? (s.drop (d.untilClose s).length)).isSome = true := by
  induction s with
  | nil => exact .inl rfl
  | cons x s ih =>
    rw [untilClose]
    split
    · next hclose => exact .inr hclose
    · exact ih

end Delimiters

namespace Tag

variable [Alphabet] {front back : List Char} {c : Cursor}

theorem contentAt_behind (sigil : Sigil) :
    contentAt sigil (c.behind front) = contentAt sigil c := rfl

theorem read_behind (front : List Char) (c : Cursor) :
    read (c.behind front) =
      ((read c).map fun (tag, close) =>
        (tag.shift (Text.byteSize front), close.behind front)).mapError
          (Fault.shift (Text.byteSize front)) := by
  simp only [read, Cursor.delimiters_behind, Cursor.advance_behind, Cursor.takeSigil_behind,
    Cursor.skipWhile_behind, contentAt_behind, Cursor.rest_behind]
  split
  · rfl
  · split <;> rfl

private theorem contentAt_of_extend {sigil : Sigil} {n : Nat} {ended : Cursor}
    (hended : ((c.extend back).advance (contentAt sigil (c.extend back)).length).skipWhile
      Text.isBlank = ended)
    (hclose : c.delimiters.closeLength? ended.rest = some n)
    (hn : back.length + n ≤ ended.rest.length) :
    contentAt sigil (c.extend back) = contentAt sigil c := by
  have hlength : (contentAt sigil (c.extend back)).length + n ≤ c.rest.length := by
    have hcontent := contentAt_prefix sigil (c.extend back)
    have hle := hcontent.length_le
    rw [← hended] at hn
    simp only [Cursor.skipWhile, Cursor.length_rest_advance, Cursor.rest_extend,
      List.length_append] at hn hle
    omega
  unfold contentAt at *
  cases hfree : sigil.isFreeText with
  | true =>
    simp only [hfree, if_true, Cursor.rest_extend, Cursor.delimiters_extend] at hended hlength ⊢
    rcases c.delimiters.closeLength?_untilClose (c.rest ++ back) with hend | hend
    · have hnil : ended.rest = [] := by
        rw [← hended, Cursor.rest_skipWhile]
        simp [Cursor.advance, hend]
      rw [hnil] at hclose
      cases hclose
    · obtain ⟨m, hm⟩ := Option.isSome_iff_exists.1 hend
      have hstay := Cursor.skipWhile_eq_self (c := (c.extend back).advance
        (c.delimiters.untilClose (c.rest ++ back)).length) (p := Text.isBlank)
        (Delimiters.not_isBlank_of_closeLength? hm)
      rw [← hended, hstay] at hclose
      exact Delimiters.untilClose_of_append hclose hlength
  | false =>
    simp only [hfree, Bool.false_eq_true, if_false, Cursor.rest_extend] at hlength ⊢
    exact Text.takeWhile_append_of_length_le (by omega)

private theorem contentEnd_of_extend {sigil : Sigil} {n : Nat}
    (hclose : c.delimiters.closeLength? (contentEnd sigil (c.extend back)).rest = some n)
    (hn : back.length + n ≤ (contentEnd sigil (c.extend back)).rest.length) :
    contentAt sigil ((c.extend back).skipWhile Text.isBlank) =
        contentAt sigil (c.skipWhile Text.isBlank) ∧
      contentEnd sigil (c.extend back) = (contentEnd sigil c).extend back := by
  have hbegun : (c.extend back).skipWhile Text.isBlank =
      (c.skipWhile Text.isBlank).extend back := by
    refine Cursor.skipWhile_extend ?_
    simp only [contentEnd, Cursor.skipWhile, Cursor.length_rest_advance] at hn ⊢
    omega
  have hended : (((c.skipWhile Text.isBlank).extend back).advance
      (contentAt sigil ((c.skipWhile Text.isBlank).extend back)).length).skipWhile Text.isBlank =
        contentEnd sigil (c.extend back) := by
    rw [← hbegun]
    rfl
  have hcontent := contentAt_of_extend hended hclose hn
  have hlength : (contentAt sigil (c.skipWhile Text.isBlank)).length ≤
      (c.skipWhile Text.isBlank).rest.length :=
    List.IsPrefix.length_le <| contentAt_prefix sigil (c.skipWhile Text.isBlank)
  simp only [contentEnd, hbegun, hcontent, Cursor.advance_extend hlength, true_and] at hn ⊢
  exact Cursor.skipWhile_extend (by omega)

/-- A tag that ends in the source is read the same way without the text behind the source. -/
theorem read_of_extend {tag : Tag} {close : Cursor} (back : List Char)
    (hopen : c.delimiters.opening <+: c.rest)
    (h : read (c.extend back) = .ok (tag, close.extend back)) : read c = .ok (tag, close) := by
  obtain ⟨body, hbody⟩ := hopen
  have hinside : (c.extend back).advance c.delimiters.opening.length =
      (c.advance c.delimiters.opening.length).extend back :=
    Cursor.advance_extend (by simp [← hbody])
  have hne : (c.advance c.delimiters.opening.length).rest ≠ [] := by
    rw [Cursor.rest_advance hbody.symm]
    rintro rfl
    obtain ⟨inner, hpasses, -⟩ := passes_of_read
      (show (c.extend back).rest = c.delimiters.opening ++ back by simp [← hbody]) h
    have hlength := congrArg List.length hpasses.rest_eq
    have hpos := List.length_pos_iff.2 c.delimiters.closing_ne_nil
    simp only [Cursor.rest_extend, ← hbody, List.append_nil, List.length_append,
      Cursor.delimiters_extend] at hlength
    omega
  obtain ⟨_, _, n, htaken, hn, hcontent, hclose, rfl⟩ := read_eq_ok_iff.1 h
  rw [Cursor.delimiters_extend, hinside, Cursor.takeSigil_extend hne, Prod.mk.injEq] at htaken
  obtain ⟨-, hd⟩ := (c.advance c.delimiters.opening.length).passes_takeSigil
  rcases hstart : (c.advance c.delimiters.opening.length).takeSigil with ⟨sigil, inside⟩
  rw [hstart] at htaken hd
  dsimp only at htaken hd
  obtain ⟨rfl, rfl⟩ := htaken
  rw [Cursor.delimiters_advance] at hd
  rw [Cursor.delimiters_extend, ← hd] at hn
  have hlength : back.length + n ≤ (contentEnd sigil (inside.extend back)).rest.length := by
    have hle := Delimiters.le_length_of_closeLength? hn
    have hrest := congrArg (fun c => c.rest.length) hclose
    simp only [Cursor.length_rest_advance, Cursor.rest_extend, List.length_append] at hrest
    omega
  obtain ⟨hsame, hend⟩ := contentEnd_of_extend hn hlength
  rw [hend] at hn hclose hlength
  rw [Cursor.rest_extend, List.length_append] at hlength
  rw [Cursor.advance_extend (by omega)] at hclose
  have hn' := Delimiters.closeLength?_of_append hn (by omega)
  refine read_eq_ok_iff.2 ⟨sigil, inside, n, hstart, hd ▸ hn', hsame ▸ hcontent,
    Cursor.extend_injective hclose, ?_⟩
  rw [hsame]
  rfl

end Tag

end LogicLess
