/-!
# Byte offsets

Places in a source are counted in bytes of its UTF-8 form. Text is cut at such a place only on a
boundary between two characters.
-/

namespace LogicLess.Text

/-- The number of bytes in the UTF-8 form of a text. -/
def byteSize : List Char → Nat
  | [] => 0
  | c :: rest => c.utf8Size + byteSize rest

@[simp] theorem byteSize_append (s t : List Char) : byteSize (s ++ t) = byteSize s + byteSize t := by
  induction s with
  | nil => simp [byteSize]
  | cons c s ih => simp [byteSize, ih, Nat.add_assoc]

@[simp] theorem byteSize_reverse (s : List Char) : byteSize s.reverse = byteSize s := by
  induction s with
  | nil => rfl
  | cons c s ih => simp [byteSize, ih, Nat.add_comm]

theorem byteSize_pos {s : List Char} (h : s ≠ []) : 0 < byteSize s := by
  obtain ⟨c, rest, rfl⟩ := List.exists_cons_of_ne_nil h
  have := c.utf8Size_pos
  rw [byteSize]
  omega

/-- The text before and after the byte offset, if that is a boundary in the text. -/
def splitAtByte? : Nat → List Char → Option (List Char × List Char)
  | 0, s => some ([], s)
  | _ + 1, [] => none
  | n + 1, c :: rest =>
    if c.utf8Size ≤ n + 1 then
      (splitAtByte? (n + 1 - c.utf8Size) rest).map fun (before, after) => (c :: before, after)
    else none

theorem splitAtByte?_append (s t : List Char) : splitAtByte? (byteSize s) (s ++ t) = some (s, t) := by
  induction s with
  | nil => simp [byteSize, splitAtByte?]
  | cons c s ih =>
    have hc := c.utf8Size_pos
    obtain ⟨n, hn⟩ : ∃ n, byteSize (c :: s) = n + 1 := ⟨byteSize (c :: s) - 1, by
      simp only [byteSize]; omega⟩
    have h1 : c.utf8Size ≤ n + 1 := by simp only [byteSize] at hn; omega
    have h2 : n + 1 - c.utf8Size = byteSize s := by simp only [byteSize] at hn; omega
    rw [hn, List.cons_append, splitAtByte?]
    simp [h1, h2, ih]

theorem of_splitAtByte? {n : Nat} {s before after : List Char}
    (h : splitAtByte? n s = some (before, after)) : s = before ++ after ∧ byteSize before = n := by
  fun_induction splitAtByte? n s generalizing before with
  | case1 s => simp_all [byteSize]
  | case2 => simp at h
  | case3 n c rest hc ih =>
    simp only [Option.map_eq_some_iff, Prod.exists, Prod.mk.injEq] at h
    obtain ⟨b, a, hb, rfl, rfl⟩ := h
    obtain ⟨rfl, hn⟩ := ih hb
    simp only [byteSize, List.cons_append, true_and]
    omega
  | case4 => simp at h

end LogicLess.Text
