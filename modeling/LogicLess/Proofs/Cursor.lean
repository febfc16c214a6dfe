import LogicLess.Lexeme

/-!
# Moving a cursor

A cursor that moves on has passed a text: what was ahead of it is that text and what is ahead of it
now. Each move of the reader is stated here as the text that it passes.
-/

namespace LogicLess.Cursor

/-- The cursor has moved over the text `s`, from `c` to `next`. -/
structure Passes (c : Cursor) (s : List Char) (next : Cursor) : Prop where
  rest_eq : c.rest = s ++ next.rest
  seen_eq : next.seen = s.reverse ++ c.seen

namespace Passes

variable {a b c : Cursor} {s t : List Char}

theorem refl (c : Cursor) : Passes c [] c := ⟨rfl, rfl⟩

theorem trans (h : Passes a s b) (h' : Passes b t c) : Passes a (s ++ t) c :=
  ⟨by rw [h.rest_eq, h'.rest_eq, List.append_assoc], by rw [h'.seen_eq, h.seen_eq]; simp⟩

theorem source_eq (h : Passes a s b) : b.source = a.source := by
  simp [source, h.seen_eq, h.rest_eq]

theorem offset_eq (h : Passes a s b) : b.offset = a.offset + Text.byteSize s := by
  rw [b.offset_eq, a.offset_eq, h.seen_eq]
  simp [Nat.add_comm]

end Passes

theorem passes_advance {c : Cursor} {s rest : List Char} (h : c.rest = s ++ rest) :
    Passes c s (c.advance s.length) :=
  ⟨by simp [advance, h], by simp [advance, h]⟩

theorem rest_advance {c : Cursor} {s rest : List Char} (h : c.rest = s ++ rest) :
    (c.advance s.length).rest = rest := by
  simp [advance, h]

theorem advance_advance (c : Cursor) (m n : Nat) : (c.advance m).advance n = c.advance (m + n) := by
  simp [advance, List.take_add, Nat.add_assoc]

theorem passes_skipWhile (c : Cursor) (p : Char → Bool) :
    Passes c (c.rest.takeWhile p) (c.skipWhile p) :=
  passes_advance List.takeWhile_append_dropWhile.symm

@[simp] theorem rest_skipWhile (c : Cursor) (p : Char → Bool) :
    (c.skipWhile p).rest = c.rest.dropWhile p :=
  rest_advance List.takeWhile_append_dropWhile.symm

@[simp] theorem source_start (d : Delimiters) (source : List Char) :
    (start d source).source = source := rfl

theorem byteSize_source (c : Cursor) :
    Text.byteSize c.source = c.offset + Text.byteSize c.rest := by
  rw [source, Text.byteSize_append, Text.byteSize_reverse, c.offset_eq]

theorem offset_le_of_source_eq {c : Cursor} {source : List Char} (h : c.source = source) :
    c.offset ≤ Text.byteSize source := by
  rw [← h, c.byteSize_source]
  exact Nat.le_add_right ..

end LogicLess.Cursor
