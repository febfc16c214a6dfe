import LogicLess.Output
import LogicLess.Proofs.Value.Text

/-!
# Laws of writing

A text may be written at once or in pieces, and a line starts only once. The indentation of a line is
decided by its first character alone, so an empty piece decides nothing.
-/

namespace LogicLess

namespace Text

theorem flatten_encodePieces (s : List Char) : (encodePieces s).flatten = encode s := by
  fun_induction encodePieces s <;> simp_all [encode]

theorem newline_not_mem_encode {s : List Char} (h : '\n' ∉ s) : '\n' ∉ encode s := by
  intro hmem
  obtain ⟨c, hc, hmem⟩ := List.mem_flatMap.1 hmem
  unfold entity? at hmem
  split at hmem
  case h_5 => exact h (List.mem_singleton.1 hmem ▸ hc)
  all_goals exact absurd hmem (by decide)

end Text

namespace Output

theorem write_append (o : Output) (s t : List Char) : o.write (s ++ t) = (o.write s).write t := by
  cases s with
  | nil => rfl
  | cons c s =>
    cases t with
    | nil => simp
    | cons d t => simp [write]

@[simp] theorem atLineStart_startLine (o : Output) : o.startLine.atLineStart = o.atLineStart := by
  unfold startLine
  split <;> rfl

@[simp] theorem text_startLine (o : Output) : o.startLine.text = o.text := by
  unfold startLine
  split <;> rfl

@[simp] theorem indent_startLine (o : Output) : o.startLine.indent = o.indent := by
  unfold startLine
  split <;> rfl

@[simp] theorem indent_write (o : Output) (s : List Char) : (o.write s).indent = o.indent := by
  cases s <;> rfl

theorem startLine_startLine (o : Output) : o.startLine.startLine = o.startLine := by
  cases h : o.atLineStart with
  | true =>
    have hs := o.atLineStart_startLine.trans h
    rw [startLine, if_pos hs]
    simp [startLine, h]
  | false => simp [startLine, h]

theorem writePieces_eq (o : Output) (pieces : List (List Char)) :
    o.writePieces pieces = o.write pieces.flatten := by
  induction pieces generalizing o with
  | nil => rfl
  | cons piece pieces ih =>
    rw [writePieces, List.foldl_cons, ← writePieces, ih, List.flatten_cons, write_append]

theorem writeText_eq (o : Output) (s : List Char) (escaped : Bool) :
    o.writeText s escaped = o.write (if escaped then Text.encode s else s) := by
  cases escaped with
  | false => rfl
  | true => simp only [writeText, if_true, writePieces_eq, Text.flatten_encodePieces]

theorem writeValue_eq (o : Output) (v : Value) (escaped : Bool) :
    o.writeValue v escaped = if v.isTruthy then o.writeText v.text escaped else o := by
  unfold writeValue
  split
  · split
    · rfl
    · cases escaped with
      | false => simp [writePieces_eq, Value.flatten_pieces, writeText]
      | true => rfl
  · rfl

@[simp] theorem indent_writeValue (o : Output) (v : Value) (escaped : Bool) :
    (o.writeValue v escaped).indent = o.indent := by
  rw [writeValue_eq]
  split
  · rw [writeText_eq, indent_write]
  · rfl

end Output

end LogicLess
