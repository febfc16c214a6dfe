import LogicLess.Proofs.Text.Split

/-!
# Indenting the lines of a text

An indentation is put before every line of a text that holds something and does not begin with a
carriage return. A text that grows by parts of lines is indented while it grows.
-/

namespace LogicLess.Text

/-- A line behind the indentation `lead`. Empty lines and lines that begin with a carriage return stay
as they are. -/
def indentLine (lead : List Char) : List Char → List Char
  | [] => []
  | c :: line => if c = '\r' then c :: line else lead ++ c :: line

def indentLines (lead s : List Char) : List Char :=
  ['\n'].intercalate ((splitOn (· == '\n') s).map (indentLine lead))

/-- The text after some other text, with `lead` before each character that begins a line. -/
private def indentFrom (lead : List Char) : Bool → List Char → List Char
  | _, [] => []
  | start, c :: rest =>
    (if start && !isLineBreak c then lead else []) ++ c :: indentFrom lead (c == '\n') rest

private theorem indentFrom_eq (lead s : List Char) : ∃ first more,
    splitOn (· == '\n') s = first :: more ∧
      indentFrom lead true s = ['\n'].intercalate ((first :: more).map (indentLine lead)) ∧
      indentFrom lead false s = ['\n'].intercalate (first :: more.map (indentLine lead)) := by
  induction s with
  | nil => exact ⟨[], [], rfl, by simp [indentFrom, indentLine], by simp [indentFrom]⟩
  | cons c rest ih =>
    obtain ⟨first, more, hsplit, htrue, hfalse⟩ := ih
    by_cases hc : c = '\n'
    · subst hc
      refine ⟨[], first :: more, by simp [splitOn, hsplit], ?_, ?_⟩
      · rw [List.map_cons, List.map_cons, List.intercalate_cons_cons, ← List.map_cons, ← htrue]
        rfl
      · rw [List.map_cons, List.intercalate_cons_cons, ← List.map_cons, ← htrue]
        rfl
    · refine ⟨c :: first, more, by simp [splitOn, hsplit, hc], ?_, ?_⟩
      · rw [indentFrom, beq_eq_false_iff_ne.2 hc, hfalse, List.map_cons, indentLine]
        by_cases hr : c = '\r'
        · simp [hr, isLineBreak]
        · cases more <;> simp [hr, hc, isLineBreak]
      · rw [indentFrom, beq_eq_false_iff_ne.2 hc, hfalse]
        simp

theorem indentLines_eq (lead s : List Char) : indentLines lead s = indentFrom lead true s := by
  obtain ⟨first, more, hsplit, htrue, -⟩ := indentFrom_eq lead s
  rw [indentLines, hsplit, htrue]

private theorem indentFrom_append (lead s t : List Char) (start : Bool) :
    indentFrom lead start (s ++ t) =
      indentFrom lead start s ++ indentFrom lead (s.getLast?.elim start (· == '\n')) t := by
  induction s generalizing start with
  | nil => rfl
  | cons c s ih =>
    rw [List.cons_append, indentFrom, ih, indentFrom, List.append_assoc, List.cons_append]
    cases s <;> rfl

private theorem indentFrom_of_not_start (lead : List Char) {s : List Char}
    (hs : '\n' ∉ s.dropLast) : indentFrom lead false s = s := by
  induction s with
  | nil => rfl
  | cons c s ih =>
    cases s with
    | nil => rfl
    | cons d s =>
      simp only [List.dropLast_cons_cons, List.mem_cons, not_or] at hs
      rw [indentFrom, beq_eq_false_iff_ne.2 (Ne.symm hs.1), ih hs.2]
      rfl

theorem indentLines_append {lead s t : List Char} {c : Char} (ht : IsLine (c :: t)) :
    indentLines lead (s ++ c :: t) =
      indentLines lead s ++
        ((if s.getLast?.elim true (· == '\n') && !isLineBreak c then lead else []) ++ c :: t) := by
  have hline : '\n' ∉ (c :: t).dropLast := by
    rcases ht with ⟨u, hu, heq⟩ | ⟨-, hc⟩
    · simpa [heq] using hu
    · exact fun h => hc ((List.dropLast_prefix _).subset h)
  have hrest : indentFrom lead (c == '\n') t = t := by
    cases t with
    | nil => rfl
    | cons d t =>
      simp only [List.dropLast_cons_cons, List.mem_cons, not_or] at hline
      rw [beq_eq_false_iff_ne.2 (Ne.symm hline.1)]
      exact indentFrom_of_not_start lead hline.2
  rw [indentLines_eq, indentLines_eq, indentFrom_append, indentFrom, hrest]

end LogicLess.Text
