import LogicLess.Diagnostic.Pointer
import LogicLess.Proofs.Text.Split

/-!
# Where a pointer points

The line of a byte offset is told by the line feeds before it, and the place on that line by the text since
the last of them.
-/

namespace LogicLess

namespace Text

variable {s : List Char}

theorem splitLines_append_newline (h : '\n' ∉ s) (rest : List Char) :
    splitLines (s ++ '\n' :: rest) = (s ++ ['\n']) :: splitLines rest := by
  induction s with
  | nil => simp [splitLines]
  | cons c s ih =>
    rw [List.mem_cons, not_or] at h
    rw [List.cons_append, splitLines, if_neg (Ne.symm h.1), ih h.2]
    rfl

theorem lines_append_newline (h : '\n' ∉ s) (rest : List Char) :
    lines (s ++ '\n' :: rest) = s :: lines rest := by
  have hs : (s ++ ['\n']).filter (· ≠ '\n') = s := by
    rw [List.filter_append, List.filter_eq_self.2 fun c hc => by simpa using ne_of_mem_of_not_mem hc h]
    exact List.append_nil s
  rw [lines, splitLines_append_newline h, List.map_cons, hs, lines]

theorem lines_of_not_mem (hne : s ≠ []) (h : '\n' ∉ s) : lines s = [s] := by
  rw [lines, splitLines_of_isLine (.inr ⟨hne, h⟩), List.map_singleton,
    List.filter_eq_self.2 fun c hc => by simpa using ne_of_mem_of_not_mem hc h]

theorem exists_lines_append (h : '\n' ∉ s) {t : List Char} (hne : t ≠ []) :
    ∃ more rest, lines (s ++ t) = (s ++ more) :: rest := by
  by_cases ht : '\n' ∈ t
  · obtain ⟨more, rest, rfl, hmore⟩ := List.eq_append_cons_of_mem ht
    refine ⟨more, lines rest, ?_⟩
    rw [← List.append_assoc, lines_append_newline (by simp [h, hmore])]
  · exact ⟨t, [], lines_of_not_mem (by simp [hne]) (by simp [h, ht])⟩

theorem lastLine_of_not_mem (h : '\n' ∉ s) : lastLine s = s := by
  refine congrArg Prod.snd (splitTrailing_of_forall fun c hc => ?_)
  simpa using ne_of_mem_of_not_mem hc h

theorem lastLine_append_newline (s rest : List Char) :
    lastLine (s ++ '\n' :: rest) = lastLine rest := by
  have hrun : (rest.reverse ++ '\n' :: s.reverse).takeWhile (· != '\n') =
      rest.reverse.takeWhile (· != '\n') := by
    rw [List.takeWhile_append]
    split
    · next hlength =>
      have hall := (List.takeWhile_prefix (· != '\n') (l := rest.reverse)).eq_of_length hlength
      simp [hall]
    · rfl
  simp only [lastLine, splitTrailing, List.reverse_append, List.reverse_cons, List.append_assoc,
    List.singleton_append, hrun]

end Text

namespace Pointer

theorem locate_of_le {line : List Char} {offset : Nat} (h : offset ≤ Text.byteSize line)
    (rest : List (List Char)) : locate (line :: rest) offset = (0, offset) := by
  cases rest with
  | nil => rw [locate, Nat.min_eq_left h]
  | cons next rest => rw [locate, if_pos (Nat.lt_succ_of_le h)]

private theorem locate_lines_from {before after : List Char} (line : List Char) (hline : '\n' ∉ line)
    (h : after = [] → before.getLast? ≠ some '\n') :
    locate (Text.lines (line ++ (before ++ after))) (Text.byteSize line + Text.byteSize before) =
      (before.count '\n', Text.byteSize (Text.lastLine (line ++ before))) := by
  -- What has been read of the current line is kept in `line`.
  induction before generalizing line with
  | nil =>
    rw [List.nil_append, List.append_nil, Text.lastLine_of_not_mem hline, List.count_nil]
    by_cases hafter : after = []
    · rw [hafter, List.append_nil]
      by_cases hempty : line = []
      · rw [hempty]
        rfl
      · rw [Text.lines_of_not_mem hempty hline]
        exact locate_of_le (Nat.le_refl _) []
    · obtain ⟨more, rest, hlines⟩ := Text.exists_lines_append hline hafter
      rw [hlines]
      exact locate_of_le (by simp [Text.byteSize]) rest
  | cons c before ih =>
    have hbefore : after = [] → before.getLast? ≠ some '\n' := by
      intro hafter hlast
      exact h hafter (by simp [List.getLast?_cons, hlast])
    by_cases hc : c = '\n'
    · have hne : before ++ after ≠ [] := by
        intro hnil
        obtain ⟨rfl, hafter⟩ := List.append_eq_nil_iff.1 hnil
        exact h hafter (by rw [hc]; rfl)
      obtain ⟨more, rest, hlines⟩ := Text.exists_lines_append (s := []) (by simp) hne
      have hplace := ih [] (by simp) hbefore
      rw [List.nil_append] at hlines hplace
      rw [hlines, Text.byteSize, Nat.zero_add] at hplace
      have hsize : Text.byteSize line + Text.byteSize (c :: before) =
          Text.byteSize line + 1 + Text.byteSize before := by
        rw [hc, Text.byteSize, Nat.add_assoc]
        rfl
      rw [hsize, hc, List.cons_append, Text.lines_append_newline hline, hlines, locate,
        if_neg (by omega), Nat.add_sub_cancel_left, hplace, Text.lastLine_append_newline,
        List.count_cons_self]
      rfl
    · have hplace := ih (line ++ [c]) (by simp [hline, Ne.symm hc]) hbefore
      rw [List.append_assoc, List.append_assoc, Text.byteSize_append, Nat.add_assoc] at hplace
      rw [List.count_cons_of_ne hc]
      simpa [Text.byteSize] using hplace

/-- A place in a source is on the line after as many line feeds as stand before it, behind the text since
the last of them. -/
theorem locate_lines {before after : List Char} (h : after = [] → before.getLast? ≠ some '\n') :
    locate (Text.lines (before ++ after)) (Text.byteSize before) =
      (before.count '\n', Text.byteSize (Text.lastLine before)) := by
  have hlines := locate_lines_from [] (by simp) h
  simpa [Text.byteSize] using hlines

theorem line_measure (width : List Char → Nat) {before after : List Char} {region : Region}
    (h : after = [] → before.getLast? ≠ some '\n') (hstart : region.start = Text.byteSize before) :
    (measure width (before ++ after) region).line = before.count '\n' := by
  rw [measure, hstart, locate_lines h]

end Pointer

end LogicLess
