import LogicLess.Proofs.Diagnostic.Pointer
import Mathlib.Data.Nat.PSub

/-!
# What a pointer shows

A pointer shows the line that a region begins on, without the carriage returns at its end, and its carets
stand behind the part of that line before the region. The search for the line takes no offset from a smaller
one.
-/

namespace LogicLess

namespace Text

variable {s : List Char}

private theorem lines_head (h : '\n' ∉ s) (t : List Char) :
    (lines (s ++ t))[0]?.getD [] = s ++ t.takeWhile (· ≠ '\n') := by
  by_cases ht : '\n' ∈ t
  · obtain ⟨more, rest, rfl, hmore⟩ := List.eq_append_cons_of_mem ht
    have htake : (more ++ '\n' :: rest).takeWhile (· ≠ '\n') = more :=
      takeWhile_append_of_head? (fun c hc => by simpa using ne_of_mem_of_not_mem hc hmore) (by simp)
    rw [htake, ← List.append_assoc, lines_append_newline (by simp [h, hmore])]
    rfl
  · have htake : t.takeWhile (· ≠ '\n') = t :=
      List.takeWhile_eq_self_iff.2 fun c hc => by simpa using ne_of_mem_of_not_mem hc ht
    rw [htake]
    by_cases hempty : s ++ t = []
    · rw [hempty]
      rfl
    · rw [lines_of_not_mem hempty (by simp [h, ht])]
      rfl

private theorem getD_lines_from (before after : List Char) (h : '\n' ∉ s) :
    (lines (s ++ (before ++ after)))[before.count '\n']?.getD [] =
      lastLine (s ++ before) ++ after.takeWhile (· ≠ '\n') := by
  induction before generalizing s with
  | nil =>
    rw [List.nil_append, List.append_nil, lastLine_of_not_mem h, List.count_nil, lines_head h]
  | cons c before ih =>
    by_cases hc : c = '\n'
    · have hline := ih (s := []) (by simp)
      rw [hc, List.cons_append, lines_append_newline h, lastLine_append_newline, List.count_cons_self,
        List.getElem?_cons_succ]
      exact hline
    · have hline := ih (s := s ++ [c]) (by simp [h, Ne.symm hc])
      rw [List.count_cons_of_ne hc]
      simpa using hline

theorem getD_lines (before after : List Char) :
    (lines (before ++ after))[before.count '\n']?.getD [] =
      lastLine before ++ after.takeWhile (· ≠ '\n') :=
  getD_lines_from before after List.not_mem_nil

theorem trimTrailing_prefix (p : Char → Bool) (s : List Char) : trimTrailing p s <+: s :=
  ⟨_, splitTrailing_append p s⟩

theorem prefix_of_byteSize_le {t u : List Char} (hs : s <+: u) (ht : t <+: u)
    (h : byteSize s ≤ byteSize t) : s <+: t := by
  rcases List.prefix_or_prefix_of_prefix hs ht with hst | ⟨rest, rfl⟩
  · exact hst
  · have hrest : rest = [] := by
      by_contra hne
      have hpos := byteSize_pos hne
      rw [byteSize_append] at h
      omega
    simp [hrest]

end Text

namespace Pointer

/-- The search for the line of an offset, with the number of the line next in turn and the number of bytes
before it. Past all lines the answer is `last`. An offset taken from a smaller one gives nothing. -/
def search? (last : Nat × Nat) (offset : Nat) : List (List Char) → Nat → Nat → Option (Nat × Nat)
  | [], _, _ => some last
  | line :: rest, n, passed =>
    let size := Text.byteSize line + 1
    if offset < passed + size then (Nat.psub offset passed).map fun column => (n, column)
    else search? last offset rest (n + 1) (passed + size)

/-- The search from the first line on, for which the place past all lines is the end of the last one. -/
def locate? (lines : List (List Char)) (offset : Nat) : Option (Nat × Nat) :=
  search? (lines.length - 1, (lines.getLast?.map Text.byteSize).getD 0) offset lines 0 0

private theorem search?_eq {offset : Nat} (lines : List (List Char)) (hne : lines ≠ []) (n passed : Nat)
    (h : passed ≤ offset) :
    search? (n + (lines.length - 1), (lines.getLast?.map Text.byteSize).getD 0) offset lines n passed =
      some (n + (locate lines (offset - passed)).1, (locate lines (offset - passed)).2) := by
  induction lines generalizing n passed with
  | nil => exact absurd rfl hne
  | cons line rest ih =>
    rw [search?]
    by_cases hlt : offset < passed + (Text.byteSize line + 1)
    · have hsub : Nat.psub offset passed = some (offset - passed) :=
        Nat.psub_eq_some.2 (Nat.sub_add_cancel h)
      rw [if_pos hlt, hsub, locate_of_le (by omega)]
      rfl
    · rw [if_neg hlt]
      cases rest with
      | nil =>
        rw [search?, locate, Nat.min_eq_right (by omega)]
        rfl
      | cons next rest =>
        have hrest := ih (by simp) (n + 1) (passed + (Text.byteSize line + 1)) (by omega)
        have hcount : n + ((line :: next :: rest).length - 1) =
            n + 1 + ((next :: rest).length - 1) := by
          simp only [List.length_cons]
          omega
        rw [locate, if_neg (by omega), Nat.sub_sub, hcount, List.getLast?_cons_cons, hrest]
        simp only [Nat.add_assoc, Nat.add_comm 1]

/-- The search never takes an offset from a smaller one, and finds the place. -/
theorem locate?_eq (lines : List (List Char)) (offset : Nat) :
    locate? lines offset = some (locate lines offset) := by
  cases lines with
  | nil => rfl
  | cons line rest => simpa [locate?] using search?_eq (line :: rest) (by simp) 0 0 (Nat.zero_le offset)

section

variable (width : List Char → Nat) {before after : List Char} {region : Region}

def shownLine (before after : List Char) : List Char :=
  Text.trimTrailing (· == '\r') (Text.lastLine before ++ after.takeWhile (· ≠ '\n'))

theorem text_measure (h : after = [] → before.getLast? ≠ some '\n')
    (hstart : region.start = Text.byteSize before) :
    (measure width (before ++ after) region).text = shownLine before after := by
  simp only [measure, hstart, locate_lines h, Text.getD_lines, shownLine]

theorem column_measure_of_le (h : after = [] → before.getLast? ≠ some '\n')
    (hstart : region.start = Text.byteSize before)
    (hle : Text.byteSize (Text.lastLine before) ≤ Text.byteSize (shownLine before after)) :
    Text.lastLine before <+: shownLine before after ∧
      (measure width (before ++ after) region).column = width (Text.lastLine before) := by
  have hprefix : Text.lastLine before <+: shownLine before after :=
    Text.prefix_of_byteSize_le (List.prefix_append _ _) (Text.trimTrailing_prefix _ _) hle
  obtain ⟨rest, hrest⟩ := hprefix
  have hsplit := Text.splitAtByte?_append (Text.lastLine before) rest
  rw [hrest, shownLine] at hsplit
  refine ⟨⟨rest, hrest⟩, ?_⟩
  simp only [measure, hstart, locate_lines h, Text.getD_lines, hsplit]

theorem column_measure_of_lt (h : after = [] → before.getLast? ≠ some '\n')
    (hstart : region.start = Text.byteSize before)
    (hlt : Text.byteSize (shownLine before after) < Text.byteSize (Text.lastLine before)) :
    (measure width (before ++ after) region).column = width (shownLine before after) := by
  have hsplit : Text.splitAtByte? (Text.byteSize (Text.lastLine before)) (shownLine before after) =
      none := by
    rw [Option.eq_none_iff_forall_not_mem]
    rintro ⟨front, rest⟩ hmem
    obtain ⟨heq, hsize⟩ := Text.of_splitAtByte? hmem
    rw [heq, Text.byteSize_append] at hlt
    omega
  rw [shownLine] at hsplit
  simp only [measure, hstart, locate_lines h, Text.getD_lines, hsplit, shownLine]

end

/-- The underline stands below the line, at the same distance from the left. -/
theorem exists_gutter (p : Pointer) (name help : Option String) :
    let number := toString (p.line + 1)
    ∃ gutter : String, gutter.length = 1 + number.length ∧ (∀ c ∈ gutter.toList, c = ' ') ∧
      (p.rows name help)[2]? = some (" " ++ number ++ " | " ++ String.ofList p.text) ∧
      (p.rows name help)[3]? = some (gutter ++ " | " ++ String.ofList p.underline) := by
  intro number
  refine ⟨" " ++ String.ofList (List.replicate number.length ' '), ?_, fun c hc => ?_, rfl, rfl⟩
  · simp only [String.length_append, String.length_ofList, List.length_replicate]
    rfl
  · simp only [String.toList_append, String.toList_ofList, List.mem_append, List.mem_replicate] at hc
    rcases hc with hc | ⟨-, hc⟩
    · simpa using hc
    · exact hc

/-- A pointer to a region that begins inside a source, or at its end if no line feed stands there, shows the
line on which the region begins, without the carriage returns at the end. The line is counted by the line
feeds before the region. The column is the width of the part of the line before the region, or of the whole
line as shown if the region begins behind that. Below it, under a gutter of blanks as wide as the number of
the line, stand blanks up to the column and then as many carets as the first line of the region is wide, but
at least one. To find the place, no offset of any source is taken from a smaller one. -/
theorem measure_shows (width : List Char → Nat) (source : List Char) (region : Region) :
    locate? (Text.lines source) region.start = some (locate (Text.lines source) region.start) ∧
    ∀ before after, source = before ++ after → region.start = Text.byteSize before →
      (after = [] → before.getLast? ≠ some '\n') →
      let p := measure width source region
      let front := Text.lastLine before
      let shown := shownLine before after
      let number := toString (p.line + 1)
      p.line = before.count '\n' ∧ p.text = shown ∧
        (Text.byteSize front ≤ Text.byteSize shown → front <+: shown ∧ p.column = width front) ∧
        (Text.byteSize shown < Text.byteSize front → p.column = width shown) ∧
        ∀ name help, ∃ gutter : String, gutter.length = 1 + number.length ∧
          (∀ c ∈ gutter.toList, c = ' ') ∧
          (p.rows name help)[2]? = some (" " ++ number ++ " | " ++ String.ofList shown) ∧
          (p.rows name help)[3]? = some (gutter ++ " | " ++ String.ofList (List.replicate p.column ' ' ++
            List.replicate (max 1 (width (Text.firstLine (region.literal source)))) '^')) := by
  refine ⟨locate?_eq _ _, ?_⟩
  rintro before after rfl hstart hend
  intro p front shown number
  have htext : p.text = shown := text_measure width hend hstart
  refine ⟨line_measure width hend hstart, htext, column_measure_of_le width hend hstart,
    column_measure_of_lt width hend hstart, fun name help => ?_⟩
  rw [← htext]
  exact exists_gutter p name help

/-- A region on the second of two carriage returns at the end of a line with a wider character. -/
theorem measure_shows_return :
    let source := ['a', '\n', 'b', 'é', '\r', '\r', '\n', 'z']
    let p := measure List.length source ⟨6, 7⟩
    locate? (Text.lines source) 6 = some (1, 4) ∧ p.line = 1 ∧ p.text = ['b', 'é'] ∧ p.column = 2 ∧
      ∀ name help, ∃ gutter : String, gutter.length = 2 ∧ (∀ c ∈ gutter.toList, c = ' ') ∧
        (p.rows name help)[3]? = some (gutter ++ " | " ++ "  ^") := by
  intro source p
  obtain ⟨hsearch, hshows⟩ := measure_shows List.length source ⟨6, 7⟩
  obtain ⟨hline, htext, -, hcolumn, hrows⟩ := hshows ['a', '\n', 'b', 'é', '\r'] ['\r', '\n', 'z']
    (by decide) (by decide) (by decide)
  have hnumber : p.line = 1 := hline.trans (by decide)
  have hwidth : p.column = 2 := (hcolumn (by decide)).trans (by decide)
  have hcaret : max 1 (Text.firstLine (Region.literal ⟨6, 7⟩ source)).length = 1 := by decide
  refine ⟨hsearch.trans (by decide), hnumber, htext.trans (by decide), hwidth, fun name help => ?_⟩
  obtain ⟨gutter, hlength, hblank, -, hcarets⟩ := hrows name help
  rw [hnumber] at hlength
  rw [hwidth, hcaret] at hcarets
  exact ⟨gutter, hlength.trans (by decide +kernel), hblank, hcarets⟩

end Pointer

end LogicLess
