import Mathlib.Data.List.TakeWhile
import LogicLess.Text.Blank
import LogicLess.Text.Split

/-!
# Where text is cut

The first occurrence of a text, the last line of a text, and the end of a line on which only blanks
are left. The last two tell whether something is alone on its line.
-/

namespace LogicLess.Text

/-- In `before` with `needle` after it, `needle` occurs at the end only. -/
def OnlyAtEnd (needle before : List Char) : Prop :=
  ∀ n, n < before.length → ¬ needle <+: (before ++ needle).drop n

instance (needle before : List Char) : Decidable (OnlyAtEnd needle before) :=
  inferInstanceAs (Decidable (∀ n, n < before.length → _))

theorem OnlyAtEnd.tail {needle before : List Char} {c : Char}
    (h : OnlyAtEnd needle (c :: before)) : OnlyAtEnd needle before := by
  intro n hn
  simpa using h (n + 1) (by simpa using hn)

theorem onlyAtEnd_of_not_mem {c : Char} {rest before : List Char} (h : c ∉ before) :
    OnlyAtEnd (c :: rest) before := by
  rintro n hn ⟨t, ht⟩
  rw [List.drop_append_of_le_length (Nat.le_of_lt hn), List.drop_eq_getElem_cons hn] at ht
  rw [(List.cons.inj ht).1] at h
  exact h (List.getElem_mem hn)

theorem OnlyAtEnd.not_infix {needle before : List Char} (h : OnlyAtEnd needle before)
    (hne : needle ≠ []) : ¬ needle <:+: before := by
  rintro ⟨s, t, rfl⟩
  have hpos := List.length_pos_iff.2 hne
  refine h s.length (by simp; omega) ⟨t ++ needle, ?_⟩
  simp [List.append_assoc]

theorem prefix_of_prefix_append_cons {needle s t : List Char} {c : Char} (hc : c ∉ needle)
    (h : needle <+: s ++ c :: t) : needle <+: s := by
  by_cases hle : needle.length ≤ s.length
  · exact List.prefix_of_prefix_length_le h (List.prefix_append s (c :: t)) hle
  · have hfront : s ++ [c] <+: s ++ c :: t := ⟨t, by simp⟩
    have hs := List.prefix_of_prefix_length_le hfront h (by simp; omega)
    exact absurd (hs.subset (by simp)) hc

theorem OnlyAtEnd.append {needle s t : List Char} {c : Char} (hs : OnlyAtEnd needle s)
    (ht : OnlyAtEnd needle t) (hc : c ∉ needle) (hend : s = [] ∨ s.getLast? = some c) :
    OnlyAtEnd needle (s ++ t) := by
  intro n hn hp
  by_cases hlt : n < s.length
  · obtain rfl | hend := hend
    · simp at hlt
    obtain ⟨u, rfl⟩ := List.getLast?_eq_some_iff.1 hend
    have hle : n ≤ u.length := by
      simp only [List.length_append, List.length_cons, List.length_nil] at hlt
      omega
    refine hs n hlt ?_
    simp only [List.append_assoc] at hp ⊢
    rw [List.drop_append_of_le_length hle] at hp ⊢
    exact (prefix_of_prefix_append_cons hc hp).trans (List.prefix_append _ _)
  · have hle := Nat.le_of_not_lt hlt
    refine ht (n - s.length) (by rw [List.length_append] at hn; omega) ?_
    rwa [List.append_assoc, List.drop_append, List.drop_eq_nil_of_le hle, List.nil_append] at hp

theorem prefix_append_left_iff {needle s t : List Char} (h : needle.length ≤ s.length) :
    needle <+: s ++ t ↔ needle <+: s := by
  refine ⟨fun hp => ?_, fun hp => hp.trans (List.prefix_append s t)⟩
  exact List.prefix_of_prefix_length_le hp (List.prefix_append s t) h

theorem cutAt?_append {needle before : List Char} (hne : needle ≠ [])
    (h : OnlyAtEnd needle before) (after : List Char) :
    cutAt? needle (before ++ needle ++ after) = some (before, after) := by
  induction before with
  | nil =>
    obtain ⟨c, rest, rfl⟩ := List.exists_cons_of_ne_nil hne
    have hp : (c :: rest).isPrefixOf (c :: (rest ++ after)) = true := by
      rw [List.isPrefixOf_iff_prefix]
      exact List.prefix_append (c :: rest) after
    simp only [List.nil_append, List.cons_append, cutAt?, hp]
    simp
  | cons c before ih =>
    have hp : ¬ needle.isPrefixOf (c :: (before ++ needle ++ after)) = true := by
      rw [List.isPrefixOf_iff_prefix]
      have hfirst := h 0 (by simp)
      rwa [List.drop_zero, ← prefix_append_left_iff (by simp; omega), List.append_assoc,
        List.cons_append, ← List.append_assoc] at hfirst
    simp only [List.append_assoc] at ih hp ⊢
    simp [cutAt?, hp, ih h.tail]

theorem cutAt?_eq_none {needle s : List Char} (hne : needle ≠ []) (h : ¬ needle <:+: s) :
    cutAt? needle s = none := by
  induction s with
  | nil =>
    cases needle with
    | nil => exact absurd rfl hne
    | cons c rest => rfl
  | cons c rest ih =>
    have hp : ¬ needle.isPrefixOf (c :: rest) = true := by
      rw [List.isPrefixOf_iff_prefix]
      exact fun hp => h hp.isInfix
    simp [cutAt?, hp, ih fun hi => h (List.infix_cons hi)]

theorem not_infix_of_cutAt? {needle s : List Char} (h : cutAt? needle s = none) :
    ¬ needle <:+: s := by
  induction s with
  | nil =>
    rw [List.infix_nil]
    rintro rfl
    simp [cutAt?] at h
  | cons c rest ih =>
    rw [cutAt?] at h
    split at h
    · cases h
    · next hp =>
      rw [List.isPrefixOf_iff_prefix] at hp
      rw [List.infix_cons_iff]
      rintro (hhere | hlater)
      · exact hp hhere
      · exact ih (Option.map_eq_none_iff.1 h) hlater

theorem takeWhile_append_of_length_le {p : Char → Bool} {s t : List Char}
    (h : ((s ++ t).takeWhile p).length ≤ s.length) : (s ++ t).takeWhile p = s.takeWhile p := by
  induction s with
  | nil => simpa using h
  | cons x s ih =>
    simp only [List.cons_append, List.takeWhile_cons] at h ⊢
    split at h
    · next hx =>
      rw [if_pos hx, if_pos hx, ih (by simpa using h)]
    · next hx => rw [if_neg hx, if_neg hx]

theorem takeWhile_append_of_head? {p : Char → Bool} {s rest : List Char}
    (hs : ∀ c ∈ s, p c = true) (hrest : ∀ c, rest.head? = some c → p c = false) :
    (s ++ rest).takeWhile p = s := by
  rw [List.takeWhile_append_of_pos hs]
  cases rest with
  | nil => exact List.append_nil s
  | cons c rest => simp [hrest c rfl]

/-- A text that is one line, with or without the line feed that ends it. -/
def IsLine (s : List Char) : Prop :=
  (∃ t, '\n' ∉ t ∧ s = t ++ ['\n']) ∨ s ≠ [] ∧ '\n' ∉ s

theorem IsLine.ne_nil {s : List Char} (h : IsLine s) : s ≠ [] := by
  rcases h with ⟨t, -, rfl⟩ | ⟨hne, -⟩
  · simp
  · exact hne

theorem IsLine.append {s t : List Char} (ht : IsLine t) (hs : '\n' ∉ s) : IsLine (s ++ t) := by
  rcases ht with ⟨u, hu, rfl⟩ | ⟨hne, ht⟩
  · exact .inl ⟨s ++ u, by simp [hs, hu], by simp⟩
  · exact .inr ⟨by simp [hne], by simp [hs, ht]⟩

theorem isLine_of_mem_splitLines {s line : List Char} (h : line ∈ splitLines s) : IsLine line := by
  induction s generalizing line with
  | nil => simp [splitLines] at h
  | cons c rest ih =>
    rw [splitLines] at h
    split at h
    · rcases List.mem_cons.1 h with rfl | h
      · exact .inl ⟨[], by simp, rfl⟩
      · exact ih h
    · next hc =>
      have hc' : '\n' ∉ [c] := by simpa using Ne.symm hc
      split at h
      · rw [List.mem_singleton.1 h]
        exact .inr ⟨by simp, hc'⟩
      · next first lines hlines =>
        rw [hlines] at ih
        rcases List.mem_cons.1 h with rfl | h
        · exact .append (ih (by simp)) hc'
        · exact ih (by simp [h])

private theorem IsLine.tail {c d : Char} {s : List Char} (h : IsLine (c :: d :: s)) :
    c ≠ '\n' ∧ IsLine (d :: s) := by
  rcases h with ⟨t, ht, heq⟩ | ⟨-, hnot⟩
  · cases t with
    | nil => simp at heq
    | cons e t =>
      simp only [List.cons_append, List.cons.injEq] at heq
      simp only [List.mem_cons, not_or] at ht
      exact ⟨heq.1 ▸ Ne.symm ht.1, .inl ⟨t, ht.2, heq.2⟩⟩
  · simp only [List.mem_cons, not_or] at hnot
    exact ⟨Ne.symm hnot.1, .inr ⟨by simp, by simp [hnot.2]⟩⟩

theorem splitLines_of_isLine {s : List Char} (h : IsLine s) : splitLines s = [s] := by
  induction s with
  | nil => exact absurd rfl h.ne_nil
  | cons c s ih =>
    cases s with
    | nil => by_cases hc : c = '\n' <;> simp [splitLines, hc]
    | cons d s =>
      obtain ⟨hc, hs⟩ := h.tail
      rw [splitLines, if_neg hc, ih hs]

theorem all_splitTrailing (p : Char → Bool) (s : List Char) :
    ∀ c ∈ (splitTrailing p s).2, p c = true := by
  intro c hc
  exact List.all_eq_true.1 List.all_takeWhile c (List.mem_reverse.1 hc)

theorem splitTrailing_of_forall {p : Char → Bool} {s : List Char} (h : ∀ c ∈ s, p c = true) :
    splitTrailing p s = ([], s) := by
  have hr : ∀ c ∈ s.reverse, p c = true := fun c hc => h c (List.mem_reverse.1 hc)
  have htake : s.reverse.takeWhile p = s.reverse := List.takeWhile_eq_self_iff.2 hr
  have hdrop : s.reverse.dropWhile p = [] := List.dropWhile_eq_nil_iff.2 hr
  rw [splitTrailing, htake, hdrop, List.reverse_reverse, List.reverse_nil]

theorem head?_reverse_splitTrailing {p : Char → Bool} {s : List Char} {c : Char}
    (h : (splitTrailing p s).1.reverse.head? = some c) : p c = false := by
  simp only [splitTrailing, List.reverse_reverse] at h
  simpa [h] using List.head?_dropWhile_not p s.reverse

def lastLine (s : List Char) : List Char := (splitTrailing (· != '\n') s).2

/-- The text up to the end of the line, with the line break, if nothing but blanks is left on it. -/
def blankLineEnd? (s : List Char) : Option (List Char) :=
  match s.dropWhile isBlank with
  | [] => some (s.takeWhile isBlank)
  | '\n' :: _ => some (s.takeWhile isBlank ++ ['\n'])
  | '\r' :: '\n' :: _ => some (s.takeWhile isBlank ++ ['\r', '\n'])
  | _ => none

/-- Whether what stands between the two texts has only blanks beside it on its lines. -/
def isAlone (before after : List Char) : Bool :=
  (lastLine before).all isBlank && (blankLineEnd? after).isSome

theorem isAlone_of_blank {s : List Char} (h : ∀ c ∈ s, isBlank c = true) : isAlone s [] = true := by
  have hmem : ∀ c ∈ lastLine s, isBlank c = true := by
    intro c hc
    refine h c ?_
    rw [← splitTrailing_append (· != '\n') s]
    exact List.mem_append_right _ hc
  simpa [isAlone, blankLineEnd?] using hmem

theorem prefix_of_blankLineEnd? {s tail : List Char} (h : blankLineEnd? s = some tail) :
    tail <+: s := by
  have hs := s.takeWhile_append_dropWhile (p := isBlank)
  simp only [blankLineEnd?] at h
  split at h
  · next hd =>
    rw [hd] at hs
    exact ⟨[], by rw [← Option.some.inj h]; exact hs⟩
  · next rest hd =>
    rw [hd] at hs
    exact ⟨rest, by rw [← Option.some.inj h]; simpa using hs⟩
  · next rest hd =>
    rw [hd] at hs
    exact ⟨rest, by rw [← Option.some.inj h]; simpa using hs⟩
  · exact absurd h (by simp)

theorem blankLineEnd?_complete {s tail : List Char} (h : blankLineEnd? s = some tail) :
    tail = s ∨ tail.getLast? = some '\n' := by
  have hs := s.takeWhile_append_dropWhile (p := isBlank)
  simp only [blankLineEnd?] at h
  split at h
  · next hd =>
    rw [hd, List.append_nil] at hs
    exact .inl (by rw [← Option.some.inj h]; exact hs)
  · exact .inr (by rw [← Option.some.inj h]; simp)
  · exact .inr (by rw [← Option.some.inj h]; simp)
  · exact absurd h (by simp)

private theorem lastLine_append {seen padding : List Char} (hp : ∀ c ∈ padding, isBlank c = true) :
    lastLine (seen.reverse ++ padding) = (seen.takeWhile (· != '\n')).reverse ++ padding := by
  have hnl : ∀ c ∈ padding.reverse, (c != '\n') = true := by
    intro c hc
    rcases isBlank_iff.1 (hp c (List.mem_reverse.1 hc)) with rfl | rfl <;> decide
  rw [lastLine, splitTrailing, List.reverse_append, List.reverse_reverse,
    List.takeWhile_append_of_pos hnl, List.reverse_append, List.reverse_reverse]

/-- With blanks after it, a text that does not end in a blank leaves only blanks on the last line just
if it ends a line itself. -/
theorem all_isBlank_lastLine {seen padding : List Char} (hp : ∀ c ∈ padding, isBlank c = true)
    (hs : ∀ c, seen.head? = some c → isBlank c = false) :
    (lastLine (seen.reverse ++ padding)).all isBlank = true ↔
      ∀ c, seen.head? = some c → c = '\n' := by
  rw [lastLine_append hp]
  cases seen with
  | nil => simpa using hp
  | cons c seen =>
    have hc := hs c rfl
    by_cases h : c = '\n'
    · simpa [h] using hp
    · simp [h, hc]

theorem lastLine_of_isAlone {seen padding after : List Char} (hp : ∀ c ∈ padding, isBlank c = true)
    (hs : ∀ c, seen.head? = some c → isBlank c = false)
    (h : isAlone (seen.reverse ++ padding) after = true) :
    lastLine (seen.reverse ++ padding) = padding := by
  have hstart := (all_isBlank_lastLine hp hs).1 (Bool.and_eq_true_iff.1 h).1
  rw [lastLine_append hp]
  cases seen with
  | nil => rfl
  | cons c seen => simp [hstart c rfl]

end LogicLess.Text
