import LogicLess.Proofs.Tag.Scan
import LogicLess.Proofs.Text.Pattern

/-!
# Patterns of tags

The places where a source is cut are the matches of a few patterns: blanks, the end of a line, a sigil, and
for each pair of delimiters the opening delimiter with the blanks before it and the closing delimiter with a
marker before it. Left out is that a matcher may refuse a pattern for its size: delimiters that are long
enough for that are read like any others.
-/

namespace LogicLess

namespace Text.Pattern

variable {t : List Char}

def blanks : Pattern := many isBlank

/-- The rest of a line on which there are only blanks. -/
def lineEnd : Pattern :=
  seq (many isBlank) (either (seq (maybe (text ['\r'])) (text ['\n'])) textEnd)

def sigil : Pattern := one fun c => (Sigil.ofChar? c).isSome

theorem here?_lineEnd : lineEnd.here? t = (blankLineEnd? t).map List.length := by
  have hbreak : ∀ c rest, c ≠ '\n' → (∀ tail, c :: rest ≠ '\r' :: '\n' :: tail) →
      (either (seq (maybe (text ['\r'])) (text ['\n'])) textEnd).lengths (c :: rest) = [] := by
    intro c rest hc hrest
    have hfeed : ('\n' == c) = false := beq_eq_false_iff_ne.2 (Ne.symm hc)
    by_cases hreturn : c = '\r'
    · cases rest with
      | nil => simp [lengths, maybe, hreturn]
      | cons d rest =>
        have hd : d ≠ '\n' := fun h => hrest rest (by rw [hreturn, h])
        simp [lengths, maybe, hreturn, Ne.symm hd]
    · simp [lengths, maybe, Ne.symm hc, Ne.symm hreturn]
  rw [lineEnd, here?_many_seq]
  · unfold blankLineEnd?
    split
    · next h => rw [h]; rfl
    · next h => simp [h, here?, lengths, maybe]
    · next h => simp [h, here?, lengths, maybe]
    · next hnil hfeed hreturn =>
      cases hrest : t.dropWhile isBlank with
      | nil => exact absurd hrest hnil
      | cons c rest =>
        rw [here?, hbreak c rest]
        · rfl
        · rintro rfl
          exact hfeed rest hrest
        · rintro tail heq
          exact hreturn tail (hrest.trans heq)
  · intro c rest hc
    apply hbreak
    · rintro rfl
      exact absurd hc (by decide)
    · rintro tail heq
      obtain ⟨rfl, -⟩ := List.cons.inj heq
      exact absurd hc (by decide)

end Text.Pattern

structure Patterns where
  /-- An opening delimiter with the blanks before it. -/
  opening : Text.Pattern
  /-- A closing delimiter with a marker before it if there is one. -/
  closing : Text.Pattern

namespace Delimiters

def patterns (d : Delimiters) : Patterns where
  opening := .seq (.many Text.isBlank) (.text d.opening)
  closing := .seq (.maybe (.one isMarker)) (.text d.closing)

variable {d : Delimiters} {t : List Char}

theorem here?_closing : d.patterns.closing.here? t = d.closeLength? t := by
  cases t with
  | nil =>
    obtain ⟨c, rest, hc⟩ := List.exists_cons_of_ne_nil d.closing_ne_nil
    simp [patterns, Text.Pattern.here?, Text.Pattern.lengths, Text.Pattern.maybe, closeLength?, hc]
  | cons c rest =>
    simp only [patterns, Text.Pattern.here?, Text.Pattern.lengths, Text.Pattern.maybe, closeLength?]
    by_cases hmarker : isMarker c = true <;> by_cases hrest : d.closing <+: rest <;>
      by_cases hhere : d.closing <+: c :: rest <;>
      simp [hmarker, hrest, hhere, Nat.add_comm]

theorem before_closing : d.patterns.closing.before t = d.untilClose t := by
  induction t with
  | nil => simp [Text.Pattern.before, untilClose]
  | cons c rest ih =>
    rw [Text.Pattern.before] at ih ⊢
    rw [Text.Pattern.find?, here?_closing, untilClose]
    cases d.closeLength? (c :: rest) with
    | some n => rfl
    | none =>
      rw [← ih]
      cases d.patterns.closing.find? rest <;> rfl

theorem not_isBlank_of_prefix_opening {c : Char} (hopening : d.opening <+: t)
    (hc : t.head? = some c) : Text.isBlank c = false := by
  obtain ⟨x, opening, hx⟩ := List.exists_cons_of_ne_nil d.opening_ne_nil
  obtain ⟨rest, rfl⟩ := hopening
  rw [hx] at hc
  exact Option.some.inj hc ▸
    (not_isBlank_of_mem d.opening_ok (hx ▸ List.mem_cons_self)).1

/-- Blanks and then the opening delimiter: an opening delimiter begins with no blank, so all blanks are
taken. -/
theorem here?_opening : d.patterns.opening.here? t =
    if d.opening.isPrefixOf (t.dropWhile Text.isBlank) then
      some ((t.takeWhile Text.isBlank).length + d.opening.length)
    else none := by
  rw [patterns, Text.Pattern.here?_many_seq, Text.Pattern.here?_text]
  · split <;> rfl
  · intro c rest hc
    have hnot : ¬ d.opening.isPrefixOf (c :: rest) = true := by
      rw [List.isPrefixOf_iff_prefix]
      intro hopening
      rw [not_isBlank_of_prefix_opening hopening rfl] at hc
      cases hc
    simp [Text.Pattern.lengths, hnot]

theorem here?_opening_of_blank {padding after : List Char}
    (hblank : ∀ c ∈ padding, Text.isBlank c = true) :
    d.patterns.opening.here? (padding ++ (d.opening ++ after)) =
      some (padding.length + d.opening.length) := by
  have hfront : (padding ++ (d.opening ++ after)).takeWhile Text.isBlank = padding :=
    Text.takeWhile_append_of_head? hblank fun c =>
      not_isBlank_of_prefix_opening (List.prefix_append _ _)
  have hrest : (padding ++ (d.opening ++ after)).dropWhile Text.isBlank = d.opening ++ after := by
    have h := List.takeWhile_append_dropWhile (p := Text.isBlank)
      (l := padding ++ (d.opening ++ after))
    rw [hfront] at h
    exact List.append_cancel_left h
  rw [here?_opening, hfront, hrest, if_pos (by simp)]

private theorem here?_opening_drop {before text padding after : List Char} {n : Nat}
    (hbefore : Text.splitTrailing Text.isBlank before = (text, padding))
    (honly : Text.OnlyAtEnd d.opening before) (hn : n < text.length) :
    d.patterns.opening.here? ((text ++ (padding ++ (d.opening ++ after))).drop n) = none := by
  have hparts : text ++ padding = before := by
    rw [← Text.splitTrailing_append Text.isBlank before, hbefore]
  have hlast : ∀ c, (text.drop n).getLast? = some c → Text.isBlank c = false := by
    intro c hc
    rw [List.getLast?_drop, if_neg (Nat.not_le.2 hn), ← List.head?_reverse] at hc
    exact Text.head?_reverse_splitTrailing (s := before) (by rw [hbefore]; exact hc)
  -- Not all of what is left of the text is blank, so the blanks end inside of it.
  have hne : (text.drop n).dropWhile Text.isBlank ≠ [] := by
    intro hnil
    have hdrop : text.drop n ≠ [] := by
      rw [← List.length_pos_iff, List.length_drop]
      omega
    have hblank := List.dropWhile_eq_nil_iff.1 hnil _ (List.getLast_mem hdrop)
    rw [hlast _ (List.getLast?_eq_some_getLast hdrop)] at hblank
    cases hblank
  obtain ⟨m, hm, hrest⟩ : ∃ m, m < text.length ∧
      (text.drop n).dropWhile Text.isBlank = text.drop m := by
    have hdrop : (text.drop n).dropWhile Text.isBlank =
        text.drop (n + ((text.drop n).takeWhile Text.isBlank).length) := by
      rw [← List.drop_drop]
      exact ((congrArg (List.drop _) List.takeWhile_append_dropWhile.symm).trans
        List.drop_left).symm
    refine ⟨_, ?_, hdrop⟩
    rw [hdrop, ← List.length_pos_iff, List.length_drop] at hne
    omega
  have hplace : ((text ++ (padding ++ (d.opening ++ after))).drop n).dropWhile Text.isBlank =
      (before ++ d.opening).drop m ++ after := by
    have hle : m ≤ (before ++ d.opening).length := by simp [← hparts]; omega
    rw [List.drop_append_of_le_length (Nat.le_of_lt hn), List.dropWhile_append,
      if_neg (by simpa using hne), hrest, ← List.drop_append_of_le_length hle, ← hparts]
    simp [List.drop_append_of_le_length (Nat.le_of_lt hm)]
  have hnot : ¬ d.opening <+: (before ++ d.opening).drop m ++ after := by
    have hlt : m < before.length := by simp [← hparts]; omega
    rw [Text.prefix_append_left_iff (by simp; omega)]
    exact honly m hlt
  rw [here?_opening, hplace, if_neg (by rwa [List.isPrefixOf_iff_prefix])]

theorem find?_opening : d.patterns.opening.find? t =
    (Text.cutAt? d.opening t).map fun (before, _) =>
      let (text, padding) := Text.splitTrailing Text.isBlank before
      (text.length, padding.length + d.opening.length) := by
  cases hcut : Text.cutAt? d.opening t with
  | none =>
    have hnot := Text.not_infix_of_cutAt? hcut
    have hnone : ∀ n, d.patterns.opening.here? (t.drop n) = none := by
      intro n
      rw [here?_opening, if_neg]
      intro hprefix
      exact hnot ((List.isPrefixOf_iff_prefix.1 hprefix).isInfix.trans
        ((List.dropWhile_suffix _).isInfix.trans (List.drop_suffix n t).isInfix))
    have hend := hnone t.length
    have h := Text.Pattern.find?_append (s := t) (t := []) fun n _ => by
      rw [List.append_nil]
      exact hnone n
    rw [List.drop_length] at hend
    rw [List.append_nil, Text.Pattern.find?, hend] at h
    exact h
  | some parts =>
    obtain ⟨before, after⟩ := parts
    have hsource := Text.append_of_cutAt? hcut
    have honly := Text.onlyAtEnd_of_cutAt? hcut
    have hbefore := Text.splitTrailing_append Text.isBlank before
    have hblank := Text.all_splitTrailing Text.isBlank before
    rcases hparts : Text.splitTrailing Text.isBlank before with ⟨text, padding⟩
    rw [hparts] at hbefore hblank
    have ht : t = text ++ (padding ++ (d.opening ++ after)) := by
      rw [hsource, ← hbefore]
      simp
    rw [ht, Text.Pattern.find?_append fun n hn => here?_opening_drop hparts honly hn,
      Text.Pattern.find?_of_here? (here?_opening_of_blank hblank)]
    simp [hparts]

end Delimiters

end LogicLess
