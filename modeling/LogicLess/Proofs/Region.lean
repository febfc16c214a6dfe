import LogicLess.Region

/-!
# Text outside regions

Removing regions from a source keeps the characters whose place lies in none of them.
-/

namespace LogicLess.Region

def covers (r : Region) (place : Nat) : Bool := r.start ≤ place && place < r.stop

/-- The characters of a text beginning at a place that lie in none of the regions. -/
def outside (regions : List Region) (place : Nat) : List Char → List Char
  | [] => []
  | c :: rest =>
    if regions.any (·.covers place) then outside regions (place + c.utf8Size) rest
    else c :: outside regions (place + c.utf8Size) rest

variable {r : Region} {regions : List Region} {place : Nat}

theorem outside_append (regions : List Region) (place : Nat) (s t : List Char) :
    outside regions place (s ++ t) =
      outside regions place s ++ outside regions (place + Text.byteSize s) t := by
  induction s generalizing place with
  | nil => rfl
  | cons c s ih =>
    simp only [List.cons_append, outside, ih, Text.byteSize, Nat.add_assoc]
    split <;> rfl

theorem outside_of_covered {s : List Char} (hr : r ∈ regions) (hstart : r.start ≤ place)
    (hstop : place + Text.byteSize s ≤ r.stop) : outside regions place s = [] := by
  induction s generalizing place with
  | nil => rfl
  | cons c s ih =>
    have hpos := c.utf8Size_pos
    simp only [Text.byteSize] at hstop
    have hc : regions.any (·.covers place) = true := by
      refine List.any_eq_true.2 ⟨r, hr, ?_⟩
      simp only [covers, Bool.and_eq_true, decide_eq_true_eq]
      omega
    rw [outside, if_pos hc]
    exact ih (by omega) (by omega)

theorem outside_of_before {s : List Char} (h : ∀ r ∈ regions, place + Text.byteSize s ≤ r.start) :
    outside regions place s = s := by
  induction s generalizing place with
  | nil => rfl
  | cons c s ih =>
    have hpos := c.utf8Size_pos
    simp only [Text.byteSize] at h
    have hc : ¬ regions.any (·.covers place) = true := by
      rw [List.any_eq_true]
      rintro ⟨r, hr, hcov⟩
      have hstart := h r hr
      simp only [covers, Bool.and_eq_true, decide_eq_true_eq] at hcov
      omega
    rw [outside, if_neg hc, ih]
    intro r hr
    have := h r hr
    omega

theorem outside_cons_of_after {s : List Char} (h : r.stop ≤ place) :
    outside (r :: regions) place s = outside regions place s := by
  induction s generalizing place with
  | nil => rfl
  | cons c s ih =>
    have hcov : r.covers place = false := by
      simp only [covers, Bool.and_eq_false_iff, decide_eq_false_iff_not]
      omega
    simp only [outside, List.any_cons, hcov, Bool.false_or]
    rw [ih (by omega)]

end LogicLess.Region
