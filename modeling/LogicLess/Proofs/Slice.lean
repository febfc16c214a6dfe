import LogicLess.Region

/-!
# The text of a region

A region has a text in a source just if its offsets are in order and are boundaries between characters of
the source. The texts of regions that meet join up.
-/

namespace LogicLess

namespace Text

def IsBoundary (source : List Char) (place : Nat) : Prop :=
  ∃ before after, source = before ++ after ∧ byteSize before = place

/-- A text is cut in one way only at a byte offset. -/
theorem append_inj_of_byteSize {s s' t t' : List Char} (h : s ++ s' = t ++ t')
    (hsize : byteSize s = byteSize t) : s = t ∧ s' = t' := by
  have hs := splitAtByte?_append s s'
  rw [h, hsize, splitAtByte?_append] at hs
  exact Prod.mk.inj (Option.some.inj hs.symm)

theorem exists_append_of_byteSize_le {s s' t t' : List Char} (h : s ++ s' = t ++ t')
    (hsize : byteSize s ≤ byteSize t) : ∃ middle, t = s ++ middle := by
  rcases List.append_eq_append_iff.1 h with ⟨middle, ht, -⟩ | ⟨middle, hs, -⟩
  · exact ⟨middle, ht⟩
  · by_cases hmiddle : middle = []
    · exact ⟨[], by simp [hs, hmiddle]⟩
    · have hpos := byteSize_pos hmiddle
      rw [hs, byteSize_append] at hsize
      omega

end Text

namespace Region

variable {r : Region} {source s t : List Char} {a b c : Nat}

theorem slice?_eq_some_iff : r.slice? source = some s ↔ ∃ before after,
    source = before ++ (s ++ after) ∧
      r = ⟨Text.byteSize before, Text.byteSize before + Text.byteSize s⟩ := by
  constructor
  · intro h
    simp only [slice?, Option.bind_eq_bind, Option.bind_eq_some_iff, Prod.exists] at h
    obtain ⟨before, rest, hstart, h⟩ := h
    split at h
    · next hle =>
      obtain ⟨⟨text, after⟩, hstop, htext⟩ := Option.bind_eq_some_iff.1 h
      cases htext
      obtain ⟨rfl, hbefore⟩ := Text.of_splitAtByte? hstart
      obtain ⟨rfl, htext⟩ := Text.of_splitAtByte? hstop
      refine ⟨before, after, rfl, ?_⟩
      rw [hbefore, htext, Nat.add_sub_of_le hle]
    · cases h
  · rintro ⟨before, after, rfl, rfl⟩
    exact slice?_append before s after

theorem exists_slice? (ha : Text.IsBoundary source a) (hb : Text.IsBoundary source b) (h : a ≤ b) :
    ∃ text, slice? ⟨a, b⟩ source = some text := by
  obtain ⟨before, after, hsource, rfl⟩ := ha
  obtain ⟨before', after', hsource', rfl⟩ := hb
  obtain ⟨middle, rfl⟩ := Text.exists_append_of_byteSize_le (hsource.symm.trans hsource') h
  rw [hsource', List.append_assoc, Text.byteSize_append]
  exact ⟨middle, slice?_append before middle after'⟩

theorem isBoundary_of_slice? (h : r.slice? source = some s) :
    Text.IsBoundary source r.start ∧ Text.IsBoundary source r.stop := by
  obtain ⟨before, after, hsource, rfl⟩ := slice?_eq_some_iff.1 h
  exact ⟨⟨before, s ++ after, hsource, rfl⟩,
    ⟨before ++ s, after, by rw [hsource, List.append_assoc], Text.byteSize_append before s⟩⟩

theorem start_lt_stop_of_slice? (h : r.slice? source = some s) (hs : s ≠ []) : r.start < r.stop := by
  obtain ⟨before, after, -, rfl⟩ := slice?_eq_some_iff.1 h
  exact Nat.lt_add_of_pos_right (Text.byteSize_pos hs)

theorem slice?_trans (hs : slice? ⟨a, b⟩ source = some s) (ht : slice? ⟨b, c⟩ source = some t) :
    slice? ⟨a, c⟩ source = some (s ++ t) := by
  obtain ⟨before, after, hsource, hab⟩ := slice?_eq_some_iff.1 hs
  obtain ⟨before', after', hsource', hbc⟩ := slice?_eq_some_iff.1 ht
  rw [Region.mk.injEq] at hab hbc
  obtain ⟨rfl, hb⟩ := hab
  obtain ⟨hb', rfl⟩ := hbc
  have hmeet : (before ++ s) ++ after = before' ++ (t ++ after') := by
    rw [List.append_assoc, ← hsource, hsource']
  obtain ⟨rfl, rfl⟩ := Text.append_inj_of_byteSize hmeet
    (by rw [Text.byteSize_append, ← hb, hb'])
  refine slice?_eq_some_iff.2 ⟨before, after', by rw [hsource, List.append_assoc], ?_⟩
  rw [Text.byteSize_append, Text.byteSize_append, Nat.add_assoc]

end Region

end LogicLess
