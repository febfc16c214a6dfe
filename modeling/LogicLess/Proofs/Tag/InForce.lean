import LogicLess.Proofs.Slice
import LogicLess.Proofs.Tag.Scan

/-!
# The delimiters in force

The delimiters in force at a place of a source are told by the delimiter tags before it. Every tag that a
scan reads, and the one that it cannot read, begins with the opening delimiter in force there.
-/

namespace LogicLess

theorem Cursor.Passes.slice?_eq {c place : Cursor} {before s : List Char}
    (h : Passes c (before ++ s) place) :
    Region.slice? ⟨c.offset + Text.byteSize before, place.offset⟩ c.source = some s := by
  refine Region.slice?_eq_some_iff.2 ⟨c.seen.reverse ++ before, place.rest, ?_, ?_⟩
  · rw [source, h.rest_eq, List.append_assoc, List.append_assoc]
  · rw [h.offset_eq, c.offset_eq]
    simp [Nat.add_assoc]

namespace Delimiters

def afterTag (d : Delimiters) (tag : Tag) : Delimiters :=
  if tag.sigil = .equals then (ofContent tag.content).toOption.getD d else d

def after (d : Delimiters) (tags : List Tag) : Delimiters := tags.foldl afterTag d

end Delimiters

theorem Cursor.delimiters_of_afterTag {c next : Cursor} {tag : Tag} (h : c.afterTag tag = .ok next) :
    next.delimiters = c.delimiters.afterTag tag := by
  unfold Cursor.afterTag at h
  unfold Delimiters.afterTag
  split at h
  · next hsigil =>
    rw [if_pos hsigil]
    split at h
    · next d hd =>
      rw [← Except.ok.inj h, hd]
      rfl
    · cases h
  · next hsigil =>
    rw [if_neg hsigil, ← Except.ok.inj h]

theorem Cursor.region_of_afterTag_error {c : Cursor} {tag : Tag} {fault : Fault}
    (h : c.afterTag tag = .error fault) : fault.region = tag.region := by
  unfold Cursor.afterTag at h
  split at h
  · split at h
    · cases h
    · rw [← Except.error.inj h]
      rfl
  · cases h

namespace Tag

variable [Alphabet] {c place next : Cursor} {before : List Char} {tag : Tag} {fault : Fault}
  {ending : Ending}

/-- The delimiters in force at a place: those that the tags before the place leave. -/
def delimitersAt (d : Delimiters) (source : List Char) (place : Nat) : Delimiters :=
  d.after (((scan (.start d source)).1.filter fun p => p.2.region.stop ≤ place).map Prod.snd)

theorem exists_passes_of_read_error {rest : List Char}
    (hopen : c.rest = c.delimiters.opening ++ rest) (h : read c = .error fault) :
    ∃ inner place, Cursor.Passes c (c.delimiters.opening ++ inner) place ∧
      fault.region = ⟨c.offset, place.offset⟩ := by
  obtain ⟨hsigil, -⟩ := (c.advance c.delimiters.opening.length).passes_takeSigil
  rcases htaken : (c.advance c.delimiters.opening.length).takeSigil with ⟨sigil, inside⟩
  rw [htaken] at hsigil
  obtain ⟨tail, htail⟩ := contentAt_prefix sigil (inside.skipWhile Text.isBlank)
  have hpasses := (Cursor.passes_advance hopen).trans (hsigil.trans
    ((inside.passes_skipWhile Text.isBlank).trans ((Cursor.passes_advance htail.symm).trans
      (Cursor.passes_skipWhile _ Text.isBlank))))
  simp only [read, htaken] at h
  split at h
  · rw [← Except.error.inj h]
    exact ⟨_, _, hpasses, rfl⟩
  · next n hn =>
    obtain ⟨marker, after, hrest, rfl, -⟩ := Delimiters.exists_takesIn hn
    have hclose := hpasses.trans (Cursor.passes_advance hrest)
    rw [List.append_assoc] at hclose
    split at h
    · rw [← Except.error.inj h]
      exact ⟨_, _, hclose, rfl⟩
    · cases h

theorem exists_passes_of_next?_error (h : next? c = .error fault) : ∃ before inner place,
    Cursor.Passes c (before ++ (c.delimiters.opening ++ inner)) place ∧
      fault.region = ⟨c.offset + Text.byteSize before, place.offset⟩ := by
  simp only [next?] at h
  split at h
  · cases h
  · next before rest hcut =>
    have hrest := Text.append_of_cutAt? hcut
    rw [List.append_assoc] at hrest
    have hplace := Cursor.passes_advance hrest
    have hopen := Cursor.rest_advance hrest
    refine ⟨before, ?_⟩
    rw [← hplace.offset_eq]
    rcases hread : read (c.advance before.length) with fault' | ⟨tag, close⟩
    · rw [hread] at h
      cases h
      obtain ⟨inner, place, hpasses, hregion⟩ := exists_passes_of_read_error hopen hread
      exact ⟨inner, place, hplace.trans hpasses, hregion⟩
    · obtain ⟨inner, hpasses, -, hregion, -⟩ := passes_of_read hopen hread
      rw [hread] at h
      rcases hafter : close.afterTag tag with fault' | next
      · simp only [bind, Except.bind, hafter] at h
        rw [← Except.error.inj h]
        refine ⟨inner ++ c.delimiters.closing, close, ?_, ?_⟩
        · rw [← List.append_assoc c.delimiters.opening]
          exact hplace.trans hpasses
        · rw [Cursor.region_of_afterTag_error hafter, hregion]
      · simp [bind, Except.bind, hafter, pure, Except.pure] at h

theorem delimiters_of_next? (h : next? c = .ok (some (before, tag, next))) :
    next.delimiters = c.delimiters.afterTag tag := by
  obtain ⟨rest, close, hcut, hread, hafter⟩ := next?_eq_some_iff.1 h
  have hrest := Text.append_of_cutAt? hcut
  rw [List.append_assoc] at hrest
  obtain ⟨inner, -, hclose, -⟩ := passes_of_read (Cursor.rest_advance hrest) hread
  rw [Cursor.delimiters_of_afterTag hafter, hclose, Cursor.delimiters_advance]

theorem exists_passes_of_scan_append {front more : List (List Char × Tag)}
    (h : scan c = (front ++ more, ending)) : ∃ s place, Cursor.Passes c s place ∧
      place.delimiters = c.delimiters.after (front.map Prod.snd) ∧
      (∀ p ∈ front, p.2.region.stop ≤ place.offset) ∧ scan place = (more, ending) := by
  induction front generalizing c with
  | nil => exact ⟨[], c, .refl c, rfl, by simp, h⟩
  | cons p front ih =>
    obtain ⟨next, hnext, hscan⟩ := exists_of_scan_cons h
    obtain ⟨inner, hpasses, hregion, -⟩ := exists_of_next? hnext
    obtain ⟨s, place, hplace, hdelimiters, hbefore, hmore⟩ := ih hscan
    refine ⟨_, place, hpasses.trans hplace, ?_, ?_, hmore⟩
    · rw [hdelimiters, delimiters_of_next? hnext]
      rfl
    · intro q hq
      rcases List.mem_cons.1 hq with rfl | hq
      · have hoffset := hplace.offset_eq
        rw [hregion]
        exact hoffset ▸ Nat.le_add_right _ _
      · exact hbefore q hq

/-- At a place between some tags and the ones behind it, those before it decide. -/
theorem delimitersAt_eq {d : Delimiters} {source : List Char} {front more : List (List Char × Tag)}
    {n : Nat} (h : scan (.start d source) = (front ++ more, ending))
    (hfront : ∀ p ∈ front, p.2.region.stop ≤ n) (hmore : ∀ p ∈ more, n < p.2.region.stop) :
    delimitersAt d source n = d.after (front.map Prod.snd) := by
  have hkeep : front.filter (fun p => p.2.region.stop ≤ n) = front :=
    List.filter_eq_self.2 fun p hp => decide_eq_true (hfront p hp)
  have hdrop : more.filter (fun p => p.2.region.stop ≤ n) = [] :=
    List.filter_eq_nil_iff.2 fun p hp => by simpa using hmore p hp
  rw [delimitersAt, h, List.filter_append, hkeep, hdrop, List.append_nil]

/-- A tag stands in the source from the opening delimiter in force where it begins through its own closing
delimiter. -/
theorem exists_slice?_of_mem_scan {d : Delimiters} {source : List Char}
    (h : tag ∈ (scan (.start d source)).1.map Prod.snd) :
    tag.delimiters = delimitersAt d source tag.region.start ∧ ∃ inner, tag.region.slice? source =
      some (tag.delimiters.opening ++ inner ++ tag.delimiters.closing) := by
  obtain ⟨⟨before, tag⟩, hp, rfl⟩ := List.mem_map.1 h
  obtain ⟨front, more, hscan⟩ := List.append_of_mem hp
  obtain ⟨s, place, hplace, hdelimiters, hfront, hmore⟩ :=
    exists_passes_of_scan_append (Prod.ext hscan rfl)
  obtain ⟨next, hnext, -⟩ := exists_of_scan_cons hmore
  obtain ⟨inner, hpasses, hregion, hd, -⟩ := exists_of_next? hnext
  have hslice := hpasses.slice?_eq
  rw [← hregion, hplace.source_eq, Cursor.source_start] at hslice
  have hlt := Region.start_lt_stop_of_slice? hslice (by simp [place.delimiters.opening_ne_nil])
  obtain ⟨hle, hpairwise⟩ := pairwise_scan place
  rw [hmore] at hle hpairwise
  have hbefore : ∀ p ∈ front, p.2.region.stop ≤ tag.region.start := fun p hp =>
    Nat.le_trans (hfront p hp) (hle _ List.mem_cons_self).1
  have hbehind : ∀ p ∈ (before, tag) :: more, tag.region.start < p.2.region.stop := by
    intro p hp
    rcases List.mem_cons.1 hp with rfl | hmem
    · exact hlt
    · have hafter := (List.pairwise_cons.1 hpairwise).1 p hmem
      have := (hle p hp).2
      exact Nat.lt_of_lt_of_le hlt (Nat.le_trans hafter this)
  refine ⟨?_, inner, by rw [hslice, hd]⟩
  rw [delimitersAt_eq (Prod.ext hscan rfl) hbefore hbehind]
  exact hd.trans hdelimiters

theorem next?_of_scan_broken (h : scan c = ([], .broken fault)) : next? c = .error fault := by
  rcases hnext : next? c with fault' | _ | ⟨before, tag, next⟩
  · rw [scan_of_error hnext] at h
    cases h
    rfl
  · rw [scan_of_none hnext] at h
    cases h
  · rw [scan_of_some hnext] at h
    cases h

theorem exists_slice?_of_broken {d : Delimiters} {source : List Char}
    (h : (scan (.start d source)).2 = .broken fault) : ∃ inner, fault.region.slice? source =
      some ((delimitersAt d source fault.region.start).opening ++ inner) := by
  obtain ⟨s, place, hplace, hdelimiters, hfront, hmore⟩ :=
    exists_passes_of_scan_append (Prod.ext (List.append_nil _).symm h)
  obtain ⟨before, inner, close, hpasses, hregion⟩ :=
    exists_passes_of_next?_error (next?_of_scan_broken hmore)
  have hslice := hpasses.slice?_eq
  rw [← hregion, hplace.source_eq, Cursor.source_start] at hslice
  have hbefore : ∀ p ∈ (scan (.start d source)).1, p.2.region.stop ≤ fault.region.start := by
    intro p hp
    rw [hregion]
    exact Nat.le_trans (hfront p hp) (Nat.le_add_right _ _)
  refine ⟨inner, ?_⟩
  rw [hslice, hdelimiters, delimitersAt_eq (Prod.ext (List.append_nil _).symm rfl) hbefore (by simp)]
  rfl

end Tag

end LogicLess
