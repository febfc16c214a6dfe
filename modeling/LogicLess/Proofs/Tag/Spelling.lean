import LogicLess.Proofs.Cursor
import LogicLess.Tag

/-!
# How tags are spelled

A tag that is read stands in its source with its delimiters, its sigil and its content. Besides these it
holds only blanks around the content and at most one marker in front of the closing delimiter. Which
marker that may be does not depend on the sigil.
-/

namespace LogicLess

namespace Sigil

def mark : Sigil → List Char
  | plain => []
  | brace => ['{']
  | ampersand => ['&']
  | pound => ['#']
  | caret => ['^']
  | slash => ['/']
  | angle => ['>']
  | equals => ['=']
  | bang => ['!']

/-- The marker that belongs to a kind of tag. -/
def marker? : Sigil → Option Char
  | brace => some '}'
  | equals => some '='
  | bang => some '!'
  | _ => none

theorem mark_of_ofChar? {c : Char} {sigil : Sigil} (h : ofChar? c = some sigil) :
    sigil.mark = [c] := by
  unfold ofChar? at h
  split at h <;> cases h <;> rfl

theorem exists_mark_eq {sigil : Sigil} (h : sigil ≠ .plain) :
    ∃ x, sigil.mark = [x] ∧ ofChar? x = some sigil := by
  cases sigil <;> first | exact absurd rfl h | exact ⟨_, rfl, rfl⟩

end Sigil

theorem Cursor.passes_takeSigil (c : Cursor) :
    Passes c c.takeSigil.1.mark c.takeSigil.2 ∧ c.takeSigil.2.delimiters = c.delimiters := by
  unfold takeSigil
  split
  · next sigil hsigil =>
    obtain ⟨x, hx, hsigil⟩ := Option.bind_eq_some_iff.1 hsigil
    obtain ⟨rest, hrest⟩ := List.head?_eq_some_iff.1 hx
    rw [Sigil.mark_of_ofChar? hsigil]
    exact ⟨passes_advance hrest, rfl⟩
  · exact ⟨.refl c, rfl⟩

namespace Delimiters

/-- The text in front of a closing delimiter that its tag takes in: one marker, or nothing if no marker
stands there. The closing delimiter itself may begin with a marker. -/
def TakesIn (d : Delimiters) (marker after : List Char) : Prop :=
  (∃ m, isMarker m = true ∧ marker = [m]) ∨
    marker = [] ∧ ∀ m, isMarker m = true → ¬ m :: d.closing <+: d.closing ++ after

/-- What is taken in can only be the marker `own` just if no other one stands there. -/
theorem TakesIn.forall_mem_iff {d : Delimiters} {marker after : List Char}
    (h : d.TakesIn marker after) (own : Option Char) :
    (∀ m ∈ marker, own = some m) ↔
      ∀ m, isMarker m = true → m :: d.closing <+: marker ++ d.closing ++ after → own = some m := by
  rcases h with ⟨x, hx, rfl⟩ | ⟨rfl, hnone⟩
  · constructor
    · intro hown m _ hprefix
      obtain ⟨rfl, -⟩ := List.cons_prefix_cons.1 hprefix
      exact hown m (by simp)
    · intro hstands m hm
      rw [List.mem_singleton.1 hm]
      exact hstands x hx (List.prefix_append _ after)
  · exact iff_of_true (by simp) fun m hm hprefix => absurd hprefix (hnone m hm)

theorem exists_takesIn {d : Delimiters} {s : List Char} {n : Nat}
    (h : d.closeLength? s = some n) : ∃ marker after, s = marker ++ d.closing ++ after ∧
      n = (marker ++ d.closing).length ∧ d.TakesIn marker after := by
  unfold closeLength? at h
  split at h
  · cases h
  · next c rest =>
    split at h
    · next hmarker =>
      obtain ⟨hc, hclosing⟩ := Bool.and_eq_true_iff.1 hmarker
      obtain ⟨after, rfl⟩ := List.isPrefixOf_iff_prefix.1 hclosing
      exact ⟨[c], after, rfl, by simpa using h.symm, .inl ⟨c, hc, rfl⟩⟩
    · next hmarker =>
      split at h
      · next hclosing =>
        obtain ⟨after, hafter⟩ := List.isPrefixOf_iff_prefix.1 hclosing
        refine ⟨[], after, hafter.symm, by simpa using h.symm, .inr ⟨rfl, fun m hm hprefix => ?_⟩⟩
        rw [hafter, List.cons_prefix_cons] at hprefix
        obtain ⟨rfl, hrest⟩ := hprefix
        exact hmarker (by rw [hm, List.isPrefixOf_iff_prefix.2 hrest]; rfl)
      · cases h

theorem untilClose_prefix (d : Delimiters) (s : List Char) : d.untilClose s <+: s := by
  induction s with
  | nil => exact List.nil_prefix
  | cons c rest ih =>
    rw [untilClose]
    split
    · exact List.nil_prefix
    · exact List.cons_prefix_cons.2 ⟨rfl, ih⟩

theorem ne_equals_of_mem {s : List Char} (h : isDelimiter s = true) {c : Char} (hc : c ∈ s) :
    c ≠ '=' := by
  have hall := List.all_eq_true.1 (Bool.and_eq_true_iff.1 h).2 c hc
  simpa using (Bool.and_eq_true_iff.1 hall).2

theorem not_isWhitespace_of_mem {s : List Char} (h : isDelimiter s = true) {c : Char} (hc : c ∈ s) :
    Text.isWhitespace c = false := by
  have hall := List.all_eq_true.1 (Bool.and_eq_true_iff.1 h).2 c hc
  simp only [Bool.and_eq_true, Bool.not_eq_true'] at hall
  exact hall.1

theorem not_isBlank_of_mem {s : List Char} (h : isDelimiter s = true) {c : Char} (hc : c ∈ s) :
    Text.isBlank c = false ∧ c ≠ '\n' := by
  have hw := not_isWhitespace_of_mem h hc
  refine ⟨?_, ?_⟩
  · cases hb : Text.isBlank c with
    | false => rfl
    | true => rw [Text.isWhitespace_of_isBlank hb] at hw; exact absurd hw (by simp)
  · rintro rfl
    exact absurd hw (by decide)

end Delimiters

namespace Tag

variable [Alphabet]

theorem contentAt_prefix (sigil : Sigil) (c : Cursor) : contentAt sigil c <+: c.rest := by
  unfold contentAt
  split
  · exact c.delimiters.untilClose_prefix c.rest
  · exact List.takeWhile_prefix _

/-- The place after the content of a tag and the blanks around it. -/
def contentEnd (sigil : Sigil) (inside : Cursor) : Cursor :=
  let begun := inside.skipWhile Text.isBlank
  (begun.advance (contentAt sigil begun).length).skipWhile Text.isBlank

variable {c close : Cursor} {tag : Tag}

theorem read_eq_ok_iff :
    read c = .ok (tag, close) ↔ ∃ sigil inside n,
      (c.advance c.delimiters.opening.length).takeSigil = (sigil, inside) ∧
      c.delimiters.closeLength? (contentEnd sigil inside).rest = some n ∧
      ¬ ((contentAt sigil (inside.skipWhile Text.isBlank)).isEmpty && !sigil.isFreeText) = true ∧
      (contentEnd sigil inside).advance n = close ∧
      ⟨sigil, contentAt sigil (inside.skipWhile Text.isBlank), ⟨c.offset, close.offset⟩,
        c.delimiters⟩ = tag := by
  rcases htaken : (c.advance c.delimiters.opening.length).takeSigil with ⟨sigil, inside⟩
  simp only [read, htaken, contentEnd]
  constructor
  · intro h
    split at h
    · cases h
    · next n hn =>
      split at h
      · cases h
      · next hcontent =>
        simp only [Except.ok.injEq, Prod.mk.injEq] at h
        obtain ⟨rfl, rfl⟩ := h
        exact ⟨sigil, inside, n, rfl, hn, hcontent, rfl, rfl⟩
  · rintro ⟨sigil', inside', n, heq, hn, hcontent, rfl, rfl⟩
    obtain ⟨rfl, rfl⟩ := Prod.mk.inj heq
    simp only [hn, if_neg hcontent]

def spelling (tag : Tag) (lead trail marker : List Char) : List Char :=
  tag.delimiters.opening ++ (tag.sigil.mark ++ (lead ++ (tag.content ++ (trail ++
    (marker ++ tag.delimiters.closing)))))

/-- A tag that is read is passed as it is spelled. -/
theorem exists_spelling_of_read {rest : List Char} (hopen : c.rest = c.delimiters.opening ++ rest)
    (h : read c = .ok (tag, close)) : ∃ lead trail marker,
      Cursor.Passes c (tag.spelling lead trail marker) close ∧ close.delimiters = c.delimiters ∧
      tag.delimiters = c.delimiters ∧ tag.region = ⟨c.offset, close.offset⟩ ∧
      (∀ x ∈ lead, Text.isBlank x = true) ∧ (∀ x ∈ trail, Text.isBlank x = true) ∧
      c.delimiters.TakesIn marker close.rest := by
  obtain ⟨sigil, inside, n, htaken, hn, -, rfl, rfl⟩ := read_eq_ok_iff.1 h
  obtain ⟨hsigil, hd⟩ := (c.advance c.delimiters.opening.length).passes_takeSigil
  rw [htaken] at hsigil hd
  obtain ⟨tail, htail⟩ := contentAt_prefix sigil (inside.skipWhile Text.isBlank)
  obtain ⟨marker, after, hrest, rfl, htakesIn⟩ := Delimiters.exists_takesIn hn
  have hpasses := (Cursor.passes_advance hopen).trans (hsigil.trans
    ((inside.passes_skipWhile Text.isBlank).trans ((Cursor.passes_advance htail.symm).trans
      ((Cursor.passes_skipWhile _ Text.isBlank).trans (Cursor.passes_advance hrest)))))
  refine ⟨_, _, marker, hpasses, hd, rfl, rfl, List.all_eq_true.1 List.all_takeWhile,
    List.all_eq_true.1 List.all_takeWhile, ?_⟩
  rwa [Cursor.rest_advance hrest]

theorem passes_of_read {rest : List Char} (hopen : c.rest = c.delimiters.opening ++ rest)
    (h : read c = .ok (tag, close)) :
    ∃ inner, Cursor.Passes c (c.delimiters.opening ++ inner ++ c.delimiters.closing) close ∧
      close.delimiters = c.delimiters ∧ tag.region = ⟨c.offset, close.offset⟩ ∧
      tag.delimiters = c.delimiters := by
  obtain ⟨lead, trail, marker, hpasses, hclose, hd, hregion, -⟩ := exists_spelling_of_read hopen h
  refine ⟨tag.sigil.mark ++ (lead ++ (tag.content ++ (trail ++ marker))), ?_, hclose, hregion, hd⟩
  rw [spelling, hd] at hpasses
  simpa using hpasses

end Tag

end LogicLess
