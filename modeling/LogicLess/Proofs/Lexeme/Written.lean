import LogicLess.Proofs.Lexeme.Reading

/-!
# Reading what is written

A tag that is written with its delimiters, its sigil and its key, and blanks around the key, is read
back. What follows it may not begin with a character that would be taken for a part of its end.
-/

namespace LogicLess

namespace Cursor

theorem skipWhile_eq {c : Cursor} {p : Char → Bool} {s rest : List Char} (h : c.rest = s ++ rest)
    (hs : ∀ x ∈ s, p x = true) (hrest : ∀ x, rest.head? = some x → p x = false) :
    c.skipWhile p = c.advance s.length := by
  rw [skipWhile, h, Text.takeWhile_append_of_head? hs hrest]

theorem advance_zero (c : Cursor) : c.advance 0 = c := by
  cases c
  simp [advance, Text.byteSize]

end Cursor

namespace Sigil

theorem ofChar?_of_isKeyChar [Alphabet] {c : Char} (h : isKeyChar c = true) : ofChar? c = none := by
  unfold ofChar?
  split
  case h_9 => rfl
  all_goals exact (Bool.false_ne_true h).elim

theorem ofChar?_of_isBlank {c : Char} (h : Text.isBlank c = true) : ofChar? c = none := by
  rcases Text.isBlank_iff.1 h with rfl | rfl <;> rfl

theorem not_isContentChar_of_isBlank [Alphabet] (s : Sigil) {c : Char} (h : Text.isBlank c = true) :
    s.isContentChar c = false := by
  have hkey : isKeyChar ' ' = false ∧ isKeyChar '\t' = false := ⟨rfl, rfl⟩
  rcases Text.isBlank_iff.1 h with rfl | rfl <;> simp [isContentChar, hkey]

end Sigil

theorem Cursor.takeSigil_mark {c : Cursor} {sigil : Sigil} {rest : List Char}
    (h : c.rest = sigil.mark ++ rest)
    (hplain : sigil = .plain → ∀ x, rest.head? = some x → Sigil.ofChar? x = none) :
    c.takeSigil = (sigil, c.advance sigil.mark.length) := by
  unfold takeSigil
  cases sigil with
  | plain =>
    have hnone : c.rest.head?.bind Sigil.ofChar? = none := by
      cases hhead : c.rest.head? with
      | none => rfl
      | some x => exact hplain rfl x (by rwa [h] at hhead)
    rw [hnone]
    exact congrArg _ c.advance_zero.symm
  | _ => rw [h]; rfl

namespace Delimiters

private theorem eq_of_cons_eq_concat {c x : Char} {s : List Char} (h : c :: s = s ++ [x]) : c = x := by
  induction s generalizing c with
  | nil => simpa using h
  | cons d s ih =>
    simp only [List.cons_append, List.cons.injEq] at h
    rw [h.1]
    exact ih h.2

/-- After a closing delimiter, the text cannot be taken for a part of the tag. -/
def NoMarker (s : List Char) : Prop := s.head? ≠ some '}' ∧ s.head? ≠ some '!'

instance (s : List Char) : Decidable (NoMarker s) := inferInstanceAs (Decidable (_ ∧ _))

/-- A closing delimiter is the end of a tag, unless one more of its own kind follows. -/
theorem closeLength?_closing (d : Delimiters) {after : List Char} (hafter : NoMarker after) :
    d.closeLength? (d.closing ++ after) = some d.closing.length := by
  obtain ⟨c, s, hclosing⟩ := List.exists_cons_of_ne_nil d.closing_ne_nil
  have hmarker : ¬ (isMarker c && d.closing.isPrefixOf (s ++ after)) = true := by
    rw [Bool.and_eq_true, List.isPrefixOf_iff_prefix, hclosing]
    rintro ⟨hc, t, ht⟩
    cases after with
    | nil =>
      have hlength := congrArg List.length ht
      simp only [List.length_append, List.length_cons, List.length_nil] at hlength
      omega
    | cons x after =>
      have hshift : c :: s = s ++ [x] := by
        have htake := congrArg (List.take (s.length + 1)) ht
        simpa [List.take_append, List.take_of_length_le] using htake
      have hx : x ≠ '}' ∧ x ≠ '!' := by simpa [NoMarker] using hafter
      have hequals := ne_equals_of_mem d.closing_ok (hclosing ▸ List.mem_cons_self)
      rw [← eq_of_cons_eq_concat hshift] at hx
      simp [isMarker, hx, hequals] at hc
  have hprefix : d.closing.isPrefixOf (d.closing ++ after) = true := by
    rw [List.isPrefixOf_iff_prefix]
    exact List.prefix_append _ _
  rw [hclosing, List.cons_append] at hprefix
  rw [hclosing] at hmarker
  simp only [hclosing, List.cons_append, closeLength?]
  rw [if_neg hmarker, if_pos hprefix]

end Delimiters

namespace Tag

/-- A tag with a key, as it is written with blanks before and after the key. -/
def written (d : Delimiters) (sigil : Sigil) (lead key trail : List Char) : List Char :=
  d.opening ++ (sigil.mark ++ (lead ++ (key ++ (trail ++ d.closing))))

theorem exists_written_eq (d : Delimiters) (sigil : Sigil) (lead key trail : List Char) :
    ∃ inner, written d sigil lead key trail = d.opening ++ inner ++ d.closing :=
  ⟨sigil.mark ++ (lead ++ (key ++ trail)), by simp [written]⟩

theorem closing_not_blank (d : Delimiters) (after : List Char) (x : Char)
    (hx : (d.closing ++ after).head? = some x) : Text.isBlank x = false := by
  obtain ⟨y, s, hclosing⟩ := List.exists_cons_of_ne_nil d.closing_ne_nil
  rw [hclosing] at hx
  rw [← Option.some.inj hx]
  exact (Delimiters.not_isBlank_of_mem d.closing_ok (hclosing ▸ List.mem_cons_self)).1

variable [Alphabet]

/-- A key with a sigil before it and blanks around it, of which the text `rest` is no part. -/
structure Keyed (sigil : Sigil) (lead key trail rest : List Char) : Prop where
  sigil_eq : sigil.isFreeText = false
  lead_blank : ∀ c ∈ lead, Text.isBlank c = true
  key_ne : key ≠ []
  key_chars : ∀ c ∈ key, sigil.isContentChar c = true
  trail_blank : ∀ c ∈ trail, Text.isBlank c = true
  key_ends : ∀ c, (trail ++ rest).head? = some c → sigil.isContentChar c = false
  rest_not_blank : ∀ c, rest.head? = some c → Text.isBlank c = false

namespace Keyed

variable {sigil : Sigil} {lead key trail rest : List Char}

theorem key_not_blank (h : Keyed sigil lead key trail rest) (after : List Char) (x : Char)
    (hx : (key ++ after).head? = some x) : Text.isBlank x = false := by
  obtain ⟨y, key, rfl⟩ := List.exists_cons_of_ne_nil h.key_ne
  rw [← Option.some.inj hx, ← Bool.not_eq_true]
  intro hblank
  have hy := h.key_chars y (by simp)
  rw [sigil.not_isContentChar_of_isBlank hblank] at hy
  exact absurd hy (by simp)

theorem not_sigil (h : Keyed .plain lead key trail rest) (after : List Char) (x : Char)
    (hx : (lead ++ (key ++ after)).head? = some x) : Sigil.ofChar? x = none := by
  cases lead with
  | cons y lead =>
    rw [← Option.some.inj hx]
    exact Sigil.ofChar?_of_isBlank (h.lead_blank y (by simp))
  | nil =>
    obtain ⟨y, key, rfl⟩ := List.exists_cons_of_ne_nil h.key_ne
    rw [← Option.some.inj hx]
    refine Sigil.ofChar?_of_isKeyChar ?_
    simpa [Sigil.isContentChar] using h.key_chars y (by simp)

end Keyed

/-- A tag with a key is read up to the key and the blanks behind it. What follows decides whether it is a
tag. -/
theorem read_keyed {c : Cursor} {sigil : Sigil} {lead key trail rest : List Char}
    (h : Keyed sigil lead key trail rest)
    (hrest : c.rest = (c.delimiters.opening ++ (sigil.mark ++ (lead ++ (key ++ trail)))) ++ rest) :
    let ended := c.advance (c.delimiters.opening ++ (sigil.mark ++ (lead ++ (key ++ trail)))).length
    read c =
      match c.delimiters.closeLength? rest with
      | none => .error (.unclosedTag ⟨c.offset, ended.offset⟩ c.delimiters.closing)
      | some n => .ok (⟨sigil, key, ⟨c.offset, (ended.advance n).offset⟩, c.delimiters⟩,
          ended.advance n) := by
  intro ended
  have hopening : c.rest =
      c.delimiters.opening ++ (sigil.mark ++ (lead ++ (key ++ (trail ++ rest)))) := by
    rw [hrest]
    simp
  have hmark := Cursor.rest_advance hopening
  have hlead := Cursor.rest_advance hmark
  have hkey := Cursor.rest_advance hlead
  have htrail := Cursor.rest_advance hkey
  have hsigil := Cursor.takeSigil_mark hmark fun hplain => (hplain ▸ h).not_sigil _
  have hbegun := Cursor.skipWhile_eq hlead h.lead_blank (h.key_not_blank _)
  have hended := Cursor.skipWhile_eq htrail h.trail_blank h.rest_not_blank
  have hcontent : contentAt sigil (((c.advance c.delimiters.opening.length).advance
      sigil.mark.length).advance lead.length) = key := by
    rw [contentAt, if_neg (by simp [h.sigil_eq]), hkey]
    exact Text.takeWhile_append_of_head? h.key_chars h.key_ends
  have hlength : c.delimiters.opening.length + sigil.mark.length + lead.length + key.length +
      trail.length = (c.delimiters.opening ++ (sigil.mark ++ (lead ++ (key ++ trail)))).length := by
    simp only [List.length_append]
    omega
  have hkey' : ¬ (key.isEmpty && !sigil.isFreeText) = true := by simp [h.key_ne]
  have hclosing := Cursor.rest_advance hrest
  simp only [Cursor.advance_advance] at hsigil hbegun hcontent hended
  cases hclose : c.delimiters.closeLength? rest <;>
    simp only [read, hsigil, hbegun, hcontent, Cursor.advance_advance, hended, hlength, hclosing,
      hclose, if_neg hkey', ended]

/-- The tag that is written can be told from the text `after` it. -/
structure Legible (d : Delimiters) (sigil : Sigil) (lead key trail after : List Char) : Prop where
  sigil_eq : sigil.isFreeText = false
  lead_blank : ∀ c ∈ lead, Text.isBlank c = true
  key_ne : key ≠ []
  key_chars : ∀ c ∈ key, sigil.isContentChar c = true
  trail_blank : ∀ c ∈ trail, Text.isBlank c = true
  key_ends : ∀ c, (trail ++ d.closing).head? = some c → sigil.isContentChar c = false
  no_marker : Delimiters.NoMarker after

theorem Legible.keyed {d : Delimiters} {sigil : Sigil} {lead key trail after : List Char}
    (h : Legible d sigil lead key trail after) : Keyed sigil lead key trail (d.closing ++ after) where
  sigil_eq := h.sigil_eq
  lead_blank := h.lead_blank
  key_ne := h.key_ne
  key_chars := h.key_chars
  trail_blank := h.trail_blank
  key_ends x hx := by
    refine h.key_ends x ?_
    obtain ⟨y, s, hs⟩ := List.exists_cons_of_ne_nil
      (show trail ++ d.closing ≠ [] by simp [d.closing_ne_nil])
    rw [hs]
    rwa [← List.append_assoc, hs] at hx
  rest_not_blank := closing_not_blank d after

theorem read_written {c : Cursor} {sigil : Sigil} {lead key trail after : List Char}
    (h : Legible c.delimiters sigil lead key trail after)
    (hrest : c.rest = written c.delimiters sigil lead key trail ++ after) :
    ∃ next, read c = .ok (⟨sigil, key, ⟨c.offset, next.offset⟩, c.delimiters⟩, next) ∧
      Cursor.Passes c (written c.delimiters sigil lead key trail) next ∧
      next.delimiters = c.delimiters := by
  have hread := read_keyed h.keyed (c := c) (by rw [hrest]; simp [written])
  rw [c.delimiters.closeLength?_closing h.no_marker] at hread
  have hlength : (c.delimiters.opening ++ (sigil.mark ++ (lead ++ (key ++ trail)))).length +
      c.delimiters.closing.length = (written c.delimiters sigil lead key trail).length := by
    simp only [written, List.length_append]
    omega
  simp only [Cursor.advance_advance, hlength] at hread
  exact ⟨_, hread, Cursor.passes_advance hrest, rfl⟩

end Tag

namespace Lexeme

variable [Alphabet] {c close : Cursor} {before rest : List Char} {tag : Tag}

theorem read?_of_tag (hc : c.Settled)
    (hrest : c.rest = before ++ c.delimiters.opening ++ rest)
    (hcut : Text.OnlyAtEnd c.delimiters.opening before)
    (hread : Tag.read (c.advance before.length) = .ok (tag, close)) (hsigil : tag.sigil ≠ .equals) :
    read? c = .ok (some (ofTag c before tag close)) := by
  have hcut := Text.cutAt?_append c.delimiters.opening_ne_nil hcut rest
  rw [← hrest] at hcut
  have hafter : ∀ place : Cursor, place.afterTag tag = .ok place := by
    intro place
    rw [Cursor.afterTag, if_neg hsigil]
  rw [read?_eq hc hcut, hread]
  simp only [bind, Except.bind, hafter, pure, Except.pure]

theorem read?_of_plain (hc : c.Settled)
    (hrest : c.rest = before ++ c.delimiters.opening ++ rest)
    (hcut : Text.OnlyAtEnd c.delimiters.opening before)
    (hread : Tag.read (c.advance before.length) = .ok (tag, close)) (hplain : tag.sigil = .plain) :
    read? c = .ok (some (⟨before, tag, [], close.offset⟩, close)) := by
  rw [read?_of_tag hc hrest hcut hread (by simp [hplain]), ofTag_of_plain hplain]

theorem read?_eq_none (h : ¬ c.delimiters.opening <:+: c.rest) : read? c = .ok none := by
  rw [read?, Text.cutAt?_eq_none c.delimiters.opening_ne_nil h]

theorem readAll_of_last {next : Cursor} {l : Lexeme} (h : read? c = .ok (some (l, next)))
    (hlast : ¬ next.delimiters.opening <:+: next.rest) :
    readAll c = ([l], .complete next.rest next.delimiters) := by
  rw [readAll_of_some h, readAll_of_none (read?_eq_none hlast)]

end Lexeme

end LogicLess
