import LogicLess.Proofs.Lexeme.Outline

/-!
# Lexemes and the text behind them

A lexeme is read the same way with any text behind it, as long as enough stands between the two: the end of
a tag is told by one character behind it, and the end of its line by one that is no white space.
-/

namespace LogicLess

theorem Text.takeWhile_append_of_dropWhile_ne_nil {p : Char → Bool} {s : List Char}
    (h : s.dropWhile p ≠ []) (back : List Char) : (s ++ back).takeWhile p = s.takeWhile p := by
  rw [List.takeWhile_append, if_neg]
  intro hlength
  have hall := (List.takeWhile_prefix p (l := s)).eq_of_length hlength
  have hrun := List.takeWhile_append_dropWhile (p := p) (l := s)
  rw [hall, List.append_right_eq_self] at hrun
  exact h hrun

namespace Cursor

variable {back : List Char} {c : Cursor}

theorem extend_skipWhile {p : Char → Bool} (h : (c.skipWhile p).rest ≠ []) :
    (c.extend back).skipWhile p = (c.skipWhile p).extend back := by
  rw [rest_skipWhile] at h
  rw [skipWhile, rest_extend, Text.takeWhile_append_of_dropWhile_ne_nil h,
    advance_extend (List.takeWhile_prefix p).length_le]
  rfl

theorem Settled.extend (h : (c.extend back).Settled) (hne : c.rest ≠ []) (back' : List Char) :
    (c.extend back').Settled := .inr (h.resolve_left (by simp [hne]))

theorem afterTag_extend (tag : Tag) :
    (c.extend back).afterTag tag = (c.afterTag tag).map (extend back) := by
  by_cases hsigil : tag.sigil = .equals
  · rw [afterTag, if_pos hsigil, afterTag, if_pos hsigil]
    cases Delimiters.ofContent tag.content <;> rfl
  · rw [afterTag, if_neg hsigil, afterTag, if_neg hsigil]
    rfl

end Cursor

namespace Delimiters

variable {d : Delimiters} {s : List Char}

theorem closeLength?_append (h : d.closing.length < s.length) (back : List Char) :
    d.closeLength? (s ++ back) = d.closeLength? s := by
  cases s with
  | nil => simp at h
  | cons x s =>
    have hprefix : ∀ t : List Char, d.closing.length ≤ t.length →
        d.closing.isPrefixOf (t ++ back) = d.closing.isPrefixOf t := by
      intro t ht
      rw [Bool.eq_iff_iff, List.isPrefixOf_iff_prefix, List.isPrefixOf_iff_prefix,
        Text.prefix_append_left_iff ht]
    rw [List.cons_append, closeLength?, closeLength?, hprefix s (Nat.le_of_lt_succ h),
      ← List.cons_append, hprefix (x :: s) (Nat.le_of_lt h)]

theorem untilClose_append (h : d.closing.length < (s.drop (d.untilClose s).length).length)
    (back : List Char) : d.untilClose (s ++ back) = d.untilClose s := by
  induction s with
  | nil => simp at h
  | cons x s ih =>
    have hlong : d.closing.length < (x :: s).length := by
      rw [List.length_drop] at h
      omega
    have hclose := d.closeLength?_append hlong back
    rw [List.cons_append] at hclose
    rw [List.cons_append, untilClose, untilClose, hclose]
    rw [untilClose] at h
    split
    · rfl
    · next hnot =>
      rw [if_neg hnot] at h
      rw [ih (by simpa using h)]

end Delimiters

namespace Tag

variable [Alphabet] {c close : Cursor} {tag : Tag}

theorem contentAt_extend {sigil : Sigil}
    (h : c.delimiters.closing.length < (c.advance (contentAt sigil c).length).rest.length)
    (back : List Char) : contentAt sigil (c.extend back) = contentAt sigil c := by
  unfold contentAt at *
  cases hfree : sigil.isFreeText with
  | true =>
    simp only [hfree, if_true] at h ⊢
    exact Delimiters.untilClose_append h back
  | false =>
    simp only [hfree, Bool.false_eq_true, if_false] at h ⊢
    refine Text.takeWhile_append_of_dropWhile_ne_nil ?_ back
    rw [← Cursor.rest_skipWhile]
    exact List.ne_nil_of_length_pos (Nat.zero_lt_of_lt h)

theorem contentEnd_extend {sigil : Sigil}
    (h : c.delimiters.closing.length < (contentEnd sigil c).rest.length) (back : List Char) :
    contentAt sigil ((c.extend back).skipWhile Text.isBlank) =
        contentAt sigil (c.skipWhile Text.isBlank) ∧
      contentEnd sigil (c.extend back) = (contentEnd sigil c).extend back := by
  have hcontent : (c.skipWhile Text.isBlank).delimiters.closing.length <
      ((c.skipWhile Text.isBlank).advance
        (contentAt sigil (c.skipWhile Text.isBlank)).length).rest.length := by
    refine Nat.lt_of_lt_of_le h ?_
    rw [contentEnd, Cursor.rest_skipWhile]
    exact List.length_dropWhile_le ..
  have hbegun : (c.skipWhile Text.isBlank).rest ≠ [] := by
    intro hnil
    rw [Cursor.length_rest_advance, hnil, List.length_nil, Nat.zero_sub] at hcontent
    exact Nat.not_lt_zero _ hcontent
  have hended : (contentEnd sigil c).rest ≠ [] :=
    List.ne_nil_of_length_pos (Nat.zero_lt_of_lt h)
  have hsame := contentAt_extend hcontent back
  have hlength : (contentAt sigil (c.skipWhile Text.isBlank)).length ≤
      (c.skipWhile Text.isBlank).rest.length :=
    List.IsPrefix.length_le <| contentAt_prefix sigil (c.skipWhile Text.isBlank)
  rw [contentEnd, Cursor.extend_skipWhile hbegun, hsame, Cursor.advance_extend hlength]
  exact ⟨rfl, Cursor.extend_skipWhile hended⟩

theorem length_rest_contentEnd (sigil : Sigil) (c : Cursor) :
    (contentEnd sigil c).rest.length ≤ c.rest.length := by
  simp only [contentEnd, Cursor.skipWhile, Cursor.length_rest_advance]
  omega

theorem read_extend (h : read c = .ok (tag, close)) (hclose : close.rest ≠ []) (back : List Char) :
    read (c.extend back) = .ok (tag, close.extend back) := by
  obtain ⟨sigil, inside, n, htaken, hn, hcontent, rfl, rfl⟩ := read_eq_ok_iff.1 h
  obtain ⟨hpasses, hd⟩ := (c.advance c.delimiters.opening.length).passes_takeSigil
  rw [htaken] at hpasses hd
  rw [Cursor.delimiters_advance] at hd
  have hlong : inside.delimiters.closing.length < (contentEnd sigil inside).rest.length := by
    obtain ⟨marker, after, hrest, rfl, -⟩ := Delimiters.exists_takesIn hn
    rw [Cursor.rest_advance hrest] at hclose
    have hpos := List.length_pos_iff.2 hclose
    rw [hd, hrest]
    simp only [List.length_append]
    omega
  obtain ⟨hsame, hended⟩ := contentEnd_extend hlong back
  have hbegun : 0 < (c.advance c.delimiters.opening.length).rest.length := by
    have hinside := length_rest_contentEnd sigil inside
    rw [hpasses.rest_eq, List.length_append]
    dsimp only
    omega
  have hlength : c.delimiters.opening.length ≤ c.rest.length := by
    rw [Cursor.length_rest_advance] at hbegun
    omega
  refine read_eq_ok_iff.2 ⟨sigil, inside.extend back, n, ?_, ?_, ?_, ?_, ?_⟩
  · rw [Cursor.delimiters_extend, Cursor.advance_extend hlength,
      Cursor.takeSigil_extend (List.ne_nil_of_length_pos hbegun), htaken]
  · rw [hended, Cursor.delimiters_extend, Cursor.rest_extend,
      Delimiters.closeLength?_append (hd ▸ hlong), hn]
  · rwa [hsame]
  · rw [hended, Cursor.advance_extend (Delimiters.le_length_of_closeLength? hn)]
  · rw [hsame]
    rfl

end Tag

namespace Text

theorem blankLineEnd?_append {s : List Char} {x : Char} (hx : x ∈ s) (hspacing : isSpacing x = false)
    (back : List Char) : blankLineEnd? (s ++ back) = blankLineEnd? s := by
  have hblank : isBlank x = false := by
    rw [← Bool.not_eq_true] at hspacing ⊢
    exact fun h => hspacing (isSpacing_of_isBlank h)
  have hmem : x ∈ s.dropWhile isBlank := by
    rw [← List.takeWhile_append_dropWhile (p := isBlank) (l := s)] at hx
    refine (List.mem_append.1 hx).resolve_left fun htake => ?_
    rw [List.mem_takeWhile_imp htake] at hblank
    cases hblank
  have hdrop : (s ++ back).dropWhile isBlank = s.dropWhile isBlank ++ back := by
    rw [List.dropWhile_append, if_neg]
    simpa using List.ne_nil_of_mem hmem
  have htake := takeWhile_append_of_dropWhile_ne_nil (List.ne_nil_of_mem hmem) back
  simp only [blankLineEnd?, hdrop, htake]
  generalize s.dropWhile isBlank = rest at hmem ⊢
  -- A carriage return is followed by another character, since `x` is none.
  cases rest with
  | nil => cases hmem
  | cons y rest =>
    cases rest with
    | nil =>
      have hy : y ≠ '\n' ∧ y ≠ '\r' := by
        rw [← List.mem_singleton.1 hmem]
        constructor <;> rintro rfl <;> exact absurd hspacing (by decide)
      rw [List.singleton_append]
      split <;> split <;> simp_all
    | cons z rest =>
      rw [List.cons_append, List.cons_append]
      split <;> split <;> simp_all

end Text

namespace Lexeme

variable {c : Cursor}

theorem ofTag_extend {close : Cursor} {before : List Char} {tag : Tag} {x : Char} (hx : x ∈ close.rest)
    (hspacing : Text.isSpacing x = false) (back : List Char) :
    ofTag (c.extend back) before tag (close.extend back) =
      ((ofTag c before tag close).1, (ofTag c before tag close).2.extend back) := by
  have hend := Text.blankLineEnd?_append hx hspacing back
  have hsame : (tag.sigil.mayStandAlone &&
      Text.isAlone ((c.extend back).seen.reverse ++ before) (close.extend back).rest) =
        (tag.sigil.mayStandAlone && Text.isAlone (c.seen.reverse ++ before) close.rest) := by
    rw [Text.isAlone, Cursor.rest_extend, hend]
    rfl
  cases halone : tag.sigil.mayStandAlone && Text.isAlone (c.seen.reverse ++ before) close.rest with
  | false =>
    rw [ofTag_of_not_alone halone, ofTag_of_not_alone (hsame.trans halone)]
    rfl
  | true =>
    obtain ⟨tail, htail⟩ := Option.isSome_iff_exists.1
      (Bool.and_eq_true_iff.1 (Bool.and_eq_true_iff.1 halone).2).2
    rw [ofTag_of_alone halone rfl htail, ofTag_of_alone (hsame.trans halone) rfl (hend.trans htail),
      Cursor.advance_extend (Text.prefix_of_blankLineEnd? htail).length_le]
    rfl

variable [Alphabet]

theorem exists_ofTag_of_read? {next : Cursor} {l : Lexeme} (hc : c.Settled)
    (h : read? c = .ok (some (l, next))) : ∃ before rest close,
      Text.cutAt? c.delimiters.opening c.rest = some (before, rest) ∧
        Tag.read (c.advance before.length) = .ok (l.tag, close) ∧
        (ofTag c before l.tag close).1 = l ∧
        (ofTag c before l.tag close).2.afterTag l.tag = .ok next := by
  cases hcut : Text.cutAt? c.delimiters.opening c.rest with
  | none => simp [read?, hcut] at h
  | some parts =>
    obtain ⟨before, rest⟩ := parts
    rw [read?_eq hc hcut] at h
    obtain ⟨⟨tag, close⟩, hread, h⟩ := bind_eq_ok h
    obtain ⟨place, hafter, h⟩ := bind_eq_ok h
    simp only [pure, Except.pure, Except.ok.injEq, Option.some.injEq, Prod.mk.injEq] at h
    obtain ⟨rfl, rfl⟩ := h
    obtain ⟨_, _, hl, -, -, htag, -⟩ := ofTag_eq c close before tag
    have hsame : (ofTag c before tag close).1.tag = tag := by rw [hl, htag]
    refine ⟨before, rest, close, rfl, ?_⟩
    rw [hsame]
    exact ⟨hread, rfl, hafter⟩

private theorem exists_rest_eq_of_read {close : Cursor} {before rest back : List Char} {tag : Tag}
    (hcut : Text.cutAt? c.delimiters.opening (c.extend back).rest = some (before, rest))
    (hread : Tag.read ((c.extend back).advance before.length) = .ok (tag, close.extend back)) :
    ∃ inner, c.rest = before ++ (c.delimiters.opening ++ (inner ++ close.rest)) := by
  have hrest := Text.append_of_cutAt? hcut
  rw [List.append_assoc] at hrest
  obtain ⟨inner, hinner, -⟩ := Tag.passes_of_read (Cursor.rest_advance hrest) hread
  have hwhole := ((Cursor.passes_advance hrest).trans hinner).rest_eq
  refine ⟨inner ++ c.delimiters.closing, (List.append_left_inj back).1 ?_⟩
  simpa using hwhole

private theorem read_extend_of_cutAt? {close : Cursor} {before rest back : List Char} {tag : Tag}
    (hcut : Text.cutAt? c.delimiters.opening (c.extend back).rest = some (before, rest))
    (hread : Tag.read ((c.extend back).advance before.length) = .ok (tag, close.extend back))
    (hclose : close.rest ≠ []) (back' : List Char) :
    (∃ rest', Text.cutAt? c.delimiters.opening (c.extend back').rest = some (before, rest')) ∧
      Tag.read ((c.extend back').advance before.length) = .ok (tag, close.extend back') := by
  obtain ⟨inner, htext⟩ := exists_rest_eq_of_read hcut hread
  have hadvance : ∀ text, (c.extend text).advance before.length =
      (c.advance before.length).extend text :=
    fun text => Cursor.advance_extend (by simp [htext])
  have hprefix : (c.advance before.length).delimiters.opening <+: (c.advance before.length).rest := by
    rw [Cursor.rest_advance htext]
    exact List.prefix_append _ _
  rw [hadvance] at hread
  refine ⟨⟨inner ++ close.rest ++ back', ?_⟩, ?_⟩
  · have hcut' := Text.cutAt?_append c.delimiters.opening_ne_nil (Text.onlyAtEnd_of_cutAt? hcut)
      (inner ++ close.rest ++ back')
    simpa [htext] using hcut'
  · rw [hadvance]
    exact Tag.read_extend (Tag.read_of_extend back hprefix hread) hclose back'

/-- A lexeme is read the same way with any text behind it, if a character that is no white space stands
between the two. -/
theorem read?_extend {next : Cursor} {l : Lexeme} {back : List Char} {x : Char}
    (hc : (c.extend back).Settled) (h : read? (c.extend back) = .ok (some (l, next.extend back)))
    (hx : x ∈ next.rest) (hspacing : Text.isSpacing x = false) (back' : List Char) :
    read? (c.extend back') = .ok (some (l, next.extend back')) := by
  obtain ⟨before, rest, close, hcut, hread, hl, hafter⟩ := exists_ofTag_of_read? hc h
  -- The tag ends before `back`, at the place `front`.
  obtain ⟨tail, _, htail, ⟨after, hclose⟩, -⟩ := ofTag_eq (c.extend back) close before l.tag
  have hplace := Cursor.rest_of_afterTag hafter
  rw [htail, Cursor.rest_advance hclose.symm, Cursor.rest_extend] at hplace
  rw [← hplace, ← List.append_assoc] at hclose
  rw [Cursor.eq_extend hclose.symm] at hread hl hafter
  generalize hfront : ({ close with rest := tail ++ next.rest } : Cursor) = front at hread hl hafter
  have hx' : x ∈ front.rest := by
    rw [← hfront]
    exact List.mem_append_right _ hx
  rw [ofTag_extend hx' hspacing] at hl hafter
  rw [Cursor.afterTag_extend] at hafter
  obtain ⟨⟨rest', hcut'⟩, hread'⟩ :=
    read_extend_of_cutAt? hcut hread (List.ne_nil_of_mem hx') back'
  obtain ⟨inner, hrest⟩ := exists_rest_eq_of_read hcut hread
  have hne : c.rest ≠ [] := by simp [hrest, c.delimiters.opening_ne_nil]
  rw [read?_eq (hc.extend hne back') hcut', hread']
  simp only [bind, Except.bind, ofTag_extend hx' hspacing, Cursor.afterTag_extend]
  cases hnext : (ofTag c before l.tag front).2.afterTag l.tag with
  | error fault =>
    rw [hnext] at hafter
    cases hafter
  | ok place =>
    rw [hnext] at hafter
    rw [Except.map, Cursor.extend_injective (Except.ok.inj hafter), hl]
    rfl

end Lexeme

end LogicLess
