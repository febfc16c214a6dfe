import LogicLess.Proofs.Tag.Surroundings

/-!
# The tags of a source

A source is scanned for its tags from left to right, without regard to lines. Nothing but the delimiters
in force is carried from one tag to the next. Lexemes have the same tags, and the same text between them
but for the white space on the lines that tags remove.
-/

namespace LogicLess

namespace Text

def isSpacing (c : Char) : Bool := isBlank c || isLineBreak c

def dense (s : List Char) : List Char := s.filter fun c => !isSpacing c

theorem dense_append (s t : List Char) : dense (s ++ t) = dense s ++ dense t := List.filter_append ..

theorem dense_eq_nil {s : List Char} (h : ∀ c ∈ s, isSpacing c = true) : dense s = [] := by
  simpa [dense] using h

theorem isSpacing_of_isBlank {c : Char} (h : isBlank c = true) : isSpacing c = true := by
  rw [isSpacing, h, Bool.true_or]

theorem isSpacing_of_blankLineEnd? {s tail : List Char} (h : blankLineEnd? s = some tail) :
    ∀ c ∈ tail, isSpacing c = true := by
  have hblank : ∀ c ∈ s.takeWhile isBlank, isSpacing c = true := fun c hc =>
    isSpacing_of_isBlank (List.all_eq_true.1 List.all_takeWhile c hc)
  have hends : ∀ c ∈ ['\r', '\n'], isSpacing c = true := by
    simp [isSpacing, isLineBreak]
  intro c hc
  simp only [blankLineEnd?] at h
  split at h
  · exact hblank c (Option.some.inj h ▸ hc)
  · rw [← Option.some.inj h] at hc
    exact (List.mem_append.1 hc).elim (hblank c) fun hc => hends c (List.mem_cons_of_mem _ hc)
  · rw [← Option.some.inj h] at hc
    exact (List.mem_append.1 hc).elim (hblank c) (hends c)
  · cases h

theorem isSpacing_of_mem_delimiter {s : List Char} (h : isDelimiter s = true) {c : Char}
    (hc : c ∈ s) : isSpacing c = false := by
  have hwhite := Delimiters.not_isWhitespace_of_mem h hc
  rw [← Bool.not_eq_true] at hwhite ⊢
  intro hspacing
  refine hwhite ?_
  simp only [isSpacing, isLineBreak, Bool.or_eq_true, beq_iff_eq] at hspacing
  rcases hspacing with hblank | rfl | rfl
  · exact isWhitespace_of_isBlank hblank
  · decide
  · decide

theorem cutAt?_append_left {needle s : List Char} (hne : needle ≠ []) (h : ∀ c ∈ s, c ∉ needle)
    (t : List Char) : cutAt? needle (s ++ t) = (cutAt? needle t).map fun (b, a) => (s ++ b, a) := by
  induction s with
  | nil => simp
  | cons c s ih =>
    have hprefix : ¬ needle.isPrefixOf (c :: (s ++ t)) = true := by
      obtain ⟨x, rest, rfl⟩ := List.exists_cons_of_ne_nil hne
      rw [List.isPrefixOf_iff_prefix, List.cons_prefix_cons]
      rintro ⟨rfl, -⟩
      exact h x (by simp) (by simp)
    rw [List.cons_append, cutAt?, if_neg hprefix, ih fun x hx => h x (List.mem_cons_of_mem c hx),
      Option.map_map]
    rfl

theorem onlyAtEnd_of_cutAt? {needle s before after : List Char}
    (h : cutAt? needle s = some (before, after)) : OnlyAtEnd needle before := by
  induction s generalizing before with
  | nil =>
    simp only [cutAt?] at h
    split at h
    · rw [Option.some.injEq, Prod.mk.injEq] at h
      rw [← h.1]
      exact fun n hn => absurd hn (by simp)
    · cases h
  | cons c s ih =>
    have hs := append_of_cutAt? h
    rw [cutAt?] at h
    split at h
    · rw [Option.some.injEq, Prod.mk.injEq] at h
      rw [← h.1]
      exact fun n hn => absurd hn (by simp)
    · next hprefix =>
      simp only [Option.map_eq_some_iff, Prod.exists, Prod.mk.injEq] at h
      obtain ⟨b, a, hb, rfl, rfl⟩ := h
      rintro (_ | n) hn hp
      · rw [List.isPrefixOf_iff_prefix, hs] at hprefix
        exact hprefix (hp.trans (List.prefix_append _ _))
      · exact ih hb n (by simpa using hn) (by simpa using hp)

end Text

def Ending.dense : Ending → Ending
  | complete text d => complete (Text.dense text) d
  | broken fault => broken fault

def Ending.shift (n : Nat) : Ending → Ending
  | complete text d => complete text d
  | broken fault => broken (fault.shift n)

namespace Tag

section

variable [Alphabet]

/-- The text up to the next tag, the tag, and the place behind it with the delimiters then in force. -/
def next? (c : Cursor) : Except Fault (Option (List Char × Tag × Cursor)) :=
  match Text.cutAt? c.delimiters.opening c.rest with
  | none => .ok none
  | some (before, _) => do
    let (tag, close) ← read (c.advance before.length)
    let next ← close.afterTag tag
    pure (some (before, tag, next))

variable {c next : Cursor} {before : List Char} {tag : Tag}

theorem next?_eq_some_iff : next? c = .ok (some (before, tag, next)) ↔ ∃ rest close,
    Text.cutAt? c.delimiters.opening c.rest = some (before, rest) ∧
      read (c.advance before.length) = .ok (tag, close) ∧ close.afterTag tag = .ok next := by
  unfold next?
  constructor
  · intro h
    split at h
    · cases h
    · next before' rest hcut =>
      obtain ⟨⟨tag', close⟩, hread, h⟩ := bind_eq_ok h
      obtain ⟨next', hafter, h⟩ := bind_eq_ok h
      simp only [pure, Except.pure, Except.ok.injEq, Option.some.injEq, Prod.mk.injEq] at h
      obtain ⟨rfl, rfl, rfl⟩ := h
      exact ⟨rest, close, hcut, hread, hafter⟩
  · rintro ⟨rest, close, hcut, hread, hafter⟩
    simp only [hcut, hread, hafter, bind, Except.bind, pure, Except.pure]

theorem exists_of_next? (h : next? c = .ok (some (before, tag, next))) : ∃ inner,
    Cursor.Passes c (before ++ (c.delimiters.opening ++ inner ++ c.delimiters.closing)) next ∧
      tag.region = ⟨c.offset + Text.byteSize before, next.offset⟩ ∧
      tag.delimiters = c.delimiters ∧ (tag.sigil ≠ .equals → next.delimiters = c.delimiters) := by
  obtain ⟨rest, close, hcut, hread, hafter⟩ := next?_eq_some_iff.1 h
  have hrest := Text.append_of_cutAt? hcut
  rw [List.append_assoc] at hrest
  obtain ⟨inner, hinner, hd, hregion, hdelimiters⟩ :=
    passes_of_read (Cursor.rest_advance hrest) hread
  have hplace := Cursor.passes_of_afterTag hafter
  have hpasses := ((Cursor.passes_advance hrest).trans hinner).trans hplace
  rw [List.append_nil] at hpasses
  refine ⟨inner, hpasses, ?_, hdelimiters, fun hsigil => ?_⟩
  · have hoffset := hplace.offset_eq
    rw [hregion, (Cursor.passes_advance hrest).offset_eq, hoffset]
    rfl
  · rw [Cursor.afterTag, if_neg hsigil] at hafter
    rw [← Except.ok.inj hafter, hd]
    rfl

theorem length_rest_of_next? (h : next? c = .ok (some (before, tag, next))) :
    next.rest.length < c.rest.length := by
  obtain ⟨inner, hpasses, -⟩ := exists_of_next? h
  have hpos := c.delimiters.opening_length_pos
  rw [hpasses.rest_eq]
  simp only [List.length_append]
  omega

/-- The tags from the cursor on, each with the text between it and the tag before, and how the source
ends. The scan stops at a tag that cannot be read. -/
def scan (c : Cursor) : List (List Char × Tag) × Ending :=
  match _h : next? c with
  | .error fault => ([], .broken fault)
  | .ok none => ([], .complete c.rest c.delimiters)
  | .ok (some (before, tag, next)) =>
    let (tags, ending) := scan next
    ((before, tag) :: tags, ending)
termination_by c.rest.length
decreasing_by exact length_rest_of_next? _h

theorem scan_of_error {fault : Fault} (h : next? c = .error fault) :
    scan c = ([], .broken fault) := by
  rw [scan]
  split <;> simp_all

theorem scan_of_none (h : next? c = .ok none) : scan c = ([], .complete c.rest c.delimiters) := by
  rw [scan]
  split <;> simp_all

theorem scan_of_some (h : next? c = .ok (some (before, tag, next))) :
    scan c = ((before, tag) :: (scan next).1, (scan next).2) := by
  rw [scan]
  split <;> simp_all

theorem pairwise_scan (c : Cursor) :
    (∀ p ∈ (scan c).1, c.offset ≤ p.2.region.start ∧ p.2.region.start ≤ p.2.region.stop) ∧
      (scan c).1.Pairwise fun p q => p.2.region.stop ≤ q.2.region.start := by
  induction c using scan.induct with
  | case1 c fault h => simp [scan_of_error h]
  | case2 c h => simp [scan_of_none h]
  | case3 c before tag next h _ _ _ ih =>
    obtain ⟨hstart, hpairwise⟩ := ih
    obtain ⟨inner, hpasses, hregion, -⟩ := exists_of_next? h
    have hoffset := hpasses.offset_eq
    rw [Text.byteSize_append] at hoffset
    rw [scan_of_some h]
    refine ⟨fun p hp => ?_, List.pairwise_cons.2 ⟨fun p hp => ?_, hpairwise⟩⟩
    · rcases List.mem_cons.1 hp with rfl | hp
      · simp only [hregion]
        omega
      · have := hstart p hp
        omega
    · rw [hregion]
      exact (hstart p hp).1

theorem scan_behind (front : List Char) (c : Cursor) :
    scan (c.behind front) =
      ((scan c).1.map fun p => (p.1, p.2.shift (Text.byteSize front)),
        (scan c).2.shift (Text.byteSize front)) := by
  have hnext : ∀ c : Cursor, next? (c.behind front) =
      ((next? c).map (Option.map fun (before, tag, next) =>
        (before, tag.shift (Text.byteSize front), next.behind front))).mapError
          (Fault.shift (Text.byteSize front)) := by
    intro c
    simp only [next?, Cursor.delimiters_behind, Cursor.rest_behind, Cursor.advance_behind,
      read_behind]
    split
    · rfl
    · next before _ _ =>
      rcases read (c.advance before.length) with fault | ⟨tag, close⟩
      · rfl
      · simp only [Except.map, Except.mapError, bind, Except.bind, Cursor.afterTag_behind]
        cases close.afterTag tag <;> rfl
  induction c using scan.induct with
  | case1 c fault h =>
    rw [scan_of_error h, scan_of_error (by rw [hnext, h]; rfl)]
    rfl
  | case2 c h =>
    rw [scan_of_none h, scan_of_none (by rw [hnext, h]; rfl)]
    rfl
  | case3 c before tag next h _ _ _ ih =>
    rw [scan_of_some h, scan_of_some (by rw [hnext, h]; rfl), ih]
    rfl

theorem exists_of_scan_cons {p : List Char × Tag} {tags : List (List Char × Tag)} {ending : Ending}
    (h : scan c = (p :: tags, ending)) :
    ∃ next, next? c = .ok (some (p.1, p.2, next)) ∧ scan next = (tags, ending) := by
  rcases hnext : next? c with fault | _ | ⟨before, tag, next⟩
  · rw [scan_of_error hnext] at h
    cases h
  · rw [scan_of_none hnext] at h
    cases h
  · rw [scan_of_some hnext] at h
    simp only [Prod.mk.injEq, List.cons.injEq] at h
    obtain ⟨⟨rfl, rfl⟩, rfl⟩ := h
    exact ⟨next, rfl, rfl⟩

private theorem exists_front_of_next? (h : next? c = .ok (some (before, tag, next))) :
    ∃ front back, c = Cursor.extend back front ∧ front.rest = before ∧ next? front = .ok none := by
  obtain ⟨rest, close, hcut, -⟩ := next?_eq_some_iff.1 h
  have hrest := Text.append_of_cutAt? hcut
  rw [List.append_assoc] at hrest
  refine ⟨{ c with rest := before }, c.delimiters.opening ++ rest, Cursor.eq_extend hrest, rfl, ?_⟩
  have hnot := Text.OnlyAtEnd.not_infix (Text.onlyAtEnd_of_cutAt? hcut) c.delimiters.opening_ne_nil
  have hnone := Text.cutAt?_eq_none c.delimiters.opening_ne_nil hnot
  simp only [next?, hnone]

private theorem exists_next?_of_extend {back : List Char}
    (h : next? c = .ok (some (before, tag, next.extend back))) (hsigil : tag.sigil ≠ .equals) :
    ∃ front, c = Cursor.extend back front ∧ next? front = .ok (some (before, tag, next)) ∧
      next.offset + Text.byteSize next.rest = c.offset + Text.byteSize front.rest := by
  obtain ⟨rest, close, hcut, hread, hafter⟩ := next?_eq_some_iff.1 h
  obtain ⟨inner, hpasses, -⟩ := exists_of_next? h
  have hclose : close = next.extend back := by
    rw [Cursor.afterTag, if_neg hsigil] at hafter
    exact Except.ok.inj hafter
  let front : Cursor := { c with
    rest := before ++ c.delimiters.opening ++ (inner ++ c.delimiters.closing ++ next.rest) }
  have hfront : c = front.extend back := by
    refine Cursor.eq_extend ?_
    rw [hpasses.rest_eq]
    simp
  have hplace : front.rest = before ++ (c.delimiters.opening ++
      (inner ++ c.delimiters.closing ++ next.rest)) := List.append_assoc ..
  refine ⟨front, hfront, next?_eq_some_iff.2
    ⟨inner ++ c.delimiters.closing ++ next.rest, next, ?_, ?_, ?_⟩, ?_⟩
  · exact Text.cutAt?_append c.delimiters.opening_ne_nil (Text.onlyAtEnd_of_cutAt? hcut) _
  · refine read_of_extend back ?_ ?_
    · rw [Cursor.rest_advance hplace]
      exact List.prefix_append _ _
    · rw [← Cursor.advance_extend (by simp [hplace]), ← hfront, hread, hclose]
  · rw [Cursor.afterTag, if_neg hsigil]
  · have hoffset := hpasses.offset_eq
    simp only [Cursor.offset_extend] at hoffset
    rw [hoffset, hplace]
    simp only [Text.byteSize_append]
    omega

/-- What stands before a tag is scanned the same way without the tag and all that follows it, as long as
the delimiters stay the same. -/
theorem exists_scan_eq {tags rest : List (List Char × Tag)} {ending : Ending}
    (h : scan c = (tags ++ (before, tag) :: rest, ending))
    (hfixed : ∀ p ∈ tags, p.2.sigil ≠ .equals) :
    ∃ front back, c = Cursor.extend back front ∧
      scan front = (tags, .complete before c.delimiters) ∧
      tag.region.start = c.offset + Text.byteSize front.rest ∧ tag.delimiters = c.delimiters := by
  -- The text behind is found at the last of the tags and handed on to the ones before it.
  induction tags generalizing c with
  | nil =>
    obtain ⟨next, hnext, -⟩ := exists_of_scan_cons h
    obtain ⟨front, back, rfl, hrest, hnone⟩ := exists_front_of_next? hnext
    obtain ⟨inner, -, hregion, hdelimiters, -⟩ := exists_of_next? hnext
    refine ⟨front, back, rfl, ?_, by rw [hregion, hrest], hdelimiters⟩
    rw [scan_of_none hnone, hrest]
    rfl
  | cons p tags ih =>
    obtain ⟨next, hnext, hscan⟩ := exists_of_scan_cons h
    have hsigil := hfixed p (by simp)
    obtain ⟨front, back, rfl, hfront, hstart, hdelimiters⟩ :=
      ih hscan fun q hq => hfixed q (List.mem_cons_of_mem p hq)
    obtain ⟨-, -, -, -, hsame⟩ := exists_of_next? hnext
    obtain ⟨whole, rfl, hwhole, hoffset⟩ := exists_next?_of_extend hnext hsigil
    refine ⟨whole, back, rfl, ?_, hstart.trans hoffset, hdelimiters.trans (hsame hsigil)⟩
    rw [scan_of_some hwhole, hfront, hsame hsigil]

end

/-- Between `before` and `after` the tag stands in a source, with nothing else in it than blanks and what
it takes in of the text in front of its closing delimiter. -/
structure Spelled (tag : Tag) (source before lead trail marker after : List Char) : Prop where
  source_eq : source = before ++ (tag.spelling lead trail marker ++ after)
  region_eq : tag.region =
    ⟨Text.byteSize before, Text.byteSize before + Text.byteSize (tag.spelling lead trail marker)⟩
  lead_blank : ∀ c ∈ lead, Text.isBlank c = true
  trail_blank : ∀ c ∈ trail, Text.isBlank c = true
  takesIn : tag.delimiters.TakesIn marker after

theorem exists_spelled_of_mem_scan [Alphabet] {source : List Char} {p : List Char × Tag}
    (hc : c.source = source) (hp : p ∈ (scan c).1) : ∃ before lead trail marker after,
      p.2.Spelled source before lead trail marker after := by
  induction c using scan.induct with
  | case1 c fault h => simp [scan_of_error h] at hp
  | case2 c h => simp [scan_of_none h] at hp
  | case3 c before tag next h _ _ _ ih =>
    obtain ⟨_, hpasses, -⟩ := exists_of_next? h
    rw [scan_of_some h] at hp
    rcases List.mem_cons.1 hp with rfl | hp
    · obtain ⟨rest, close, hcut, hread, -⟩ := next?_eq_some_iff.1 h
      have hrest := Text.append_of_cutAt? hcut
      rw [List.append_assoc] at hrest
      have hplace := Cursor.passes_advance hrest
      obtain ⟨lead, trail, marker, hspelling, -, hd, hregion, hlead, htrail, htakesIn⟩ :=
        exists_spelling_of_read (Cursor.rest_advance hrest) hread
      refine ⟨c.seen.reverse ++ before, lead, trail, marker, close.rest, ?_, ?_, hlead, htrail,
        hd ▸ htakesIn⟩
      · rw [← hc, Cursor.source, hplace.rest_eq, hspelling.rest_eq, List.append_assoc]
      · rw [hregion, hspelling.offset_eq, hplace.offset_eq, c.offset_eq]
        simp
    · exact ih (hpasses.source_eq.trans hc) hp

end Tag

end LogicLess
