import LogicLess.Proofs.Lexeme.Locality
import LogicLess.Proofs.Token.Placement
import LogicLess.Proofs.Token.Spans

/-!
# Blanks behind an opening delimiter

Blanks put directly behind the opening delimiter of a tag. A tag without a sigil is read as before, and
what follows it is only moved. In a tag with a sigil they stand before the sigil, which is then no longer
seen as one, so that the tag cannot be read.
-/

namespace LogicLess

namespace Lexeme

variable [Alphabet] {c : Cursor} {back : List Char} {l : Lexeme} {front more : List Lexeme}
  {ending : Ending}

/-- The text `back` begins behind the opening delimiter of the tag of a lexeme, which is read from `place` on
after the text `gap`. -/
structure CutBehind (l : Lexeme) (place : Cursor) (gap back : List Char) (close next : Cursor) : Prop where
  rest_eq : place.rest = gap ++ place.delimiters.opening
  onlyAtEnd : Text.OnlyAtEnd place.delimiters.opening gap
  settled : (place.extend back).Settled
  read_eq : Tag.read ((place.extend back).advance gap.length) = .ok (l.tag, close)
  lexeme_eq : (ofTag (place.extend back) gap l.tag close).1 = l
  afterTag_eq : (ofTag (place.extend back) gap l.tag close).2.afterTag l.tag = .ok next

theorem exists_cutBehind_of_read? {next : Cursor} (hc : (c.extend back).Settled)
    (h : read? (c.extend back) = .ok (some (l, next)))
    (hcut : l.tag.region.start + Text.byteSize l.tag.delimiters.opening =
      c.offset + Text.byteSize c.rest) :
    ∃ gap close, l.CutBehind c gap back close next := by
  obtain ⟨gap, rest, close, hgap, hread, hl, hafter⟩ := exists_ofTag_of_read? hc h
  have hrest := Text.append_of_cutAt? hgap
  have hplace := Cursor.passes_advance (hrest.trans (List.append_assoc ..))
  obtain ⟨_, _, -, hregion, hdelimiters⟩ :=
    Tag.passes_of_read (Cursor.rest_advance (hrest.trans (List.append_assoc ..))) hread
  refine ⟨gap, close, ?_, Text.onlyAtEnd_of_cutAt? hgap, hc, hread, hl, hafter⟩
  refine (Text.append_inj_of_byteSize hrest ?_).1
  have hoffset := hplace.offset_eq
  rw [hregion, hdelimiters, hoffset] at hcut
  simp only [Cursor.offset_extend, Cursor.delimiters_extend, Cursor.delimiters_advance,
    Text.byteSize_append] at hcut ⊢
  omega

theorem CutBehind.exists_mem {place close next : Cursor} {gap : List Char}
    (h : l.CutBehind place gap back close next) : ∃ x ∈ place.rest, Text.isSpacing x = false := by
  obtain ⟨x, opening, hopening⟩ := List.exists_cons_of_ne_nil place.delimiters.opening_ne_nil
  have hx : x ∈ place.delimiters.opening := by simp [hopening]
  exact ⟨x, h.rest_eq ▸ List.mem_append_right gap hx,
    Text.isSpacing_of_mem_delimiter place.delimiters.opening_ok hx⟩

/-- The lexemes before a tag that the text `back` begins inside of are read with any other text there. -/
theorem exists_readAll_extend (hc : (c.extend back).Settled)
    (h : readAll (c.extend back) = (front ++ l :: more, ending))
    (hcut : l.tag.region.start + Text.byteSize l.tag.delimiters.opening =
      c.offset + Text.byteSize c.rest) :
    ∃ place gap close next, l.CutBehind place gap back close next ∧ place.rest <:+ c.rest ∧
      readAll next = (more, ending) ∧ ∀ back', readAll (c.extend back') =
        (front ++ (readAll (place.extend back')).1, (readAll (place.extend back')).2) := by
  induction front generalizing c with
  | nil =>
    obtain ⟨next, hread, hmore⟩ := exists_of_readAll_cons h
    obtain ⟨gap, close, hplace⟩ := exists_cutBehind_of_read? hc hread hcut
    exact ⟨c, gap, close, next, hplace, List.suffix_rfl, hmore, fun back' => rfl⟩
  | cons first front ih =>
    obtain ⟨next, hread, hmore⟩ := exists_of_readAll_cons h
    obtain ⟨passed, hpasses, hsettled⟩ : ∃ passed, Cursor.Passes (c.extend back) passed next ∧
        next.Settled := by
      obtain ⟨_, _, _, _, hspans⟩ := exists_spans_of_read? hc hread
      exact ⟨_, hspans.passes, hspans.settled⟩
    have hstart : next.offset ≤ l.tag.region.start := by
      refine (pairwise_resume next hsettled).1 l ?_
      rw [hmore]
      simp
    have hoffset : next.offset = c.offset + Text.byteSize passed := hpasses.offset_eq
    obtain ⟨ahead, hahead⟩ := Text.exists_append_of_byteSize_le hpasses.rest_eq.symm
      (by omega : Text.byteSize passed ≤ Text.byteSize c.rest)
    have hrest : next.rest = ahead ++ back := by
      have hwhole := hpasses.rest_eq
      rw [Cursor.rest_extend, hahead, List.append_assoc] at hwhole
      exact (List.append_cancel_left hwhole).symm
    have hsize := congrArg Text.byteSize hahead
    rw [Text.byteSize_append] at hsize
    rw [Cursor.eq_extend hrest] at hread hmore hsettled
    obtain ⟨place, gap, close, last, hplace, hsuffix, hlast, hothers⟩ :=
      ih hsettled hmore (by simp only; omega)
    obtain ⟨x, hx, hspacing⟩ := hplace.exists_mem
    have hfirst := read?_extend hc hread (hsuffix.subset hx) hspacing
    refine ⟨place, gap, close, last, hplace, ?_, hlast, fun back' => ?_⟩
    · exact hsuffix.trans ⟨passed, hahead.symm⟩
    · rw [readAll_of_some (hfirst back'), hothers back']
      rfl

theorem readAll_of_rest_eq {c' : Cursor} {n : Nat} {p : Char} (hc : c.Settled)
    (hrest : c'.rest = c.rest) (hdelimiters : c'.delimiters = c.delimiters)
    (hseen : c.seen.head? = some p) (hseen' : c'.seen.head? = some p)
    (hoffset : c'.offset = n + c.offset) :
    readAll c' = ((readAll c).1.map (shift n), (readAll c).2.shift n) := by
  obtain ⟨s, hs⟩ := List.head?_eq_some_iff.1 hseen
  obtain ⟨s', hs'⟩ := List.head?_eq_some_iff.1 hseen'
  let base : Cursor := ⟨[p], c.rest, c.delimiters, Text.byteSize [p], rfl⟩
  have hbehind : ∀ {e : Cursor} {t : List Char}, e.rest = c.rest → e.delimiters = c.delimiters →
      e.seen = p :: t → e = base.behind t.reverse := by
    rintro ⟨seen, rest, d, offset, rfl⟩ t rfl rfl rfl
    simp [base, Cursor.behind, Text.byteSize, Nat.add_comm]
  have hbase : base.Settled := by
    refine hc.imp_right fun hblank x hx => hblank x ?_
    rwa [hs]
  have hlines : ∀ t : List Char, base.KeepsLines t := fun t => .inr (by simp [base])
  have hsize : Text.byteSize s' = n + Text.byteSize s := by
    rw [c'.offset_eq, c.offset_eq, hs, hs', Text.byteSize, Text.byteSize] at hoffset
    omega
  rw [hbehind hrest hdelimiters hs', hbehind rfl rfl hs, readAll_behind base hbase (hlines _),
    readAll_behind base hbase (hlines _), Text.byteSize_reverse, Text.byteSize_reverse, hsize]
  simp only [List.map_map, Function.comp_def, shift_shift, Ending.shift_shift]

end Lexeme

namespace Tag

variable [Alphabet] {c close : Cursor} {tag : Tag} {rest : List Char}

theorem exists_keyed {sigil : Sigil} (hkey : sigil.isFreeText = false) (inside : Cursor)
    (hne : contentAt sigil (inside.skipWhile Text.isBlank) ≠ []) : ∃ lead trail,
      Keyed sigil lead (contentAt sigil (inside.skipWhile Text.isBlank)) trail
        (contentEnd sigil inside).rest ∧
      inside.rest = lead ++ (contentAt sigil (inside.skipWhile Text.isBlank) ++
        (trail ++ (contentEnd sigil inside).rest)) := by
  have hlead := (inside.passes_skipWhile Text.isBlank).rest_eq
  unfold contentEnd
  generalize inside.skipWhile Text.isBlank = begun at hlead hne ⊢
  have hcontent : contentAt sigil begun = begun.rest.takeWhile sigil.isContentChar := by
    rw [contentAt, if_neg (by simp [hkey])]
  have hmiddle := (List.takeWhile_append_dropWhile (p := sigil.isContentChar) (l := begun.rest)).symm
  have hbehind := Cursor.rest_advance hmiddle
  rw [← hcontent] at hmiddle hbehind
  dsimp only
  generalize begun.advance (contentAt sigil begun).length = behind at hbehind ⊢
  have htrail := (behind.passes_skipWhile Text.isBlank).rest_eq
  refine ⟨inside.rest.takeWhile Text.isBlank, behind.rest.takeWhile Text.isBlank, {
    sigil_eq := hkey
    lead_blank := List.all_eq_true.1 List.all_takeWhile
    key_ne := hne
    key_chars := hcontent ▸ List.all_eq_true.1 List.all_takeWhile
    trail_blank := List.all_eq_true.1 List.all_takeWhile
    key_ends := fun x hx => ?_
    rest_not_blank := fun x hx => ?_ }, ?_⟩
  · rw [← htrail, hbehind] at hx
    simpa [hx] using List.head?_dropWhile_not sigil.isContentChar begun.rest
  · rw [Cursor.rest_skipWhile] at hx
    simpa [hx] using List.head?_dropWhile_not Text.isBlank behind.rest
  · rw [← htrail, hbehind, ← hmiddle]
    exact hlead

theorem exists_keyed_of_read (hrest : c.rest = c.delimiters.opening ++ rest)
    (h : read c = .ok (tag, close)) (hkey : tag.sigil.isFreeText = false) :
    ∃ lead trail after n, Keyed tag.sigil lead tag.content trail after ∧
      rest = tag.sigil.mark ++ (lead ++ (tag.content ++ (trail ++ after))) ∧
      c.delimiters.closeLength? after = some n ∧ close.rest = after.drop n := by
  obtain ⟨sigil, inside, n, htaken, hn, hcontent, rfl, rfl⟩ := read_eq_ok_iff.1 h
  obtain ⟨hmark, -⟩ := (c.advance c.delimiters.opening.length).passes_takeSigil
  rw [htaken] at hmark
  have hinside := hmark.rest_eq
  rw [Cursor.rest_advance hrest] at hinside
  have hfree : sigil.isFreeText = false := hkey
  obtain ⟨lead, trail, hkeyed, htext⟩ := exists_keyed hfree inside (by simpa [hfree] using hcontent)
  exact ⟨lead, trail, _, n, hkeyed, htext ▸ hinside, hn, rfl⟩

theorem exists_read_of_plain (c' : Cursor) {blanks : List Char}
    (hrest : c.rest = c.delimiters.opening ++ rest) (h : read c = .ok (tag, close))
    (hplain : tag.sigil = .plain) (hdelimiters : c'.delimiters = c.delimiters)
    (hrest' : c'.rest = c'.delimiters.opening ++ (blanks ++ rest))
    (hblank : ∀ x ∈ blanks, Text.isBlank x = true) :
    ∃ close', read c' = .ok ({ tag with region := ⟨c'.offset, close'.offset⟩ }, close') ∧
      close'.rest = close.rest := by
  obtain ⟨lead, trail, after, n, hkeyed, rfl, hn, hclose⟩ :=
    exists_keyed_of_read hrest h (by rw [hplain]; rfl)
  obtain ⟨-, -, -, -, hd⟩ := passes_of_read hrest h
  obtain ⟨sigil, content, region, d⟩ := tag
  obtain rfl : sigil = .plain := hplain
  obtain rfl : d = c.delimiters := hd
  have hlead : ∀ x ∈ blanks ++ lead, Text.isBlank x = true := fun x hx =>
    (List.mem_append.1 hx).elim (hblank x) (hkeyed.lead_blank x)
  have hplace : c'.rest = (c'.delimiters.opening ++
      (Sigil.plain.mark ++ (blanks ++ lead ++ (content ++ trail)))) ++ after := by
    rw [hrest']
    simp [Sigil.mark]
  have hread := read_keyed { hkeyed with lead_blank := hlead } hplace
  simp only [hdelimiters, hn] at hread
  refine ⟨_, hread, ?_⟩
  have hended := Cursor.rest_advance hplace
  rw [hdelimiters] at hended
  rw [hclose, ← hended]
  rfl

/-- Blanks behind the opening delimiter hide a sigil, so that no key is found. -/
theorem read_of_sigil {x : Char} {blanks : List Char}
    (hrest : c.rest = c.delimiters.opening ++ (blanks ++ x :: rest)) (hne : blanks ≠ [])
    (hblank : ∀ x ∈ blanks, Text.isBlank x = true) (hx : Sigil.ofChar? x ≠ none) :
    ∃ fault, read c = .error fault ∧
      (fault = .unclosedTag ⟨c.offset, c.offset + Text.byteSize (c.delimiters.opening ++ blanks)⟩
          c.delimiters.closing ∨
        ∃ stop, fault = .emptyTag ⟨c.offset, stop⟩) := by
  have hnotBlank : Text.isBlank x = false := by
    rw [← Bool.not_eq_true]
    exact fun h => hx (Sigil.ofChar?_of_isBlank h)
  have hnotKey : isKeyChar x = false := by
    rw [← Bool.not_eq_true]
    exact fun h => hx (Sigil.ofChar?_of_isKeyChar h)
  have hinside := Cursor.rest_advance hrest
  have hsigil := @Cursor.takeSigil_mark _ .plain _ hinside fun _ y hy => by
    obtain ⟨z, blanks, rfl⟩ := List.exists_cons_of_ne_nil hne
    rw [← Option.some.inj hy]
    exact Sigil.ofChar?_of_isBlank (hblank z (by simp))
  rw [Sigil.mark, List.length_nil, Cursor.advance_zero] at hsigil
  have hbegun := Cursor.skipWhile_eq hinside hblank fun y hy => by
    rw [← Option.some.inj hy, hnotBlank]
  have hempty : (Sigil.isContentChar .plain x) = false := by simp [Sigil.isContentChar, hnotKey]
  have hoffset := (Cursor.passes_advance (hrest.trans (List.append_assoc ..).symm)).offset_eq
  have hended := Cursor.rest_advance hinside
  rw [Cursor.advance_advance] at hbegun hended
  rw [List.length_append] at hoffset
  generalize c.advance (c.delimiters.opening.length + blanks.length) = ended at hbegun hended hoffset
  have hcontent : contentAt .plain ended = [] := by
    rw [contentAt, if_neg (by decide), hended, List.takeWhile_cons_of_neg (by simp [hempty])]
  have hstay := Cursor.skipWhile_eq_self (c := ended) (p := Text.isBlank) fun y hy => by
    rw [hended] at hy
    rw [← Option.some.inj hy, hnotBlank]
  simp only [read, hsigil, hbegun, hcontent, List.length_nil, Cursor.advance_zero, hstay]
  cases c.delimiters.closeLength? ended.rest with
  | none => exact ⟨_, rfl, .inl (by rw [hoffset])⟩
  | some n => exact ⟨_, rfl, .inr ⟨_, rfl⟩⟩

end Tag

/-- Where a place of a source is once `n` bytes are put in at the place `gap`. -/
def Region.spreadPlace (gap n place : Nat) : Nat := if place < gap then place else n + place

def Region.spread (gap n : Nat) (r : Region) : Region :=
  ⟨spreadPlace gap n r.start, spreadPlace gap n r.stop⟩

def Lexeme.spread (gap n : Nat) (l : Lexeme) : Lexeme :=
  { l with
    tag := { l.tag with region := l.tag.region.spread gap n }
    resume := Region.spreadPlace gap n l.resume }

namespace Lexeme

variable {d : Delimiters} {source front back blanks : List Char} {before more : List Lexeme} {l : Lexeme}
  {ending : Ending} {gap n : Nat}

theorem spread_eq_self (hstart : l.tag.region.start < gap) (hstop : l.tag.region.stop < gap)
    (hresume : l.resume < gap) : l.spread gap n = l := by
  simp only [spread, Region.spread, Region.spreadPlace, if_pos hstart, if_pos hstop, if_pos hresume]

theorem spread_eq_shift (hstart : gap ≤ l.tag.region.start) (hstop : gap ≤ l.tag.region.stop)
    (hresume : gap ≤ l.resume) : l.spread gap n = l.shift n := by
  simp only [spread, Region.spread, Region.spreadPlace, if_neg (Nat.not_lt.2 hstart),
    if_neg (Nat.not_lt.2 hstop), if_neg (Nat.not_lt.2 hresume)]
  rfl

variable [Alphabet]

/-- Bytes that are put in at a place inside of a tag leave the lexemes before it alone and move those behind
it. -/
theorem Standing.map_spread (h : Standing d source (before ++ l :: more))
    (hstart : l.tag.region.start < gap) (hstop : gap ≤ l.tag.region.stop) :
    (before ++ l :: more).map (spread gap n) =
      before ++ { l with
        tag := { l.tag with region := ⟨l.tag.region.start, n + l.tag.region.stop⟩ }
        resume := n + l.resume } :: more.map (shift n) := by
  have hresume := (List.pairwise_append.1 h.resume_le).2.2
  have hordered := h.ordered.pairwise
  rw [List.map_append, List.map_cons, List.pairwise_append, List.pairwise_cons] at hordered
  have hplaces : ∀ l' ∈ before ++ l :: more, l'.tag.region.start ≤ l'.tag.region.stop ∧
      l'.tag.region.stop ≤ l'.resume := fun l' hl' =>
    ⟨h.ordered.start_le l'.tag (List.mem_map_of_mem hl'), h.stop_le_resume hl'⟩
  have hbefore : before.map (spread gap n) = before := by
    refine (List.map_congr_left fun l' hl' => ?_).trans (List.map_id' before)
    have hle := hresume l' hl' l List.mem_cons_self
    obtain ⟨hself, hself'⟩ := hplaces l' (by simp [hl'])
    exact spread_eq_self (by omega) (by omega) (by omega)
  have hmore : more.map (spread gap n) = more.map (shift n) := by
    refine List.map_congr_left fun l' hl' => ?_
    have hle := hordered.2.1.1 l'.tag (List.mem_map_of_mem hl')
    obtain ⟨hself, hself'⟩ := hplaces l' (by simp [hl'])
    exact spread_eq_shift (by omega) (by omega) (by omega)
  obtain ⟨-, hself⟩ := hplaces l (by simp)
  rw [List.map_append, List.map_cons, hbefore, hmore]
  simp only [spread, Region.spread, Region.spreadPlace, if_pos hstart, if_neg (Nat.not_lt.2 hstop),
    if_neg (Nat.not_lt.2 (Nat.le_trans hstop hself))]

section CutBehind

variable {place close next : Cursor} {gap : List Char}

theorem CutBehind.rest_extend_eq (h : l.CutBehind place gap back close next) (text : List Char) :
    (place.extend text).rest = gap ++ (place.delimiters.opening ++ text) := by
  rw [Cursor.rest_extend, h.rest_eq, List.append_assoc]

theorem CutBehind.rest_advance_eq (h : l.CutBehind place gap back close next) (text : List Char) :
    ((place.extend text).advance gap.length).rest = place.delimiters.opening ++ text :=
  Cursor.rest_advance (h.rest_extend_eq text)

theorem CutBehind.offset_eq (h : l.CutBehind place gap back close next) (text : List Char) :
    ((place.extend text).advance gap.length).offset = place.offset + Text.byteSize gap :=
  (Cursor.passes_advance (h.rest_extend_eq text)).offset_eq

theorem CutBehind.settled_extend (h : l.CutBehind place gap back close next) (text : List Char) :
    (place.extend text).Settled :=
  h.settled.extend (by simp [h.rest_eq, place.delimiters.opening_ne_nil]) text

theorem CutBehind.cutAt?_eq (h : l.CutBehind place gap back close next) (text : List Char) :
    Text.cutAt? (place.extend text).delimiters.opening (place.extend text).rest = some (gap, text) := by
  rw [Cursor.delimiters_extend, Cursor.rest_extend, h.rest_eq]
  exact Text.cutAt?_append place.delimiters.opening_ne_nil h.onlyAtEnd text

theorem CutBehind.read?_eq_error (h : l.CutBehind place gap back close next) {text : List Char}
    {fault : Fault} (hread : Tag.read ((place.extend text).advance gap.length) = .error fault) :
    read? (place.extend text) = .error fault := by
  rw [read?_eq (h.settled_extend text) (h.cutAt?_eq text), hread]
  rfl

theorem CutBehind.readAll_plain (h : l.CutBehind place gap back close next)
    (hmore : readAll next = (more, ending)) (hplain : l.tag.sigil = .plain)
    (hblank : ∀ x ∈ blanks, Text.isBlank x = true) :
    readAll (place.extend (blanks ++ back)) =
      ({ l with
          tag := { l.tag with
            region := ⟨l.tag.region.start, Text.byteSize blanks + l.tag.region.stop⟩ }
          resume := Text.byteSize blanks + l.resume } :: more.map (shift (Text.byteSize blanks)),
        ending.shift (Text.byteSize blanks)) := by
  have hlexeme := h.lexeme_eq
  have hafter := h.afterTag_eq
  rw [ofTag_of_plain hplain] at hlexeme hafter
  rw [Cursor.afterTag, if_neg (by simp [hplain])] at hafter
  obtain rfl : close = next := Except.ok.inj hafter
  obtain ⟨close', hread, hrest⟩ := Tag.exists_read_of_plain
    ((place.extend (blanks ++ back)).advance gap.length) (h.rest_advance_eq back) h.read_eq hplain rfl
    (h.rest_advance_eq _) hblank
  obtain ⟨inner, hpasses, hdelimiters, hregion, -⟩ := Tag.passes_of_read (h.rest_advance_eq back) h.read_eq
  obtain ⟨inner', hpasses', hdelimiters', -, -⟩ := Tag.passes_of_read (h.rest_advance_eq _) hread
  have hclose : close'.offset = Text.byteSize blanks + close.offset := by
    have hsize := close.byteSize_source
    have hsize' := close'.byteSize_source
    rw [hpasses.source_eq, Cursor.source_advance] at hsize
    rw [hpasses'.source_eq, Cursor.source_advance, hrest] at hsize'
    simp only [Cursor.byteSize_source, Cursor.offset_extend, Cursor.rest_extend,
      Text.byteSize_append] at hsize hsize'
    omega
  have hlexeme' := read?_of_plain (h.settled_extend (blanks ++ back))
    (by rw [Cursor.rest_extend, h.rest_eq]; rfl) h.onlyAtEnd hread hplain
  rw [readAll_of_some hlexeme', readAll_of_rest_eq hpasses.settled hrest
    (hdelimiters'.trans hdelimiters.symm) hpasses.head?_seen hpasses'.head?_seen hclose, hmore]
  rw [← hlexeme, hclose, hregion, h.offset_eq, h.offset_eq]

theorem CutBehind.read?_hidden (h : l.CutBehind place gap back close next) (hsigil : l.tag.sigil ≠ .plain)
    (hne : blanks ≠ []) (hblank : ∀ x ∈ blanks, Text.isBlank x = true) : ∃ fault,
      read? (place.extend (blanks ++ back)) = .error fault ∧
        (fault = .unclosedTag ⟨l.tag.region.start,
            l.tag.region.start + Text.byteSize (l.tag.delimiters.opening ++ blanks)⟩
            l.tag.delimiters.closing ∨
          ∃ stop, fault = .emptyTag ⟨l.tag.region.start, stop⟩) := by
  obtain ⟨lead, trail, marker, hpasses, -, hdelimiters, hregion, -⟩ :=
    Tag.exists_spelling_of_read (h.rest_advance_eq back) h.read_eq
  have hback : ∃ x rest, back = x :: rest ∧ Sigil.ofChar? x ≠ none := by
    have hwhole := hpasses.rest_eq
    rw [h.rest_advance_eq, Tag.spelling, hdelimiters] at hwhole
    simp only [List.append_assoc] at hwhole
    have hback := List.append_cancel_left hwhole
    obtain ⟨x, hmark, hx⟩ := Sigil.exists_mark_eq hsigil
    rw [hmark] at hback
    exact ⟨x, _, hback, by simp [hx]⟩
  obtain ⟨x, rest, rfl, hx⟩ := hback
  obtain ⟨fault, hfault, hkind⟩ := Tag.read_of_sigil (h.rest_advance_eq _) hne hblank hx
  refine ⟨fault, h.read?_eq_error hfault, ?_⟩
  rw [hregion, hdelimiters, h.offset_eq]
  rwa [h.offset_eq] at hkind

end CutBehind

/-- Blanks behind the opening delimiter of a tag without a sigil move the end of the tag and the lexemes
behind it, and change nothing else. -/
theorem readAll_spaced (h : readAll (.start d (front ++ back)) = (before ++ l :: more, ending))
    (hgap : l.tag.region.start + Text.byteSize l.tag.delimiters.opening = Text.byteSize front)
    (hplain : l.tag.sigil = .plain) (hblank : ∀ x ∈ blanks, Text.isBlank x = true) :
    readAll (.start d (front ++ (blanks ++ back))) =
      ((before ++ l :: more).map (spread (Text.byteSize front) (Text.byteSize blanks)),
        ending.shift (Text.byteSize blanks)) := by
  obtain ⟨place, gap, close, next, hplace, -, hmore, hothers⟩ :=
    exists_readAll_extend (c := .start d front) (Cursor.settled_start d _)
      (show readAll ((Cursor.start d front).extend back) = _ from h)
      (by rw [hgap]; exact (Nat.zero_add _).symm)
  have hstanding := standing_readAll d (front ++ back)
  rw [h] at hstanding
  have hopening := Text.byteSize_pos l.tag.delimiters.opening_ne_nil
  have hstop := hstanding.opening_lt (l := l) (by simp)
  rw [hstanding.map_spread (by omega) (by omega)]
  refine (hothers (blanks ++ back)).trans ?_
  rw [hplace.readAll_plain hmore hplain hblank]

theorem readAll_hidden (h : readAll (.start d (front ++ back)) = (before ++ l :: more, ending))
    (hgap : l.tag.region.start + Text.byteSize l.tag.delimiters.opening = Text.byteSize front)
    (hsigil : l.tag.sigil ≠ .plain) (hne : blanks ≠ [])
    (hblank : ∀ x ∈ blanks, Text.isBlank x = true) : ∃ fault,
      readAll (.start d (front ++ (blanks ++ back))) = (before, .broken fault) ∧
        (fault = .unclosedTag ⟨l.tag.region.start, Text.byteSize (front ++ blanks)⟩
            l.tag.delimiters.closing ∨
          ∃ stop, fault = .emptyTag ⟨l.tag.region.start, stop⟩) := by
  obtain ⟨place, gap, close, next, hplace, -, -, hothers⟩ :=
    exists_readAll_extend (c := .start d front) (Cursor.settled_start d _)
      (show readAll ((Cursor.start d front).extend back) = _ from h)
      (by rw [hgap]; exact (Nat.zero_add _).symm)
  obtain ⟨fault, hfault, hkind⟩ := hplace.read?_hidden hsigil hne hblank
  rw [Text.byteSize_append, ← Nat.add_assoc, hgap, ← Text.byteSize_append] at hkind
  refine ⟨fault, (hothers (blanks ++ back)).trans ?_, hkind⟩
  rw [readAll_of_error hfault, List.append_nil]

end Lexeme

end LogicLess
