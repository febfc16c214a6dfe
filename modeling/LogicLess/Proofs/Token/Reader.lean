import LogicLess.Proofs.Lexeme.Patterns
import LogicLess.Proofs.Token.Growth

/-!
# Reading by byte offsets

A reader knows a source as a whole and its place in it as a byte offset. It cuts the source at its place in
every step, and it stops where the place is no boundary of the source or where a number is taken from a
smaller one. What it reads is what a cursor reads, so it never stops for such a reason.
-/

namespace LogicLess

/-- Why a reader stops. -/
inductive Halt
  /-- A text is cut outside of it or inside a character. -/
  | outOfRange
  /-- A number is taken from a smaller one. -/
  | underflow
  /-- No rounds are left. -/
  | exhausted
  | fault (fault : Fault)

/-- A reader of a source, with the tree in the making. -/
structure Reader where
  source : List Char
  /-- The place in bytes. -/
  place : Nat
  delimiters : Delimiters
  patterns : Patterns
  nesting : Nesting

/-- What a reader does. -/
abbrev Reading := StateT Reader (Except Halt)

def Sigil.ofText : Option (List Char) → Sigil
  | some [c] => (ofChar? c).getD .plain
  | _ => .plain

theorem Cursor.source_of_afterLine? {line c next : Cursor} {sigil : Sigil}
    (h : line.afterLine? c sigil = some next) : next.source = c.source := by
  rw [afterLine?, lineEnd?_eq] at h
  split at h
  · obtain ⟨tail, -, rfl⟩ := Option.map_eq_some_iff.1 h
    exact source_advance ..
  · cases h

namespace Reader

def start (d : Delimiters) (source : List Char) : Reader := ⟨source, 0, d, d.patterns, .empty⟩

def ofCursor (c : Cursor) (n : Nesting) : Reader :=
  ⟨c.source, c.offset, c.delimiters, c.delimiters.patterns, n⟩

section

variable (c : Cursor) (n : Nesting)

@[simp] theorem place_ofCursor : (ofCursor c n).place = c.offset := rfl

@[simp] theorem delimiters_ofCursor : (ofCursor c n).delimiters = c.delimiters := rfl

@[simp] theorem patterns_ofCursor : (ofCursor c n).patterns = c.delimiters.patterns := rfl

end

def isDone (r : Reader) : Bool := Text.byteSize r.source ≤ r.place

/-- The place after the next lexeme, or after the rest of the source if no tag is left. -/
def afterLexeme [Alphabet] (c : Cursor) (n : Nesting) : Except Fault (Bool × Reader) := do
  match ← Lexeme.read? c with
  | none => pure (false, ofCursor (c.advance c.rest.length) (n.addText c.rest))
  | some (l, next) =>
    let m ← n.addLexeme c.source l
    pure (true, ofCursor next m)

end Reader

namespace Reading

/-- The text before and after a byte offset. -/
def cut (place : Nat) (text : List Char) : Reading (List Char × List Char) :=
  match Text.splitAtByte? place text with
  | some parts => pure parts
  | none => throw .outOfRange

def minus (a b : Nat) : Reading Nat :=
  if b ≤ a then pure (a - b) else throw .underflow

def lift {α : Type} (x : Except Fault α) : Reading α :=
  match x with
  | .ok a => pure a
  | .error fault => throw (.fault fault)

def remaining : Reading (List Char) := do
  let r ← get
  let (_, rest) ← cut r.place r.source
  pure rest

def atLineStart : Reading Bool := do
  let r ← get
  if r.place = 0 then pure true
  else
    let (before, _) ← cut r.place r.source
    pure (before.getLast? == some '\n')

def pass (text : List Char) : Reading Unit :=
  modify fun r => { r with place := r.place + Text.byteSize text }

/-- Passes what a pattern takes at the place, if it is found there. -/
def scan (p : Text.Pattern) : Reading (Option (List Char)) := do
  let rest ← remaining
  match p.find? rest with
  | some (0, n) =>
    pass (rest.take n)
    pure (some (rest.take n))
  | _ => pure none

/-- Passes the text before the next match of a pattern, or all text if there is none. -/
def scanUntil (p : Text.Pattern) : Reading (List Char) := do
  let rest ← remaining
  pass (p.before rest)
  pure (p.before rest)

def scanWhile (p : Char → Bool) : Reading (List Char) := do
  let rest ← remaining
  pass (rest.takeWhile p)
  pure (rest.takeWhile p)

def addText (text : List Char) : Reading Unit :=
  modify fun r => { r with nesting := r.nesting.addText text }

def readSigil : Reading Sigil := do
  pure (Sigil.ofText (← scan .sigil))

def readContent [Alphabet] (sigil : Sigil) : Reading (List Char) := do
  let r ← get
  if sigil.isFreeText then scanUntil r.patterns.closing else scanWhile sigil.isContentChar

/-- Reads a tag from behind its opening delimiter, which begins at `start`. -/
def readTag [Alphabet] (start : Nat) : Reading Tag := do
  let sigil ← readSigil
  let _ ← scan .blanks
  let content ← readContent sigil
  let _ ← scan .blanks
  let closed ← scan (← get).patterns.closing
  let r ← get
  let region : Region := ⟨start, r.place⟩
  if closed.isNone then throw (.fault (.unclosedTag region r.delimiters.closing))
  else if content.isEmpty && !sigil.isFreeText then throw (.fault (.emptyTag region))
  else pure ⟨sigil, content, region, r.delimiters⟩

/-- Adds what a tag stands for. New delimiters take new patterns with them. -/
def addTag (tag : Tag) (indent : List Char) : Reading Unit := do
  let r ← get
  if tag.sigil = .equals then
    match Delimiters.ofContent tag.content with
    | .ok d => set { r with delimiters := d, patterns := d.patterns }
    | .error problem => throw (.fault (.badDelimiters tag.region problem))
  else
    let n ← lift (r.nesting.addTag r.source ⟨[], tag, indent, r.place⟩)
    set { r with nesting := n }

/-- Passes the rest of the line of a tag that is alone on it, and tells whether it is. -/
def endLine (lineStart : Bool) (sigil : Sigil) : Reading Bool := do
  if lineStart && sigil.mayStandAlone then
    let found ← scan .lineEnd
    pure found.isSome
  else pure false

/-- Reads a tag from behind its opening delimiter, which begins at `start` after the blanks `padding`,
and adds what it stands for. -/
def addNext [Alphabet] (lineStart : Bool) (padding : List Char) (start : Nat) : Reading Unit := do
  let tag ← readTag start
  if ← endLine lineStart tag.sigil then addTag tag padding
  else
    addText padding
    addTag tag []

/-- Passes the opening delimiter at the place with the blanks before it, if it is there. The blanks and the
place where the delimiter begins are told. -/
def readOpening : Reading (Option (List Char × Nat)) := do
  match ← scan (← get).patterns.opening with
  | none => pure none
  | some found =>
    let size := Text.byteSize (← get).delimiters.opening
    let (padding, _) ← cut (← minus (Text.byteSize found) size) found
    let start ← minus (← get).place size
    pure (some (padding, start))

/-- Reads the text up to the next tag and the tag itself, and tells whether there is a tag. -/
def next [Alphabet] : Reading Bool := do
  let text ← scanUntil (← get).patterns.opening
  addText text
  let lineStart ← atLineStart
  match ← readOpening with
  | none => pure false
  | some (padding, start) =>
    addNext lineStart padding start
    pure true

def readAll [Alphabet] : Nat → Reading Unit
  | 0 => do
    if (← get).isDone then pure () else throw .exhausted
  | rounds + 1 => do
    if (← get).isDone then pure ()
    else
      let _ ← next
      readAll rounds

variable {α β : Type} {c : Cursor} {n : Nesting} {p : Text.Pattern}

theorem run_bind_ok {act : Reading α} {r after : Reader} {a : α} (h : act.run r = .ok (a, after))
    (f : α → Reading β) : (act >>= f).run r = (f a).run after := by
  rw [StateT.run_bind, h]
  rfl

theorem run_bind_error {act : Reading α} {r : Reader} {halt : Halt} (h : act.run r = .error halt)
    (f : α → Reading β) : (act >>= f).run r = .error halt := by
  rw [StateT.run_bind, h]
  rfl

theorem run_cut (s t : List Char) (r : Reader) :
    (cut (Text.byteSize s) (s ++ t)).run r = .ok ((s, t), r) := by
  rw [cut, Text.splitAtByte?_append]
  rfl

theorem run_minus (a b : Nat) (r : Reader) : (minus (a + b) b).run r = .ok (a, r) := by
  rw [minus, if_pos (Nat.le_add_left b a), Nat.add_sub_cancel]
  rfl

theorem run_cut_offset (r : Reader) :
    (cut c.offset c.source).run r = .ok ((c.seen.reverse, c.rest), r) := by
  rw [c.offset_eq, ← Text.byteSize_reverse]
  exact run_cut ..

theorem run_remaining : remaining.run (.ofCursor c n) = .ok (c.rest, .ofCursor c n) :=
  run_bind_ok (run_cut_offset (c := c) _) fun parts => pure parts.2

theorem run_atLineStart :
    atLineStart.run (.ofCursor c n) = .ok (c.atLineStart, .ofCursor c n) := by
  change (if c.offset = 0 then (pure true : Reading Bool) else
    cut c.offset c.source >>= fun parts => pure (parts.1.getLast? == some '\n')).run _ = _
  -- A place is zero just if there is no character before it.
  cases hseen : c.seen with
  | nil =>
    have hoffset : c.offset = 0 := by rw [c.offset_eq, hseen]; rfl
    rw [if_pos hoffset, Cursor.atLineStart, hseen]
    rfl
  | cons x seen =>
    have hoffset : c.offset ≠ 0 := by
      rw [c.offset_eq]
      exact (Text.byteSize_pos (by simp [hseen])).ne'
    rw [if_neg hoffset, run_bind_ok (run_cut_offset _), Cursor.atLineStart, hseen]
    simp only [List.getLast?_reverse, List.head?_cons]
    rfl

theorem run_pass_take (k : Nat) :
    (pass (c.rest.take k)).run (.ofCursor c n) = .ok ((), .ofCursor (c.advance k) n) := by
  have hplace : Reader.ofCursor (c.advance k) n =
      { Reader.ofCursor c n with place := c.offset + Text.byteSize (c.rest.take k) } := by
    rw [Reader.ofCursor, Cursor.source_advance]
    rfl
  rw [hplace]
  rfl

theorem run_pass {s : List Char} (h : s <+: c.rest) :
    (pass s).run (.ofCursor c n) = .ok ((), .ofCursor (c.advance s.length) n) := by
  have htake := run_pass_take (c := c) (n := n) s.length
  rwa [← List.prefix_iff_eq_take.1 h] at htake

theorem run_scan_of_some {k : Nat} (h : p.here? c.rest = some k) :
    (scan p).run (.ofCursor c n) = .ok (some (c.rest.take k), .ofCursor (c.advance k) n) := by
  rw [scan, run_bind_ok run_remaining, Text.Pattern.find?_of_here? h]
  exact run_bind_ok (run_pass_take k) _

theorem run_scan_of_none (h : p.here? c.rest = none) :
    (scan p).run (.ofCursor c n) = .ok (none, .ofCursor c n) := by
  rw [scan, run_bind_ok run_remaining]
  split
  · next k hfind =>
    rw [← List.drop_zero (l := c.rest), Text.Pattern.here?_of_find? hfind] at h
    cases h
  · rfl

theorem run_scanUntil : (scanUntil p).run (.ofCursor c n) =
    .ok (p.before c.rest, .ofCursor (c.advance (p.before c.rest).length) n) := by
  have hbefore : p.before c.rest <+: c.rest := List.take_prefix ..
  rw [scanUntil, run_bind_ok run_remaining, run_bind_ok (run_pass hbefore)]
  rfl

theorem run_scanWhile {p : Char → Bool} : (scanWhile p).run (.ofCursor c n) =
    .ok (c.rest.takeWhile p, .ofCursor (c.skipWhile p) n) := by
  rw [scanWhile, run_bind_ok run_remaining, run_bind_ok (run_pass (List.takeWhile_prefix p))]
  rfl

theorem run_get (r : Reader) : (get : Reading Reader).run r = .ok (r, r) := rfl

theorem run_readSigil :
    readSigil.run (.ofCursor c n) = .ok (c.takeSigil.1, .ofCursor c.takeSigil.2 n) := by
  rw [readSigil, Cursor.takeSigil]
  cases hrest : c.rest with
  | nil =>
    rw [run_bind_ok (run_scan_of_none (by rw [hrest]; rfl))]
    rfl
  | cons x rest =>
    cases hsigil : Sigil.ofChar? x with
    | none =>
      have hnone : Text.Pattern.sigil.here? c.rest = none := by
        simp [Text.Pattern.sigil, Text.Pattern.here?, Text.Pattern.lengths, hrest, hsigil]
      rw [run_bind_ok (run_scan_of_none hnone), List.head?_cons, Option.bind_some, hsigil]
      rfl
    | some sigil =>
      have hsome : Text.Pattern.sigil.here? c.rest = some 1 := by
        simp [Text.Pattern.sigil, Text.Pattern.here?, Text.Pattern.lengths, hrest, hsigil]
      rw [run_bind_ok (run_scan_of_some hsome), List.head?_cons, Option.bind_some, hsigil, hrest]
      simp only [List.take_succ_cons, List.take_zero, Sigil.ofText, hsigil]
      rfl

theorem run_scan_blanks : (scan .blanks).run (.ofCursor c n) =
    .ok (some (c.rest.take (c.rest.takeWhile Text.isBlank).length),
      .ofCursor (c.skipWhile Text.isBlank) n) :=
  run_scan_of_some Text.Pattern.here?_many

theorem run_readContent [Alphabet] (sigil : Sigil) : (readContent sigil).run (.ofCursor c n) =
    .ok (Tag.contentAt sigil c, .ofCursor (c.advance (Tag.contentAt sigil c).length) n) := by
  rw [readContent, run_bind_ok (run_get _), Tag.contentAt]
  split
  · rw [← Delimiters.before_closing]
    exact run_scanUntil
  · exact run_scanWhile

theorem run_readTag [Alphabet] :
    (readTag c.offset).run (.ofCursor (c.advance c.delimiters.opening.length) n) =
      ((Tag.read c).map fun (tag, close) => (tag, Reader.ofCursor close n)).mapError .fault := by
  rw [readTag, run_bind_ok run_readSigil, run_bind_ok run_scan_blanks,
    run_bind_ok (run_readContent _), run_bind_ok run_scan_blanks, run_bind_ok (run_get _), Tag.read]
  have hsigil := (Cursor.passes_takeSigil (c.advance c.delimiters.opening.length)).2
  rcases hread : (c.advance c.delimiters.opening.length).takeSigil with ⟨sigil, inside⟩
  rw [hread] at hsigil
  simp only
  generalize Tag.contentAt sigil (inside.skipWhile Text.isBlank) = content
  set ended := ((inside.skipWhile Text.isBlank).advance content.length).skipWhile Text.isBlank
  have hd : ended.delimiters = c.delimiters := hsigil
  rw [Reader.patterns_ofCursor, hd]
  have hclosing : c.delimiters.patterns.closing.here? ended.rest =
      c.delimiters.closeLength? ended.rest := Delimiters.here?_closing
  cases hclose : c.delimiters.closeLength? ended.rest with
  | none =>
    rw [run_bind_ok (run_scan_of_none (hclosing.trans hclose)), run_bind_ok (run_get _),
      if_pos Option.isNone_none, Reader.delimiters_ofCursor, hd]
    rfl
  | some k =>
    rw [run_bind_ok (run_scan_of_some (hclosing.trans hclose)), run_bind_ok (run_get _),
      if_neg (by simp), Reader.delimiters_ofCursor, Cursor.delimiters_advance, hd]
    split <;> rfl

theorem run_addText (text : List Char) :
    (addText text).run (.ofCursor c n) = .ok ((), .ofCursor c (n.addText text)) := rfl

theorem run_addTag (tag : Tag) (indent text : List Char) :
    (addTag tag indent).run (.ofCursor c n) = (do
      let after ← c.afterTag tag
      let m ← n.addTag c.source ⟨text, tag, indent, c.offset⟩
      pure ((), Reader.ofCursor after m)).mapError .fault := by
  rw [addTag, run_bind_ok (run_get _), Cursor.afterTag]
  by_cases hsigil : tag.sigil = .equals
  · have hadd : n.addTag c.source ⟨text, tag, indent, c.offset⟩ = .ok n := by
      simp only [Nesting.addTag, hsigil]
    rw [if_pos hsigil, if_pos hsigil, hadd]
    cases Delimiters.ofContent tag.content <;> rfl
  · rw [if_neg hsigil, if_neg hsigil]
    change (lift (n.addTag c.source ⟨text, tag, indent, c.offset⟩) >>= _).run _ = _
    cases n.addTag c.source ⟨text, tag, indent, c.offset⟩ <;> rfl

theorem run_endLine (line : Cursor) (sigil : Sigil) :
    (endLine line.atLineStart sigil).run (.ofCursor c n) =
      .ok ((line.afterLine? c sigil).isSome, .ofCursor ((line.afterLine? c sigil).getD c) n) := by
  rw [endLine, Cursor.afterLine?]
  split
  · have hhere := Text.Pattern.here?_lineEnd (t := c.rest)
    rw [Cursor.lineEnd?_eq]
    cases hend : Text.blankLineEnd? c.rest with
    | none =>
      rw [hend] at hhere
      exact run_bind_ok (run_scan_of_none hhere) _
    | some tail =>
      rw [hend] at hhere
      exact run_bind_ok (run_scan_of_some hhere) _
  · rfl

theorem run_addTag_of_read? [Alphabet] {resume : Cursor} {text indent : List Char} {tag : Tag}
    (hsource : resume.source = c.source) (hread : Lexeme.read? c = (do
      let next ← resume.afterTag tag
      pure (some (⟨text, tag, indent, resume.offset⟩, next)))) :
    (addTag tag indent >>= fun _ => pure true).run (.ofCursor resume (n.addText text)) =
      (Reader.afterLexeme c n).mapError .fault := by
  rw [StateT.run_bind, run_addTag tag indent text, hsource, Reader.afterLexeme, hread]
  cases resume.afterTag tag with
  | error fault => rfl
  | ok next =>
    change _ = Except.mapError _ ((n.addText text).addTag c.source _ >>= _)
    cases (n.addText text).addTag c.source ⟨text, tag, indent, resume.offset⟩ <;> rfl

theorem run_addNext [Alphabet] {before after text padding : List Char}
    (hcut : Text.cutAt? c.delimiters.opening c.rest = some (before, after))
    (hparts : Text.splitTrailing Text.isBlank before = (text, padding)) :
    (addNext (c.advance text.length).atLineStart padding (c.advance before.length).offset >>=
        fun _ => pure true).run
      (.ofCursor ((c.advance before.length).advance c.delimiters.opening.length) (n.addText text)) =
    (Reader.afterLexeme c n).mapError .fault := by
  have hbefore : text ++ padding = before := by
    rw [← Text.splitTrailing_append Text.isBlank before, hparts]
  have hplace : (c.advance text.length).advance padding.length = c.advance before.length := by
    rw [Cursor.advance_advance, ← List.length_append, hbefore]
  have hreadTag := run_readTag (c := c.advance before.length) (n := n.addText text)
  rw [Cursor.delimiters_advance] at hreadTag
  rw [addNext, bind_assoc]
  cases hread : Tag.read (c.advance before.length) with
  | error fault =>
    have hlexeme : Lexeme.read? c = .error fault := by
      simp only [Lexeme.read?, hcut, hparts, hplace, hread]
    rw [hread] at hreadTag
    rw [run_bind_error hreadTag, Reader.afterLexeme, hlexeme]
    rfl
  | ok result =>
    obtain ⟨tag, close⟩ := result
    have hclose : close.source = c.source := by
      have hrest := Text.append_of_cutAt? hcut
      rw [List.append_assoc] at hrest
      obtain ⟨inner, hinner, -⟩ := Tag.passes_of_read (Cursor.rest_advance hrest) hread
      rw [hinner.source_eq, Cursor.source_advance]
    rw [hread] at hreadTag
    rw [run_bind_ok hreadTag, bind_assoc, run_bind_ok (run_endLine _ _)]
    cases hline : (c.advance text.length).afterLine? close tag.sigil with
    | none =>
      have hlexeme : Lexeme.read? c = (do
          let next ← close.afterTag tag
          pure (some (⟨before, tag, [], close.offset⟩, next))) := by
        simp only [Lexeme.read?, hcut, hparts, hplace, hread, hline, Option.getD_none]
        cases close.afterTag tag <;> rfl
      rw [if_neg (by simp), bind_assoc, run_bind_ok (run_addText padding),
        ← Nesting.addText_append, hbefore]
      exact run_addTag_of_read? hclose hlexeme
    | some resume =>
      have hlexeme : Lexeme.read? c = (do
          let next ← resume.afterTag tag
          pure (some (⟨text, tag, padding, resume.offset⟩, next))) := by
        simp only [Lexeme.read?, hcut, hparts, hplace, hread, hline, Option.getD_some]
        cases resume.afterTag tag <;> rfl
      have hresume : resume.source = c.source :=
        (Cursor.source_of_afterLine? hline).trans hclose
      rw [if_pos Option.isSome_some]
      exact run_addTag_of_read? hresume hlexeme

theorem before_opening_of_none (hcut : Text.cutAt? c.delimiters.opening c.rest = none) :
    c.delimiters.patterns.opening.before c.rest = c.rest := by
  rw [Text.Pattern.before, Delimiters.find?_opening, hcut]
  exact List.take_length

theorem before_opening_of_some {before after text padding : List Char}
    (hcut : Text.cutAt? c.delimiters.opening c.rest = some (before, after))
    (hparts : Text.splitTrailing Text.isBlank before = (text, padding)) :
    c.delimiters.patterns.opening.before c.rest = text := by
  rw [Text.Pattern.before, Delimiters.find?_opening, hcut]
  simp only [Option.map_some, hparts, Option.elim_some]
  rw [Text.append_of_cutAt? hcut, ← Text.splitTrailing_append Text.isBlank before, hparts]
  simp

theorem run_readOpening_of_nil (h : c.rest = []) :
    readOpening.run (.ofCursor c n) = .ok (none, .ofCursor c n) := by
  have hhere : c.delimiters.patterns.opening.here? c.rest = none := by
    rw [h, Delimiters.here?_opening, if_neg]
    simpa using c.delimiters.opening_ne_nil
  rw [readOpening, run_bind_ok (run_get _)]
  exact run_bind_ok (run_scan_of_none hhere) _

/-- The opening delimiter is the end of what is found, so its size can be taken away. -/
theorem run_readOpening {padding after : List Char}
    (hrest : c.rest = padding ++ (c.delimiters.opening ++ after))
    (hblank : ∀ x ∈ padding, Text.isBlank x = true) :
    readOpening.run (.ofCursor c n) =
      .ok (some (padding, (c.advance padding.length).offset),
        .ofCursor ((c.advance padding.length).advance c.delimiters.opening.length) n) := by
  have hhere : c.delimiters.patterns.opening.here? c.rest =
      some (padding.length + c.delimiters.opening.length) := by
    rw [hrest]
    exact Delimiters.here?_opening_of_blank hblank
  have hfound : c.rest.take (padding.length + c.delimiters.opening.length) =
      padding ++ c.delimiters.opening := by
    rw [hrest, ← List.length_append, ← List.append_assoc]
    exact List.take_left
  have hstop : ((c.advance padding.length).advance c.delimiters.opening.length).offset =
      (c.advance padding.length).offset + Text.byteSize c.delimiters.opening :=
    (Cursor.passes_advance (Cursor.rest_advance hrest)).offset_eq
  rw [readOpening, run_bind_ok (run_get _), Reader.patterns_ofCursor,
    run_bind_ok (run_scan_of_some hhere), hfound, ← Cursor.advance_advance]
  simp only [Text.byteSize_append]
  rw [run_bind_ok (run_get _), Reader.delimiters_ofCursor, Cursor.delimiters_advance,
    Cursor.delimiters_advance, run_bind_ok (run_minus ..), run_bind_ok (run_cut ..)]
  simp only
  rw [run_bind_ok (run_get _), Reader.place_ofCursor, hstop, run_bind_ok (run_minus ..)]
  rfl

/-- A round reads the next lexeme and adds it. -/
theorem run_next [Alphabet] : next.run (.ofCursor c n) =
    (Reader.afterLexeme c n).mapError .fault := by
  rw [next, run_bind_ok (run_get _), Reader.patterns_ofCursor, run_bind_ok run_scanUntil,
    run_bind_ok (run_addText _), run_bind_ok run_atLineStart]
  cases hcut : Text.cutAt? c.delimiters.opening c.rest with
  | none =>
    have hlexeme : Lexeme.read? c = .ok none := by
      simp only [Lexeme.read?, hcut]
    have hend : (c.advance c.rest.length).rest = [] :=
      Cursor.rest_advance (List.append_nil c.rest).symm
    rw [before_opening_of_none hcut, run_bind_ok (run_readOpening_of_nil hend), Reader.afterLexeme,
      hlexeme]
    rfl
  | some parts =>
    obtain ⟨before, after⟩ := parts
    have hblank := Text.all_splitTrailing Text.isBlank before
    rcases hparts : Text.splitTrailing Text.isBlank before with ⟨text, padding⟩
    rw [hparts] at hblank
    have hbefore : text ++ padding = before := by
      rw [← Text.splitTrailing_append Text.isBlank before, hparts]
    have hrest : c.rest = text ++ (padding ++ (c.delimiters.opening ++ after)) := by
      rw [Text.append_of_cutAt? hcut, ← hbefore]
      simp
    have hplace : (c.advance text.length).advance padding.length = c.advance before.length := by
      rw [Cursor.advance_advance, ← List.length_append, hbefore]
    rw [before_opening_of_some hcut hparts,
      run_bind_ok (run_readOpening (Cursor.rest_advance hrest) hblank), hplace]
    exact run_addNext hcut hparts

end Reading

end LogicLess
