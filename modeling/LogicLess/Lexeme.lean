import LogicLess.Tag

/-!
# Lexemes

A source is cut into lexemes, each a tag with the text before it. A tag other than a value tag that
is alone on its line takes the line with it: the blanks before it are no text, and the text goes on
after the line end. A delimiter tag changes the delimiters for what follows. The cutting ends with
the text after the last tag, or with the first tag that cannot be read.
-/

namespace LogicLess

/-- A tag with the text before it. -/
structure Lexeme where
  /-- The text since the tag before, without the blanks of a line that the tag removes. -/
  text : List Char
  tag : Tag
  /-- The blanks before the tag on a line that it removes. -/
  indent : List Char
  /-- Where the text after the tag begins. -/
  resume : Nat

namespace Cursor

/-- The place after the end of the line, if only blanks stand before it. -/
def lineEnd? (c : Cursor) : Option Cursor :=
  let blank := c.skipWhile Text.isBlank
  match blank.rest with
  | [] => some blank
  | '\n' :: _ => some (blank.advance 1)
  | '\r' :: '\n' :: _ => some (blank.advance 2)
  | _ => none

/-- The place after the line of a tag between `line` and `close`, if the tag is alone on it. -/
def afterLine? (line close : Cursor) (sigil : Sigil) : Option Cursor :=
  if line.atLineStart && sigil.mayStandAlone then close.lineEnd? else none

/-- The place after a tag, with the delimiters that the tag puts in force. -/
def afterTag (c : Cursor) (tag : Tag) : Except Fault Cursor :=
  if tag.sigil = .equals then
    match Delimiters.ofContent tag.content with
    | .ok d => .ok { c with delimiters := d }
    | .error problem => .error (.badDelimiters tag.region problem)
  else .ok c

end Cursor

namespace Lexeme

/-- Reads the text up to the next tag and the tag itself; nothing if no tag is left. -/
def read? [Alphabet] (c : Cursor) : Except Fault (Option (Lexeme × Cursor)) :=
  match Text.cutAt? c.delimiters.opening c.rest with
  | none => .ok none
  | some (before, _) =>
    let (text, padding) := Text.splitTrailing Text.isBlank before
    let line := c.advance text.length
    match Tag.read (line.advance padding.length) with
    | .error fault => .error fault
    | .ok (tag, close) =>
      let alone := line.afterLine? close tag.sigil
      match (alone.getD close).afterTag tag with
      | .error fault => .error fault
      | .ok next =>
        match alone with
        | some resume => .ok (some (⟨text, tag, padding, resume.offset⟩, next))
        | none => .ok (some (⟨before, tag, [], close.offset⟩, next))

end Lexeme

namespace Tag

theorem length_rest_of_read [Alphabet] {c after : Cursor} {tag : Tag}
    (h : read c = .ok (tag, after)) :
    after.rest.length ≤ c.rest.length - c.delimiters.opening.length := by
  simp only [read] at h
  split at h
  · simp at h
  · split at h
    · simp at h
    · simp only [Except.ok.injEq, Prod.mk.injEq] at h
      rw [← h.2]
      have hs : (c.advance c.delimiters.opening.length).takeSigil.2.rest.length ≤
          c.rest.length - c.delimiters.opening.length := by
        unfold Cursor.takeSigil
        split <;> simp
      simp only [Cursor.length_rest_advance, Cursor.skipWhile]
      omega

end Tag

namespace Cursor

theorem length_rest_of_lineEnd? {c next : Cursor} (h : c.lineEnd? = some next) :
    next.rest.length ≤ c.rest.length := by
  simp only [lineEnd?] at h
  split at h <;> simp only [Option.some.injEq, reduceCtorEq] at h <;>
    simp [← h, skipWhile]
  all_goals omega

theorem length_rest_afterLine? (line close : Cursor) (sigil : Sigil) :
    ((line.afterLine? close sigil).getD close).rest.length ≤ close.rest.length := by
  unfold afterLine?
  split
  · cases h : close.lineEnd? with
    | none => simp
    | some next => simpa using length_rest_of_lineEnd? h
  · simp

theorem rest_of_afterTag {c next : Cursor} {tag : Tag} (h : c.afterTag tag = .ok next) :
    next.rest = c.rest := by
  simp only [afterTag] at h
  split at h
  · split at h
    · simp only [Except.ok.injEq] at h
      simp [← h]
    · simp at h
  · simp only [Except.ok.injEq] at h
    rw [h]

end Cursor

namespace Lexeme

theorem length_rest_of_read? [Alphabet] {c next : Cursor} {l : Lexeme}
    (h : read? c = .ok (some (l, next))) :
    next.rest.length < c.rest.length := by
  simp only [read?] at h
  split at h
  · simp at h
  · next before _ hcut =>
    have hpos := c.delimiters.opening_length_pos
    have hlen := congrArg List.length (Text.append_of_cutAt? hcut)
    simp only [List.length_append] at hlen
    split at h
    · simp at h
    · next tag close hread =>
      have hclose := Tag.length_rest_of_read hread
      simp only [Cursor.length_rest_advance] at hclose
      split at h
      · simp at h
      · next after hafter =>
        have hnext : next = after := by
          split at h <;> simp only [Except.ok.injEq, Option.some.injEq, Prod.mk.injEq] at h <;>
            exact h.2.symm
        have hend := Cursor.length_rest_afterLine?
          (c.advance (Text.splitTrailing Text.isBlank before).1.length) close tag.sigil
        simp only [Cursor.delimiters_advance] at hclose
        rw [hnext, Cursor.rest_of_afterTag hafter]
        omega

end Lexeme

/-- How the cutting of a source ends. -/
inductive Ending
  /-- With the text after the last tag, under the delimiters in force there. -/
  | complete (text : List Char) (delimiters : Delimiters)
  /-- With a tag that cannot be read. -/
  | broken (fault : Fault)

namespace Lexeme

def readAll [Alphabet] (c : Cursor) : List Lexeme × Ending :=
  match _h : read? c with
  | .error fault => ([], .broken fault)
  | .ok none => ([], .complete c.rest c.delimiters)
  | .ok (some (lexeme, next)) =>
    let (lexemes, ending) := readAll next
    (lexeme :: lexemes, ending)
termination_by c.rest.length
decreasing_by exact length_rest_of_read? _h

end Lexeme

end LogicLess
