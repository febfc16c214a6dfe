import LogicLess.Delimiters

/-!
# Cursors

A cursor is a place in a source with the text on both sides of it. It also knows the delimiters in
force there. It moves forward only, and its text on both sides together never changes.
-/

namespace LogicLess

/-- A place between two characters of a source, and the delimiters in force there. -/
structure Cursor where
  /-- The text before the place, latest character first. -/
  seen : List Char
  rest : List Char
  delimiters : Delimiters
  /-- The place in bytes. -/
  offset : Nat
  offset_eq : offset = Text.byteSize seen

namespace Cursor

def start (delimiters : Delimiters) (source : List Char) : Cursor :=
  ⟨[], source, delimiters, 0, rfl⟩

/-- The whole text around the place. -/
def source (c : Cursor) : List Char := c.seen.reverse ++ c.rest

def atLineStart (c : Cursor) : Bool :=
  match c.seen with
  | [] => true
  | previous :: _ => previous == '\n'

/-- The place `n` characters further on. -/
def advance (c : Cursor) (n : Nat) : Cursor :=
  { seen := (c.rest.take n).reverse ++ c.seen
    rest := c.rest.drop n
    delimiters := c.delimiters
    offset := c.offset + Text.byteSize (c.rest.take n)
    offset_eq := by simp [c.offset_eq, Nat.add_comm] }

/-- The place after the longest run of characters of the class `p`. -/
def skipWhile (c : Cursor) (p : Char → Bool) : Cursor :=
  c.advance (c.rest.takeWhile p).length

@[simp] theorem source_advance (c : Cursor) (n : Nat) : (c.advance n).source = c.source := by
  simp [advance, source]

@[simp] theorem length_rest_advance (c : Cursor) (n : Nat) :
    (c.advance n).rest.length = c.rest.length - n := by
  simp [advance]

@[simp] theorem offset_advance (c : Cursor) (n : Nat) :
    (c.advance n).offset = c.offset + Text.byteSize (c.rest.take n) := rfl

@[simp] theorem delimiters_advance (c : Cursor) (n : Nat) :
    (c.advance n).delimiters = c.delimiters := rfl

end Cursor

end LogicLess
