import LogicLess.Region
import LogicLess.Text.Split
import LogicLess.Text.Width
import LogicLess.Dump

/-!
# Pointers into a source

A pointer shows the line that a region begins on and underlines the region with carets. Only the
first line of a longer region is underlined. Columns are counted by a width function, so that wide
characters and marks stay aligned.
-/

namespace LogicLess

/-- A line of a source with an underlined part. Lines and columns are counted from zero. -/
structure Pointer where
  line : Nat
  /-- The display column of the first caret. -/
  column : Nat
  /-- The number of carets. -/
  length : Nat
  /-- The line pointed at. -/
  text : List Char
  deriving DecidableEq

namespace Pointer

/-- The line that holds a byte offset, and the offset within that line. Offsets past the last line
are moved back to its end. -/
def locate : List (List Char) → Nat → Nat × Nat
  | [], _ => (0, 0)
  | [line], offset => (0, min offset (Text.byteSize line))
  | line :: next :: rest, offset =>
    if offset < Text.byteSize line + 1 then (0, offset)
    else
      let (n, column) := locate (next :: rest) (offset - (Text.byteSize line + 1))
      (n + 1, column)

/-- The pointer to a region, with columns counted by `width`. -/
def measure (width : List Char → Nat) (source : List Char) (region : Region) : Pointer :=
  let lines := Text.lines source
  let (line, offset) := locate lines region.start
  let text := Text.trimTrailing (· == '\r') (lines[line]?.getD [])
  { line
    column :=
      match Text.splitAtByte? offset text with
      | some (before, _) => width before
      | none => width text
    length := max 1 (width (Text.firstLine (region.literal source)))
    text }

/-- The pointer to a region, with columns as a terminal shows them. -/
def ofRegion (source : List Char) (region : Region) : Pointer :=
  measure Text.displayWidth source region

def underline (p : Pointer) : List Char :=
  List.replicate p.column ' ' ++ List.replicate p.length '^'

/-- The rows of the picture: the place, the line, its underline, and the help text if any. -/
def rows (p : Pointer) (name help : Option String) : List String :=
  let number := toString (p.line + 1)
  let gutter := " " ++ String.ofList (List.replicate number.length ' ')
  [gutter ++ "--> " ++ name.getD "?" ++ ":" ++ number ++ ":" ++ toString (p.column + 1),
    gutter ++ " |",
    " " ++ number ++ " | " ++ String.ofList p.text,
    gutter ++ " | " ++ String.ofList p.underline,
    gutter ++ " |"] ++
  help.toList.map fun text => gutter ++ " = help: " ++ text

def dump (p : Pointer) : Dump :=
  .record "Pointer"
    [("line", .word (toString p.line)), ("column", .word (toString p.column)),
      ("length", .word (toString p.length)), ("text", .quoted (String.ofList p.text))] false

end Pointer

end LogicLess
