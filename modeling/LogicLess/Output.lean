import LogicLess.Text.Blank
import LogicLess.Text.Entity
import LogicLess.Value.Text

/-!
# Output

Text is written to the end of an output. Templates put in place of a tag may ask for their lines to
be indented. The indentation of a line waits until something is written on it, and is left out if
that begins with a line break.
-/

namespace LogicLess

/-- Text that is being written. -/
structure Output where
  /-- What has been written, latest character first. -/
  written : List Char
  /-- The indentation of lines, outermost part first. -/
  indent : List Char
  /-- Whether a line has begun on which nothing is written yet. -/
  pending : Bool
  deriving DecidableEq

namespace Output

def empty : Output := ⟨[], [], false⟩

def text (o : Output) : List Char := o.written.reverse

/-- Whether the next character written is the first of a line. -/
def atLineStart (o : Output) : Bool :=
  match o.written with
  | [] => true
  | last :: _ => last == '\n'

/-- Marks the start of a line. In the middle of a line this does nothing. -/
def startLine (o : Output) : Output :=
  if o.atLineStart then { o with pending := true } else o

def write (o : Output) (s : List Char) : Output :=
  match s with
  | [] => o
  | c :: _ =>
    let lead := if o.pending && !Text.isLineBreak c then o.indent else []
    { o with written := s.reverse ++ (lead.reverse ++ o.written), pending := false }

@[simp] theorem write_nil (o : Output) : o.write [] = o := rfl

theorem text_write_of_not_pending {o : Output} (h : o.pending = false) (s : List Char) :
    (o.write s).text = o.text ++ s := by
  cases s with
  | nil => simp
  | cons c s => simp [write, text, h]

def writePieces (o : Output) (pieces : List (List Char)) : Output :=
  pieces.foldl write o

/-- Writes a text, with entities if asked for. -/
def writeText (o : Output) (s : List Char) (escaped : Bool) : Output :=
  if escaped then o.writePieces (Text.encodePieces s) else o.write s

/-- Writes a value, with entities if asked for. An absent value writes nothing. -/
def writeValue (o : Output) (v : Value) (escaped : Bool) : Output :=
  if v.isTruthy then
    match v with
    | .string s => o.writeText s.toList escaped
    | v => if escaped then o.writeText v.text true else o.writePieces v.pieces
  else o

def pushIndent (o : Output) (indent : List Char) : Output :=
  { o with indent := o.indent ++ indent }

/-- Cuts the indentation of lines back to a length it had before. -/
def popIndent (o : Output) (length : Nat) : Output :=
  { o with indent := o.indent.take length }

end Output

end LogicLess
