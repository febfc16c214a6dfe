import LogicLess.Text.Identifier
import LogicLess.Text.Split

/-!
# Paths

A path is the reference to data that a tag names: the current value, or keys that are looked up one
after the other.
-/

namespace LogicLess

/-- Characters of a key. Dots among them separate the keys of a path. -/
def isKeyChar [Alphabet] (c : Char) : Bool :=
  Text.isIdentifier c || c == '$' || c == '.' || c == '-'

/-- A reference to data. -/
inductive Path
  /-- The current value, written as a dot. -/
  | current
  /-- Keys, each looked up in the value of the one before it. -/
  | keys (names : List String)
  deriving DecidableEq, Repr

namespace Path

def ofKey (key : List Char) : Path :=
  if key = ['.'] then .current
  else .keys ((Text.splitOn (· == '.') key).map String.ofList)

def text : Path → String
  | .current => "."
  | .keys names => ".".intercalate names

end Path

end LogicLess
