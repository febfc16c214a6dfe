import LogicLess.Diagnostic
import LogicLess.Value

/-!
# Foreign data

Data from elsewhere may have maps with keys of any kind. It becomes a value if every key has a text:
a string is its own text, and an integer is written in decimal.
-/

namespace LogicLess

/-- Data with keys of any kind. -/
inductive Datum
  | null
  | bool (b : Bool)
  | integer (n : Int)
  | real (x : Float)
  | string (s : String)
  | list (items : List Datum)
  | map (entries : List (Datum × Datum))
  deriving Inhabited

namespace Datum

def keyText? : Datum → Option String
  | string s => some s
  | integer n => some (String.ofList (Number.integerText n))
  | _ => none

mutual

/-- The value that the data stands for, if every key in it has a text. -/
def toValue? : Datum → Option Value
  | .null => some .null
  | .bool b => some (.bool b)
  | .integer n => some (.ofInt n)
  | .real x => some (.ofFloat x)
  | .string s => some (.string s)
  | .list items => (toValues? items).map .list
  | .map entries => (toEntries? entries []).map .map
termination_by structural d => d

def toValues? : List Datum → Option (List Value)
  | [] => some []
  | d :: rest => do
    let v ← d.toValue?
    let vs ← toValues? rest
    some (v :: vs)
termination_by structural ds => ds

/-- The entries of a map after those that came before. A key that comes again takes the place of the
earlier one. -/
def toEntries? : List (Datum × Datum) → List (String × Value) → Option (List (String × Value))
  | [], before => some before
  | (key, d) :: rest, before => do
    let name ← key.keyText?
    let v ← d.toValue?
    toEntries? rest (Entries.insert name v before)
termination_by structural entries => entries

end

end Datum

namespace Value

def badKey : String := "key must be a string"

def unserializable (help : String) : Diagnostic :=
  { reason := "unserializable value", help := some help }

def ofDatum (d : Datum) : Except Diagnostic Value :=
  match d.toValue? with
  | some v => .ok v
  | none => .error (unserializable badKey)

end Value

end LogicLess
