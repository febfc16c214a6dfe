import LogicLess.Value.Datum

/-!
# Stores

A store holds the data that templates are run against, value by value under their names.
-/

namespace LogicLess

/-- Values under names. -/
structure Store where
  entries : List (String × Value)

namespace Store

def empty : Store := ⟨[]⟩

/-- Puts a value under a name, in place of an earlier one. -/
def insert (s : Store) (name : String) (v : Value) : Store :=
  ⟨Entries.insert name v s.entries⟩

def insertDatum (s : Store) (name : String) (d : Datum) : Except Diagnostic Store :=
  match d.toValue? with
  | some v => .ok (s.insert name v)
  | none =>
    .error (Value.unserializable
      ("value for key `" ++ name ++ "` is unserializable: " ++ Value.badKey))

def get? (s : Store) (name : String) : Option Value := Entries.find? name s.entries

def toValue (s : Store) : Value := .map s.entries

theorem get?_insert_self (s : Store) (name : String) (v : Value) :
    (s.insert name v).get? name = some v :=
  Entries.find?_insert_self name v s.entries

theorem get?_insert_of_ne {name other : String} (h : other ≠ name) (s : Store) (v : Value) :
    (s.insert name v).get? other = s.get? other :=
  Entries.find?_insert_of_ne h v s.entries

end Store

end LogicLess
