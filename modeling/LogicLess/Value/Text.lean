import LogicLess.Dump
import LogicLess.Value

/-!
# The text of values

A value has a text form, in which lists are joined with commas and the entries of maps stand in the
order of their names. The text can be had as a whole or in the pieces that it is made of. A dump
shows how a value is built.
-/

namespace LogicLess.Value

def sortEntries {α : Type} (entries : List (String × α)) : List (String × α) :=
  entries.mergeSort fun a b => !(b.1 < a.1)

mutual

/-- The text of a value. Null and lambdas have none. -/
def text : Value → List Char
  | .null | .lambda _ => []
  | .bool b => (if b then "true" else "false").toList
  | .number n => n.text
  | .string s => s.toList
  | .list items => [','].intercalate (itemTexts items)
  | .map entries =>
    let shown := (sortEntries (entryTexts entries)).map fun (key, t) =>
      key.toList ++ [':', ' '] ++ t
    '{' :: [',', ' '].intercalate shown ++ ['}']
termination_by structural v => v

def itemTexts : List Value → List (List Char)
  | [] => []
  | v :: rest => v.text :: itemTexts rest
termination_by structural items => items

def entryTexts : List (String × Value) → List (String × List Char)
  | [] => []
  | (key, v) :: rest => (key, v.text) :: entryTexts rest
termination_by structural entries => entries

end

mutual

/-- The pieces that the text of a value is written in. -/
def pieces : Value → List (List Char)
  | .null | .lambda _ => []
  | .bool b => [(if b then "true" else "false").toList]
  | .number n => [n.text]
  | .string s => [s.toList]
  | .list items => [[',']].intercalate (itemPieces items)
  | .map entries =>
    let shown := (sortEntries (entryPieces entries)).map fun (key, ps) =>
      key.toList :: [':', ' '] :: ps
    ['{'] :: [[',', ' ']].intercalate shown ++ [['}']]
termination_by structural v => v

def itemPieces : List Value → List (List (List Char))
  | [] => []
  | v :: rest => v.pieces :: itemPieces rest
termination_by structural items => items

def entryPieces : List (String × Value) → List (String × List (List Char))
  | [] => []
  | (key, v) :: rest => (key, v.pieces) :: entryPieces rest
termination_by structural entries => entries

end

mutual

def dump : Value → Dump
  | .null => .word "Null"
  | .bool b => .apply "Bool" [.word (if b then "true" else "false")]
  | .number n => .apply "Number" [.apply "Number" [.word (String.ofList n.text)]]
  | .string s => .apply "String" [.quoted s]
  | .list items => .apply "List" [.list (itemDumps items)]
  | .map entries => .apply "Map" [.table (entryDumps entries)]
  | .lambda _ => .word "Lambda"
termination_by structural v => v

def itemDumps : List Value → List Dump
  | [] => []
  | v :: rest => v.dump :: itemDumps rest
termination_by structural items => items

def entryDumps : List (String × Value) → List (String × Dump)
  | [] => []
  | (key, v) :: rest => (key, v.dump) :: entryDumps rest
termination_by structural entries => entries

end

end LogicLess.Value
