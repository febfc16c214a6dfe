import LogicLess.Text.Quoted

/-!
# Dumps

A dump shows how a value is built: constructor names, field names and quoted text. It is written
on one line or as an indented block.
-/

namespace LogicLess

/-- What a dump shows. -/
inductive Dump
  /-- A bare word, such as a number or a constructor without arguments. -/
  | word (text : String)
  | quoted (text : String)
  | apply (name : String) (args : List Dump)
  /-- A record; `more` tells that it has fields that are not shown. -/
  | record (name : String) (fields : List (String × Dump)) (more : Bool)
  | list (items : List Dump)
  | table (entries : List (String × Dump))

namespace Dump

def quoteText (text : String) : String := String.ofList (Text.quote text.toList)

def ofOption (dump : Option Dump) : Dump :=
  match dump with
  | none => .word "None"
  | some d => .apply "Some" [d]

def commas (parts : List String) : String := ", ".intercalate parts

mutual

def inline : Dump → String
  | .word text => text
  | .quoted text => quoteText text
  | .apply name args => name ++ "(" ++ commas (inlineItems args) ++ ")"
  | .record name fields more =>
    if fields.isEmpty && !more then name
    else name ++ " \x7b " ++ commas (inlineFields fields ++ if more then [".."] else []) ++ " \x7d"
  | .list items => "[" ++ commas (inlineItems items) ++ "]"
  | .table entries => "\x7b" ++ commas (inlineEntries entries) ++ "\x7d"
termination_by structural dump => dump

def inlineItems : List Dump → List String
  | [] => []
  | d :: rest => d.inline :: inlineItems rest
termination_by structural dumps => dumps

def inlineFields : List (String × Dump) → List String
  | [] => []
  | (name, d) :: rest => (name ++ ": " ++ d.inline) :: inlineFields rest
termination_by structural fields => fields

def inlineEntries : List (String × Dump) → List String
  | [] => []
  | (key, d) :: rest => (quoteText key ++ ": " ++ d.inline) :: inlineEntries rest
termination_by structural entries => entries

end

/-- The lines of one part of a block: indented, after its label and before its comma. -/
def part (label : String) (lines : List String) : List String :=
  let labelled :=
    match lines with
    | [] => [label]
    | first :: rest => (label ++ first) :: rest
  let ended := labelled.dropLast ++ (labelled.getLast?.map (· ++ ",")).toList
  ended.map ("    " ++ ·)

/-- The lines of a block, from the line that opens it to the line that closes it. -/
def enclose (opening closing : String) (body : List String) : List String :=
  if body.isEmpty then [opening ++ closing] else opening :: body ++ [closing]

mutual

/-- The lines of a dump as an indented block. -/
def lines : Dump → List String
  | .word text => [text]
  | .quoted text => [quoteText text]
  | .apply name args => enclose (name ++ "(") ")" (itemLines args)
  | .record name fields more =>
    if fields.isEmpty && !more then [name]
    else
      enclose (name ++ " \x7b") "\x7d" (fieldLines fields ++ if more then ["    .."] else [])
  | .list items => enclose "[" "]" (itemLines items)
  | .table entries => enclose "\x7b" "\x7d" (entryLines entries)
termination_by structural dump => dump

def itemLines : List Dump → List String
  | [] => []
  | d :: rest => part "" d.lines ++ itemLines rest
termination_by structural dumps => dumps

def fieldLines : List (String × Dump) → List String
  | [] => []
  | (name, d) :: rest => part (name ++ ": ") d.lines ++ fieldLines rest
termination_by structural fields => fields

def entryLines : List (String × Dump) → List String
  | [] => []
  | (key, d) :: rest => part (quoteText key ++ ": ") d.lines ++ entryLines rest
termination_by structural entries => entries

end

def block (d : Dump) : String := "\n".intercalate d.lines

end Dump

end LogicLess
