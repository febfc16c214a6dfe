import LogicLess.Render
import LogicLess.Text.IdentifierTable

/-!
# Registries

A registry keeps templates under names. They are all read with the same delimiters, and each may
refer to any other by its name. A program reads its templates through a registry, so the table of
identifier characters comes in here.
-/

namespace LogicLess

/-- Templates under names. -/
structure Registry where
  /-- The delimiters that templates are read with. -/
  delimiters : Delimiters
  templates : List (String × Template)

namespace Registry

def empty (delimiters : Delimiters) : Registry := ⟨delimiters, []⟩

def missingTemplate (name : String) : Diagnostic :=
  { reason := "missing template"
    help := some ("template `" ++ name ++
      "` not found in engine, add it with `.add_template`") }

def duplicateTemplate (name : String) : Diagnostic :=
  { reason := "duplicate template"
    help := some ("template with name `" ++ name ++
      "` already exists in engine, overwrite it with `.add_template_must`") }

variable [Alphabet]

/-- Reads a template without keeping it. -/
def compile (r : Registry) (source : List Char) : Except Diagnostic Template :=
  Template.compile r.delimiters source none

def find? (r : Registry) (name : String) : Option Template :=
  Entries.find? name r.templates

/-- Reads a template and keeps it under a name, in place of an earlier one. -/
def put (r : Registry) (name : String) (source : List Char) : Except Diagnostic Registry :=
  match Template.compile r.delimiters source (some name) with
  | .ok template => .ok { r with templates := Entries.insert name template r.templates }
  | .error d => .error d

/-- Reads a template and keeps it under a name that is not taken. -/
def add (r : Registry) (name : String) (source : List Char) : Except Diagnostic Registry :=
  match r.find? name with
  | some _ => .error (duplicateTemplate name)
  | none => r.put name source

def remove (r : Registry) (name : String) : Registry :=
  { r with templates := Entries.erase name r.templates }

def clear (r : Registry) : Registry := { r with templates := [] }

/-- Runs a template, with the templates of the registry for those that it refers to. -/
def render (r : Registry) (lambdas : Lambdas) (depth : Nat) (template : Template) (data : Value)
    (history : History) : Except Stop (List Char) × History :=
  template.render ⟨r.find?, lambdas⟩ depth data history

/-- Gives a failure without a name the name of the template that was run. -/
def nameFailure (name : String) : Stop → Stop
  | .exhausted => .exhausted
  | .failed d => .failed { d with name := some (d.name.getD name) }

def renderNamed (r : Registry) (lambdas : Lambdas) (depth : Nat) (name : String) (data : Value)
    (history : History) : Except Stop (List Char) × History :=
  match r.find? name with
  | none => (.error (.failed (missingTemplate name)), history)
  | some template =>
    let (result, after) := r.render lambdas depth template data history
    (result.mapError (nameFailure name), after)

end Registry

end LogicLess
