import LogicLess.Diagnostic.Pointer

/-!
# Diagnostics

A diagnostic says what went wrong, where, and what may help. Those that come from reading a
template have a kind, which fixes their reason.
-/

namespace LogicLess

/-- The structural problems of template text. -/
inductive ProblemKind
  | unclosedTag
  | unclosedSection
  | unopenedSection
  | mismatchedSection
  /-- Text that cannot serve as a pair of delimiters. -/
  | invalidDelimiters
  /-- A tag without the key that it needs. -/
  | emptyTag
  deriving DecidableEq, Repr

namespace ProblemKind

def reason : ProblemKind → String
  | unclosedTag => "unclosed tag"
  | unclosedSection => "unclosed section"
  | unopenedSection => "unopened section"
  | mismatchedSection => "mismatched section"
  | invalidDelimiters => "invalid delimiters"
  | emptyTag => "empty tag"

def label : ProblemKind → String
  | unclosedTag => "UnclosedTag"
  | unclosedSection => "UnclosedSection"
  | unopenedSection => "UnopenedSection"
  | mismatchedSection => "MismatchedSection"
  | invalidDelimiters => "InvalidDelimiters"
  | emptyTag => "EmptyTag"

end ProblemKind

/-- A report of a problem. -/
structure Diagnostic where
  reason : String
  /-- The structural problem, if the report comes from reading a template. -/
  kind : Option ProblemKind := none
  region : Option Region := none
  pointer : Option Pointer := none
  help : Option String := none
  /-- The name of the template that the report is about. -/
  name : Option String := none

namespace Diagnostic

/-- Remembers the region as the place of the problem, with a picture of it. -/
def locatedAt (d : Diagnostic) (source : List Char) (region : Region) : Diagnostic :=
  { d with region := some region, pointer := some (Pointer.ofRegion source region) }

def ofKind (kind : ProblemKind) (source : List Char) (region : Region) : Diagnostic :=
  { reason := kind.reason, kind := some kind : Diagnostic }.locatedAt source region

/-- Names the template, whether or not one was named before. -/
def named (d : Diagnostic) (name : String) : Diagnostic :=
  { d with name := some name }

/-- Two reports are the same if they differ at most in their pictures. -/
instance : BEq Diagnostic where
  beq d e :=
    d.reason == e.reason && d.kind == e.kind && d.region == e.region && d.help == e.help &&
      d.name == e.name

def summary (d : Diagnostic) : String := "error: " ++ d.reason

/-- The reason and the picture of the place, under which the help text stands. -/
def display (d : Diagnostic) : String :=
  match d.pointer with
  | none => d.summary
  | some p => d.summary ++ "\n" ++ String.join ((p.rows d.name d.help).map (· ++ "\n"))

def dump (d : Diagnostic) : Dump :=
  .record "Error"
    [("reason", .quoted d.reason),
      ("kind", .ofOption (d.kind.map fun k => .word k.label)),
      ("region", .ofOption (d.region.map fun r =>
        .record "Region"
          [("begin", .word (toString r.start)), ("end", .word (toString r.stop))] false)),
      ("name", .ofOption (d.name.map .quoted)),
      ("visual", .ofOption (d.pointer.map Pointer.dump)),
      ("help", .ofOption (d.help.map .quoted))] false

/-- The display with the dump on the line below. -/
def inspect (d : Diagnostic) : String :=
  d.display ++ "\n" ++ d.dump.inline

end Diagnostic

end LogicLess
