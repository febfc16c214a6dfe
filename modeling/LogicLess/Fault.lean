import LogicLess.Delimiters

/-!
# Faults

A fault is the cause for which a template text is refused, with the region of the offending tag.
Kind, place and help text follow from it.
-/

namespace LogicLess

/-- What is wrong with a template. -/
inductive Fault
  /-- The closing delimiter is missing where a tag has to end. -/
  | unclosedTag (region : Region) (closing : List Char)
  | emptyTag (region : Region)
  | badDelimiters (region : Region) (problem : DelimiterProblem)
  /-- A section is closed while none is open. -/
  | unopenedSection (region : Region) (key : List Char)
  /-- A section is closed under another key than the expected one. -/
  | mismatchedSection (region : Region) (expected : List Char) (delimiters : Delimiters)
  /-- A section is open at the end of the source. -/
  | unclosedSection (region : Region) (expected : List Char) (delimiters : Delimiters)

namespace Fault

def kind : Fault → ProblemKind
  | unclosedTag .. => .unclosedTag
  | emptyTag .. => .emptyTag
  | badDelimiters .. => .invalidDelimiters
  | unopenedSection .. => .unopenedSection
  | mismatchedSection .. => .mismatchedSection
  | unclosedSection .. => .unclosedSection

def region : Fault → Region
  | unclosedTag r _ | emptyTag r | badDelimiters r _ | unopenedSection r _
  | mismatchedSection r _ _ | unclosedSection r _ _ => r

/-- The wording that asks for the end of a section. -/
def expectedClose (key : List Char) (d : Delimiters) : String :=
  "expected `" ++ String.ofList d.opening ++ "/" ++ String.ofList key ++
    String.ofList d.closing ++ "`, did you close every section?"

def help : Fault → String
  | unclosedTag _ closing => "expected `" ++ String.ofList closing ++ "`"
  | emptyTag _ => "expected a name, such as `person.name` or `.`"
  | badDelimiters _ problem => problem.help
  | unopenedSection _ key => "section `" ++ String.ofList key ++ "` was never opened"
  | mismatchedSection _ expected d | unclosedSection _ expected d => expectedClose expected d

def diagnostic (fault : Fault) (source : List Char) : Diagnostic :=
  { Diagnostic.ofKind fault.kind source fault.region with help := some fault.help }

end Fault

end LogicLess
