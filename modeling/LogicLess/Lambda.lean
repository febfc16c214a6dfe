import LogicLess.Context
import LogicLess.Delimiters
import LogicLess.Value.Text

/-!
# Lambdas

A lambda is called with the data of the run and, by a section, with the source between its tags. It
answers with a value or a failure, and before that may ask any number of times for a text to be
rendered where it was called. What it does may depend on everything that happened before: the
calls of the run and the texts that they asked for.
-/

namespace LogicLess

/-- What a lambda is told when it is called. -/
structure Invocation where
  /-- The data that the run began with. -/
  root : Value
  /-- The source between the tags of the section that called; nothing if a value tag called. -/
  text : Option (List Char)

namespace Invocation

def dump (i : Invocation) : Dump :=
  .record "Invocation"
    [("root", i.root.dump), ("text", .ofOption (i.text.map fun t => .quoted (String.ofList t)))]
    true

end Invocation

/-- A call of a lambda with all that it is bound to. -/
structure Call where
  /-- The handle of the lambda. -/
  lambda : Nat
  invocation : Invocation
  /-- The delimiters for the texts of the lambda. -/
  delimiters : Delimiters
  /-- The context of the tag that called. -/
  context : Context

/-- Something that a lambda can take notice of. -/
inductive Event
  | called (call : Call)
  /-- A text that a lambda asked for was rendered or failed to be. -/
  | rendered (result : Except Diagnostic (List Char))

/-- The events so far, latest first. -/
abbrev History := List Event

namespace History

def calls (history : History) (handle : Nat) : Nat :=
  history.countP fun
    | .called call => call.lambda == handle
    | .rendered _ => false

end History

/-- What a lambda does in one call. -/
inductive Behaviour
  | returns (v : Value)
  | fails (d : Diagnostic)
  /-- Asks for a text to be rendered and goes on with the outcome and what happened meanwhile. -/
  | renders (text : List Char) (next : Except Diagnostic (List Char) → History → Behaviour)

/-- The lambdas of a run, by their handles. -/
abbrev Lambdas := Nat → Invocation → History → Behaviour

namespace Value

/-- The text of the value that a lambda returned. An absent value has none. -/
def answerText (v : Value) : List Char :=
  if v.isTruthy then v.text else []

end Value

end LogicLess
