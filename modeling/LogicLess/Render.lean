import LogicLess.Lambda
import LogicLess.Output
import LogicLess.Template

/-!
# Rendering

A template is run scope by scope against a context. The run writes to an output and keeps the
history of lambda calls. It stops early if a lambda fails or its text is no template. Templates may
refer to each other without end, so a run is given a bound on how deep scopes may nest; a run that
is cut off by the bound is told apart from one that fails.
-/

namespace LogicLess

/-- Where templates that a tag refers to are found. -/
abbrev Partials := String → Option Template

/-- What a run can refer to besides the data. -/
structure Environment where
  partials : Partials
  lambdas : Lambdas

/-- What a run changes. -/
structure RunState where
  output : Output
  history : History

/-- Why a run stopped early. -/
inductive Stop
  /-- Scopes are nested deeper than the bound. -/
  | exhausted
  | failed (d : Diagnostic)

/-- A part of a run. What was written and called is kept if it stops early. -/
abbrev Run := ExceptT Stop (StateM RunState)

/-- How a run executes the scope of a template with a given index. -/
abbrev ScopeRunner := Template → Nat → Context → Run Unit

/-- How a run reads a text as a template and runs it. -/
abbrev TextRunner := Delimiters → Context → List Char → Run Unit

namespace Run

def onOutput (f : Output → Output) : Run Unit :=
  modify fun s => { s with output := f s.output }

def record (event : Event) : Run Unit :=
  modify fun s => { s with history := event :: s.history }

/-- Runs with an output of its own and gives what was written to it. -/
def capture (act : Run Unit) : Run (List Char) := ExceptT.mk fun s =>
  let (result, after) := act.run { s with output := .empty }
  (result.map fun _ => after.output.text, { after with output := s.output })

def withIndent (indent : List Char) (act : Run Unit) : Run Unit := ExceptT.mk fun s =>
  let (result, after) := act.run { s with output := s.output.pushIndent indent }
  (result, { after with output := after.output.popIndent s.output.indent.length })

/-- Runs and gives a failure as an outcome. -/
def attempt {α : Type} (act : Run α) : Run (Except Diagnostic α) := ExceptT.mk fun s =>
  match act.run s with
  | (.ok a, after) => (.ok (.ok a), after)
  | (.error (.failed d), after) => (.ok (.error d), after)
  | (.error .exhausted, after) => (.error .exhausted, after)

/-- Reads a text as a template and runs it. -/
def source [Alphabet] (run : ScopeRunner) : TextRunner := fun delimiters context text =>
  match Template.compile delimiters text none with
  | .ok template => run template 0 context
  | .error d => throw (.failed d)

/-- What a text gives when it is run as a template of its own. -/
def expand (source : TextRunner) (delimiters : Delimiters) (context : Context)
    (text : List Char) : Run (List Char) :=
  capture (source delimiters context text)

/-- Lets a lambda do what it does, with `render` for the texts that it asks for. -/
def perform (render : List Char → Run (List Char)) : Behaviour → Run Value
  | .returns v => pure v
  | .fails d => throw (.failed d)
  | .renders text next => do
    let result ← attempt (render text)
    record (.rendered result)
    perform render (next result (← get).history)

def call (env : Environment) (source : TextRunner) (c : Call) : Run Value := do
  let history := (← get).history
  record (.called c)
  perform (expand source c.delimiters c.context) (env.lambdas c.lambda c.invocation history)

/-- Runs a value tag. A lambda is called without text, and what it returns is run as a template with
the delimiters at the beginning of the template of the tag. -/
def value (env : Environment) (source : TextRunner) (delimiters : Delimiters)
    (context : Context) (path : Path) (escaped : Bool) : Run Unit :=
  match context.lookup path with
  | none => pure ()
  | some (.lambda handle) => do
    let answer ← call env source ⟨handle, ⟨context.root, none⟩, delimiters, context⟩
    let text ← expand source delimiters context answer.answerText
    onOutput (·.writeText text escaped)
  | some v => onOutput (·.writeValue v escaped)

/-- Runs a section: its body once for every item of a list, or once for any other value that is not
absent. A lambda is called with the source of the section, and what it returns is run as a template
in place of the body. -/
def block (env : Environment) (source : TextRunner) (body : Context → Run Unit)
    (context : Context) (path : Path) (raw : List Char) (delimiters : Delimiters) : Run Unit :=
  match context.lookup path with
  | none => pure ()
  | some (.lambda handle) => do
    let answer ← call env source ⟨handle, ⟨context.root, some raw⟩, delimiters, context⟩
    source delimiters context answer.answerText
  | some (.list items) => items.forM fun item => body (context.push item)
  | some v => if v.isTruthy then body (context.push v) else pure ()

def showsInverted (context : Context) (path : Path) : Bool :=
  match context.lookup path with
  | none => true
  | some (.list items) => items.isEmpty
  | some v => !v.isTruthy

def inverted (body : Context → Run Unit) (context : Context) (path : Path) : Run Unit :=
  if showsInverted context path then body context else pure ()

/-- Runs another template in place of a tag. One that is not found writes nothing. -/
def embed (env : Environment) (run : ScopeRunner) (context : Context) (name : String)
    (indent : List Char) : Run Unit :=
  match env.partials name with
  | none => pure ()
  | some template => withIndent indent (run template 0 context)

def step [Alphabet] (env : Environment) (run : ScopeRunner) (template : Template)
    (context : Context) :
    Instruction → Run Unit
  | .text t => onOutput (·.write t)
  | .lineStart => onOutput Output.startLine
  | .value path escaped => value env (source run) template.delimiters context path escaped
  | .block path body raw delimiters =>
    block env (source run) (run template body) context path raw delimiters
  | .inverted path body => inverted (run template body) context path
  | .embed name indent => embed env run context name indent

/-- Runs a scope of a template, with scopes nested at most `depth` deep. -/
def scope [Alphabet] (env : Environment) : Nat → ScopeRunner
  | 0, _, _, _ => throw .exhausted
  | depth + 1, template, index, context =>
    match template.scopes[index]? with
    | none => pure ()
    | some s => s.instructions.forM (step env (scope env depth) template context)

end Run

namespace Template

/-- Runs a template with the given data after the given history. The answer is what was written, or
why the run stopped, and the history after it. -/
def render [Alphabet] (env : Environment) (depth : Nat) (template : Template) (data : Value)
    (history : History) : Except Stop (List Char) × History :=
  let (result, after) :=
    (Run.scope env depth template 0 (.ofRoot data)).run ⟨.empty, history⟩
  (result.map fun _ => after.output.text, after.history)

end Template

end LogicLess
