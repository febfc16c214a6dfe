import LogicLess.Proofs.Render.Bound

/-!
# What happens in a run

A run can be watched. Besides what it does there is then a record of the instructions that it runs, the
lambdas that it calls and the texts that it reads for them, each with all that happens meanwhile. Watching
a run changes nothing in it.
-/

namespace LogicLess

/-- Something that happens in a run, with what happens inside it in order. -/
inductive Happening
  | step (template : Template) (context : Context) (i : Instruction) (inside : List Happening)
  /-- A call with the texts that the lambda asked for, and its answer if there is one. -/
  | call (c : Call) (asked : List Happening) (answer : Option Value)
  /-- A text is read as a template and run. -/
  | read (delimiters : Delimiters) (context : Context) (text : List Char) (inside : List Happening)

namespace Happening

def inside : Happening → List Happening
  | step _ _ _ inside | call _ inside _ | read _ _ _ inside => inside

mutual

/-- What happened and everything that happened inside it, in the order in which it began. -/
def nodes : Happening → List Happening
  | step template context i inside => step template context i inside :: allNodes inside
  | call c asked answer => call c asked answer :: allNodes asked
  | read delimiters context text inside => read delimiters context text inside :: allNodes inside
termination_by structural h => h

def allNodes : List Happening → List Happening
  | [] => []
  | h :: rest => nodes h ++ allNodes rest
termination_by structural hs => hs

end

theorem nodes_eq (h : Happening) : h.nodes = h :: allNodes h.inside := by
  cases h with
  | step | call | read => rfl

@[simp] theorem allNodes_append (xs ys : List Happening) :
    allNodes (xs ++ ys) = allNodes xs ++ allNodes ys := by
  induction xs with
  | nil => rfl
  | cons x xs ih => simp [allNodes, ih]

theorem mem_allNodes {h : Happening} {hs : List Happening} :
    h ∈ allNodes hs ↔ ∃ top ∈ hs, h ∈ top.nodes := by
  induction hs with
  | nil => simp [allNodes]
  | cons top rest ih => simp [allNodes, ih]

end Happening

/-- A run with what happens in it from every state. -/
structure Watched (α : Type) where
  act : Run α
  seen : RunState → List Happening

namespace Watched

variable {α β : Type}

instance : Monad Watched where
  pure a := ⟨pure a, fun _ => []⟩
  bind w next :=
    { act := w.act >>= fun a => (next a).act
      seen := fun s => w.seen s ++
        match w.act.run s with
        | (.ok a, after) => (next a).seen after
        | (.error _, _) => [] }

def quiet (act : Run α) : Watched α := ⟨act, fun _ => []⟩

/-- Takes all that happens as the inside of one happening. -/
def within (whole : Except Stop α → List Happening → Happening) (w : Watched α) : Watched α :=
  ⟨w.act, fun s => [whole (w.act.run s).1 (w.seen s)]⟩

def capture (w : Watched Unit) : Watched (List Char) :=
  ⟨Run.capture w.act, fun s => w.seen { s with output := .empty }⟩

def withIndent (indent : List Char) (w : Watched Unit) : Watched Unit :=
  ⟨Run.withIndent indent w.act, fun s => w.seen { s with output := s.output.pushIndent indent }⟩

def attempt (w : Watched α) : Watched (Except Diagnostic α) := ⟨Run.attempt w.act, w.seen⟩

abbrev ScopeRunner := Template → Nat → Context → Watched Unit

abbrev TextRunner := Delimiters → Context → List Char → Watched Unit

def source [Alphabet] (run : ScopeRunner) : TextRunner := fun delimiters context text =>
  within (fun _ => .read delimiters context text) <|
    match Template.compile delimiters text none with
    | .ok template => run template 0 context
    | .error d => quiet (throw (.failed d))

def expand (source : TextRunner) (delimiters : Delimiters) (context : Context)
    (text : List Char) : Watched (List Char) :=
  capture (source delimiters context text)

def perform (render : List Char → Watched (List Char)) : Behaviour → Watched Value
  | .returns v => pure v
  | .fails d => quiet (throw (.failed d))
  | .renders text next => do
    let result ← attempt (render text)
    quiet (Run.record (.rendered result))
    let s ← quiet get
    perform render (next result s.history)

def call (env : Environment) (source : TextRunner) (c : Call) : Watched Value :=
  within (fun result asked => .call c asked result.toOption) do
    let s ← quiet get
    quiet (Run.record (.called c))
    perform (expand source c.delimiters c.context) (env.lambdas c.lambda c.invocation s.history)

def value (env : Environment) (source : TextRunner) (delimiters : Delimiters)
    (context : Context) (path : Path) (escaped : Bool) : Watched Unit :=
  match context.lookup path with
  | none => pure ()
  | some (.lambda handle) => do
    let answer ← call env source ⟨handle, ⟨context.root, none⟩, delimiters, context⟩
    let text ← expand source delimiters context answer.answerText
    quiet (Run.onOutput (·.writeText text escaped))
  | some v => quiet (Run.onOutput (·.writeValue v escaped))

def block (env : Environment) (source : TextRunner) (body : Context → Watched Unit)
    (context : Context) (path : Path) (raw : List Char) (delimiters : Delimiters) : Watched Unit :=
  match context.lookup path with
  | none => pure ()
  | some (.lambda handle) => do
    let answer ← call env source ⟨handle, ⟨context.root, some raw⟩, delimiters, context⟩
    source delimiters context answer.answerText
  | some (.list items) => items.forM fun item => body (context.push item)
  | some v => if v.isTruthy then body (context.push v) else pure ()

def inverted (body : Context → Watched Unit) (context : Context) (path : Path) : Watched Unit :=
  if Run.showsInverted context path then body context else pure ()

def embed (env : Environment) (run : ScopeRunner) (context : Context) (name : String)
    (indent : List Char) : Watched Unit :=
  match env.partials name with
  | none => pure ()
  | some template => withIndent indent (run template 0 context)

/-- What an instruction does, without the record of the instruction itself. -/
def effect [Alphabet] (env : Environment) (run : ScopeRunner) (template : Template)
    (context : Context) :
    Instruction → Watched Unit
  | .text t => quiet (Run.onOutput (·.write t))
  | .lineStart => quiet (Run.onOutput Output.startLine)
  | .value path escaped => value env (source run) template.delimiters context path escaped
  | .block path body raw delimiters =>
    block env (source run) (run template body) context path raw delimiters
  | .inverted path body => inverted (run template body) context path
  | .embed name indent => embed env run context name indent

def step [Alphabet] (env : Environment) (run : ScopeRunner) (template : Template)
    (context : Context) (i : Instruction) : Watched Unit :=
  within (fun _ => .step template context i) (effect env run template context i)

def scope [Alphabet] (env : Environment) : Nat → ScopeRunner
  | 0, _, _, _ => quiet (throw .exhausted)
  | depth + 1, template, index, context =>
    match template.scopes[index]? with
    | none => pure ()
    | some s => s.instructions.forM (step env (scope env depth) template context)


theorem act_bind (w : Watched α) (next : α → Watched β) :
    (w >>= next).act = w.act >>= fun a => (next a).act := rfl

theorem seen_bind (w : Watched α) (next : α → Watched β) (s : RunState) :
    (w >>= next).seen s = w.seen s ++
      match w.act.run s with
      | (.ok a, after) => (next a).seen after
      | (.error _, _) => [] := rfl

theorem act_forM (l : List α) (f : α → Watched Unit) :
    (l.forM f).act = l.forM fun a => (f a).act :=
  Run.forM_related (n := Run) (R := fun (w : Watched Unit) act => w.act = act) rfl
    (fun hx hy => by rw [act_bind, hx, hy]) fun _ _ => rfl

theorem act_perform (render : List Char → Watched (List Char)) (behaviour : Behaviour) :
    (perform render behaviour).act = Run.perform (fun text => (render text).act) behaviour := by
  induction behaviour with
  | returns v => rfl
  | fails d => rfl
  | renders text next ih =>
    simp only [perform, act_bind, ih]
    rfl

def ScopeRunner.act (run : ScopeRunner) : LogicLess.ScopeRunner :=
  fun template index context => (run template index context).act

theorem act_source [Alphabet] (run : ScopeRunner) (delimiters : Delimiters) (context : Context)
    (text : List Char) :
    (source run delimiters context text).act =
      Run.source (ScopeRunner.act run) delimiters context text := by
  simp only [source, within, Run.source]
  cases Template.compile delimiters text none <;> rfl

theorem act_call [Alphabet] (env : Environment) (run : ScopeRunner) (c : Call) :
    (call env (source run) c).act = Run.call env (Run.source (ScopeRunner.act run)) c := by
  have hrender : (fun text => (expand (source run) c.delimiters c.context text).act) =
      Run.expand (Run.source (ScopeRunner.act run)) c.delimiters c.context := by
    funext text
    simp only [expand, capture, act_source, Run.expand]
  simp only [call, within, act_bind, act_perform, hrender]
  rfl

theorem act_step [Alphabet] (env : Environment) (run : ScopeRunner) (template : Template)
    (context : Context) (i : Instruction) :
    (step env run template context i).act =
      Run.step env (ScopeRunner.act run) template context i := by
  cases i with
  | text t => rfl
  | lineStart => rfl
  | value path escaped =>
    simp only [step, within, effect, value, Run.step, Run.value]
    cases context.lookup path with
    | none => rfl
    | some v =>
      cases v with
      | lambda handle =>
        simp only [act_bind, act_call, expand, capture, act_source]
        rfl
      | null | bool | number | string | list | map => rfl
  | block path body raw delimiters =>
    simp only [step, within, effect, block, Run.step, Run.block]
    cases context.lookup path with
    | none => rfl
    | some v =>
      cases v with
      | lambda handle => simp only [act_bind, act_call, act_source]
      | list items => exact act_forM items _
      | null | bool | number | string | map => dsimp only; split <;> rfl
  | inverted path body =>
    simp only [step, within, effect, inverted, Run.step, Run.inverted]
    split <;> rfl
  | embed name indent =>
    simp only [step, within, effect, embed, Run.step, Run.embed]
    cases env.partials name <;> rfl

/-- A run that is watched does what it does otherwise. -/
theorem act_scope [Alphabet] (env : Environment) (depth : Nat) :
    ScopeRunner.act (scope env depth) = Run.scope env depth := by
  induction depth with
  | zero => rfl
  | succ depth ih =>
    funext template index context
    simp only [ScopeRunner.act, scope, Run.scope]
    cases template.scopes[index]? with
    | none => rfl
    | some s => simp only [act_forM, act_step, ih]

end Watched

end LogicLess
