import LogicLess.Proofs.Output
import LogicLess.Render

/-!
# The meaning of a program

A tree of tokens can be run without scopes: token by token, with the tokens of a section where its
tag stands. The scopes of the tree run the same way. They drop empty text, join texts and start a
line once, none of which shows in an output, and the index of a section leads to its own tokens.
-/

namespace LogicLess

abbrev TreeRunner := Delimiters → Context → List Token → Run Unit

namespace Token

variable [Alphabet]

def source (run : TreeRunner) : TextRunner := fun delimiters context text =>
  match parse delimiters text with
  | .ok tokens => run delimiters context tokens
  | .error fault => throw (.failed { fault.diagnostic text with name := none })

/-- Runs a token of a template that began with the given delimiters. Only templates that are found
by name are run by their scopes. -/
def step (env : Environment) (templates : ScopeRunner) (run : TreeRunner) (delimiters : Delimiters)
    (context : Context) : Token → Run Unit
  | .text t => Run.onOutput (·.write t)
  | .lineStart => Run.onOutput Output.startLine
  | .value path escaped => Run.value env (source run) delimiters context path escaped
  | .block path true body _ _ _ =>
    Run.inverted (fun context => run delimiters context body) context path
  | .block path false body raw closing _ =>
    Run.block env (source run) (fun context => run delimiters context body) context path raw closing
  | .embed name indent => Run.embed env templates context name indent

/-- Runs a tree of tokens, with lists of tokens nested at most `depth` deep. -/
def walk (env : Environment) : Nat → TreeRunner
  | 0, _, _, _ => throw .exhausted
  | depth + 1, delimiters, context, tokens =>
    tokens.forM (step env (Run.scope env depth) (walk env depth) delimiters context)

end Token

namespace Run

theorem onOutput_bind (f g : Output → Output) :
    (onOutput f >>= fun _ => onOutput g) = onOutput (fun o => g (f o)) := rfl

theorem onOutput_self : onOutput (fun o => o) = pure () := rfl

private theorem forM_of_getLast? {l : List Instruction} {i : Instruction} (h : l.getLast? = some i)
    (f : Instruction → Run Unit) : l.forM f = (do l.dropLast.forM f; f i) := by
  obtain ⟨front, rfl⟩ := List.getLast?_eq_some_iff.1 h
  simp

variable [Alphabet] (env : Environment) (run : ScopeRunner) (template : Template)
  (context : Context)

private theorem step_text_nil : step env run template context (.text []) = pure () := by
  rw [step]
  exact onOutput_self

private theorem step_text_append (s t : List Char) :
    step env run template context (.text (s ++ t)) =
      (do step env run template context (.text s); step env run template context (.text t)) := by
  simp only [step, onOutput_bind, Output.write_append]

private theorem step_lineStart_twice :
    step env run template context .lineStart =
      (do step env run template context .lineStart
          step env run template context .lineStart) := by
  simp only [step, onOutput_bind, Output.startLine_startLine]

/-- An instruction that is added to a scope runs after the others, whatever form it takes there. -/
theorem forM_push (s : Scope) (i : Instruction) :
    (s.push i).instructions.forM (step env run template context) =
      (do s.instructions.forM (step env run template context)
          step env run template context i) := by
  unfold Scope.push
  split
  · simp [step_text_nil]
  · next t previous _ h =>
    rw [forM_of_getLast? h]
    simp [step_text_append]
  · next h =>
    rw [forM_of_getLast? h]
    simp only [bind_assoc]
    rw [← step_lineStart_twice]
  · simp

theorem forM_ofInstructions (instructions : List Instruction) :
    (Scope.ofInstructions instructions).instructions.forM (step env run template context) =
      instructions.forM (step env run template context) := by
  have h : ∀ (s : Scope) (rest : List Instruction),
      (rest.foldl Scope.push s).instructions.forM (step env run template context) =
        (do s.instructions.forM (step env run template context)
            rest.forM (step env run template context)) := by
    intro s rest
    induction rest generalizing s with
    | nil => simp
    | cons i rest ih =>
      simp only [List.foldl_cons, ih, forM_push, List.forM_eq_forM, List.forM_cons, bind_assoc]
  simpa [Scope.ofInstructions, Scope.empty] using h Scope.empty instructions

end Run

namespace Token

/-- The scopes stand in the table from the index `next` on. -/
def Placed (table : List Scope) (next : Nat) (scopes : List Scope) : Prop :=
  ∃ before after, before.length = next ∧ table = before ++ scopes ++ after

theorem Placed.left {table xs ys : List Scope} {next : Nat}
    (h : Placed table next (xs ++ ys)) : Placed table next xs := by
  obtain ⟨before, after, hl, rfl⟩ := h
  exact ⟨before, ys ++ after, hl, by simp⟩

theorem Placed.right {table xs ys : List Scope} {next : Nat}
    (h : Placed table next (xs ++ ys)) : Placed table (next + xs.length) ys := by
  obtain ⟨before, after, hl, rfl⟩ := h
  exact ⟨before ++ xs, after, by simp [hl], by simp⟩

theorem Placed.getElem?_head {table scopes : List Scope} {s : Scope} {next : Nat}
    (h : Placed table next (s :: scopes)) : table[next]? = some s := by
  obtain ⟨before, after, rfl, rfl⟩ := h
  simp

/-- The scope at `index` and those from `next` on are the scopes of a list of tokens. -/
def Compiled (table : List Scope) (index next : Nat) (tokens : List Token) : Prop :=
  table[index]? = some (Scope.ofInstructions (compileAll next tokens).1) ∧
    Placed table next (compileAll next tokens).2

theorem compiled_scopes (tokens : List Token) : Compiled (scopes tokens) 0 1 tokens :=
  ⟨rfl, [Scope.ofInstructions (compileAll 1 tokens).1], [], rfl, by simp [scopes]⟩

theorem compiled_of_placed {table : List Scope} {next : Nat} {body : List Token}
    (h : Placed table next (Scope.ofInstructions (compileAll (next + 1) body).1 ::
      (compileAll (next + 1) body).2)) : Compiled table next (next + 1) body :=
  ⟨h.getElem?_head, Placed.right (show Placed table next ([_] ++ _) from h)⟩

variable [Alphabet] (env : Environment)

private theorem source_eq {templates : ScopeRunner} {run : TreeRunner}
    (h : ∀ name delimiters context tokens,
      templates (Template.ofTokens name delimiters tokens) 0 context =
        run delimiters context tokens) :
    Run.source templates = source run := by
  funext delimiters context text
  simp only [Run.source, source, Template.compile]
  cases parse delimiters text with
  | ok tokens => exact h none delimiters context tokens
  | error fault => rfl

/-- Instructions run like the tokens that they come from, if the scopes run like their tokens. -/
private theorem forM_compileAll {templates : ScopeRunner} {run : TreeRunner} (template : Template)
    (context : Context) (hsource : Run.source templates = source run)
    (hrun : ∀ index next body, Compiled template.scopes index next body →
      ∀ c, templates template index c = run template.delimiters c body)
    (tokens : List Token) (next : Nat)
    (hplaced : Placed template.scopes next (compileAll next tokens).2) :
    (compileAll next tokens).1.forM (Run.step env templates template context) =
      tokens.forM (step env templates run template.delimiters context) := by
  induction tokens generalizing next with
  | nil => rfl
  | cons token rest ih =>
    have hrest := ih _ hplaced.right
    have htoken : Run.step env templates template context (compile next token).1 =
        step env templates run template.delimiters context token := by
      cases token with
      | text | lineStart | embed => rfl
      | value path escaped => simp only [compile, Run.step, step, hsource]
      | block path inverted body raw closing region =>
        have hbody : templates template next = fun c => run template.delimiters c body :=
          funext (hrun _ _ body (compiled_of_placed hplaced.left))
        cases inverted <;> simp [compile, Run.step, step, hsource, hbody]
    simp only [compileAll, List.forM_eq_forM, List.forM_cons] at hrest ⊢
    rw [htoken, hrest]

/-- A scope runs like the tokens that it comes from, at every bound. -/
theorem scope_eq_walk (depth : Nat) : ∀ (template : Template) (index next : Nat)
    (tokens : List Token), Compiled template.scopes index next tokens → ∀ context,
      Run.scope env depth template index context =
        walk env depth template.delimiters context tokens := by
  induction depth with
  | zero => intros; rfl
  | succ depth ih =>
    intro template index next tokens h context
    have hsource : Run.source (Run.scope env depth) = source (walk env depth) :=
      source_eq fun name delimiters context tokens =>
        ih (Template.ofTokens name delimiters tokens) 0 1 tokens (compiled_scopes tokens) context
    rw [Run.scope, h.1]
    simp only [Run.forM_ofInstructions]
    exact forM_compileAll env template context hsource (fun i n body hb => ih template i n body hb)
      tokens next h.2

theorem scope_zero_eq_walk (depth : Nat) (name : Option String) (delimiters : Delimiters)
    (tokens : List Token) : Run.scope env depth (Template.ofTokens name delimiters tokens) 0 =
      fun context => walk env depth delimiters context tokens :=
  funext (scope_eq_walk env depth _ 0 1 tokens (compiled_scopes tokens))

/-- Compiling a tree keeps its meaning: for every bound, the scopes and the tokens give the same
outcome, output and history from the same state. So one of the two runs ends if the other does. -/
theorem scope_ofTokens (depth : Nat) (name : Option String) (delimiters : Delimiters)
    (tokens : List Token) (context : Context) :
    Run.scope env depth (Template.ofTokens name delimiters tokens) 0 context =
      walk env depth delimiters context tokens :=
  scope_eq_walk env depth (Template.ofTokens name delimiters tokens) 0 1 tokens
    (compiled_scopes tokens) context

end Token

end LogicLess
