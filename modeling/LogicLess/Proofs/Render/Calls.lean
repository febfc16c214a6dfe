import LogicLess.Proofs.Render.Happenings
import LogicLess.Text.IdentifierTable

/-!
# The calls of a run

Every tag that leads to a lambda calls it once, bound to the data of the run, to the text and the
delimiters of the tag and to the context at the tag. What the lambda asks for and what it returns is read
with these delimiters and run in this context. No other call is made, however sections, other templates
and the texts of lambdas are nested.
-/

namespace LogicLess

namespace Value

def lambda? : Value → Option Nat
  | lambda handle => some handle
  | null | bool _ | number _ | string _ | list _ | map _ => none

end Value

namespace Instruction

/-- The call that an instruction has to make. An inverted section has to make none. -/
def call? (data : Value) (template : Template) (context : Context) : Instruction → Option Call
  | .value path _ => ((context.lookup path).bind Value.lambda?).map fun handle =>
    ⟨handle, ⟨data, none⟩, template.delimiters, context⟩
  | .block path _ raw delimiters => ((context.lookup path).bind Value.lambda?).map fun handle =>
    ⟨handle, ⟨data, some raw⟩, delimiters, context⟩
  | .text _ | .lineStart | .inverted _ _ | .embed _ _ => none

/-- The scopes that an instruction without a call may run, and the contexts for them. -/
inductive Runs (env : Environment) (template : Template) (context : Context) :
    Instruction → Template → Nat → Context → Prop
  | item {path body raw delimiters items v} (h : context.lookup path = some (.list items))
      (hv : v ∈ items) :
      Runs env template context (.block path body raw delimiters) template body (context.push v)
  | block {path body raw delimiters v} (h : context.lookup path = some v)
      (hlist : ∀ items, v ≠ .list items) (htruthy : v.isTruthy = true) :
      Runs env template context (.block path body raw delimiters) template body (context.push v)
  | inverted {path body} (h : Run.showsInverted context path = true) :
      Runs env template context (.inverted path body) template body context
  | embed {name indent other} (h : env.partials name = some other) :
      Runs env template context (.embed name indent) other 0 context

end Instruction

/-- The texts that a lambda asks for, read with the delimiters and run in the context of the call, and its
answer if it gives one. -/
inductive Behaviour.Asks (c : Call) : Behaviour → List Happening → Option Value → Prop
  | returns (v : Value) : Asks c (.returns v) [] (some v)
  | fails (d : Diagnostic) : Asks c (.fails d) [] none
  | renders {text next inside result history asked answer}
      (h : Asks c (next result history) asked answer) :
      Asks c (.renders text next) (.read c.delimiters c.context text inside :: asked) answer
  | stopped {text next inside} :
      Asks c (.renders text next) [.read c.delimiters c.context text inside] none

/-- A single call, and if it is answered, the answer read with the delimiters and run in the context of
the call. -/
inductive Call.Answered (c : Call) : List Happening → Prop
  | stopped (asked : List Happening) : Answered c [.call c asked none]
  | returned (asked : List Happening) (v : Value) (inside : List Happening) :
      Answered c [.call c asked (some v), .read c.delimiters c.context v.answerText inside]

def Event.call? : Event → Option Call
  | .called c => some c
  | .rendered _ => none

def History.allCalls (history : History) : List Call :=
  history.reverse.filterMap Event.call?

@[simp] theorem History.allCalls_called (history : History) (c : Call) :
    History.allCalls (.called c :: history) = history.allCalls ++ [c] := by
  simp [History.allCalls, Event.call?]

@[simp] theorem History.allCalls_rendered (history : History)
    (result : Except Diagnostic (List Char)) :
    History.allCalls (.rendered result :: history) = history.allCalls := by
  simp [History.allCalls, Event.call?]

namespace Happening

variable {env : Environment} {data : Value}

def call? (data : Value) : Happening → Option Call
  | step template context i _ => i.call? data template context
  | call _ _ _ | read _ _ _ _ => none

def due (data : Value) (hs : List Happening) : List Call :=
  (allNodes hs).filterMap (call? data)

@[simp] theorem due_nil : due data [] = [] := rfl

@[simp] theorem due_append (xs ys : List Happening) :
    due data (xs ++ ys) = due data xs ++ due data ys := by
  simp [due]

theorem due_singleton (h : Happening) :
    due data [h] = (h.call? data).toList ++ due data h.inside := by
  simp only [due, allNodes, nodes_eq, List.append_nil, List.filterMap_cons]
  cases h.call? data <;> rfl

def IsStep (template : Template) (index : Nat) (context : Context) (h : Happening) : Prop :=
  ∃ s i inside, template.scopes[index]? = some s ∧ i ∈ s.instructions ∧
    h = .step template context i inside

variable [Alphabet]

/-- What may happen inside a step, a call and the reading of a text. -/
inductive Bound (env : Environment) (data : Value) : Happening → Prop
  | calls {template context i inside c} (h : i.call? data template context = some c)
      (hinside : c.Answered inside) : Bound env data (.step template context i inside)
  | step {template context i inside} (h : i.call? data template context = none)
      (hinside : ∀ inner ∈ inside, ∃ template' index context',
        i.Runs env template context template' index context' ∧ inner.IsStep template' index context') :
      Bound env data (.step template context i inside)
  | call {c history asked answer}
      (h : (env.lambdas c.lambda c.invocation history).Asks c asked answer) :
      Bound env data (.call c asked answer)
  | read {delimiters context text inside}
      (h : ∀ inner ∈ inside, ∃ template, Template.compile delimiters text none = .ok template ∧
        inner.IsStep template 0 context) :
      Bound env data (.read delimiters context text inside)

def Sound (env : Environment) (data : Value) (h : Happening) : Prop :=
  ∀ node ∈ h.nodes, node.Bound env data

theorem Bound.sound {h : Happening} (hbound : h.Bound env data)
    (hinside : ∀ inner ∈ h.inside, inner.Sound env data) : h.Sound env data := by
  intro node hnode
  rw [nodes_eq, List.mem_cons, mem_allNodes] at hnode
  rcases hnode with rfl | ⟨inner, hinner, hnode⟩
  · exact hbound
  · exact hinside inner hinner node hnode

end Happening

namespace Watched

variable {α β : Type} {env : Environment} {data : Value} {run : ScopeRunner} {c : Call}

def Shows (P : Happening → Prop) (w : Watched α) : Prop := ∀ s, ∀ h ∈ w.seen s, P h

namespace Shows

variable {P : Happening → Prop}

theorem quiet (act : Run α) : Shows P (quiet act) := fun _ _ h => absurd h List.not_mem_nil

theorem pure (a : α) : Shows P (pure a : Watched α) := fun _ _ h => absurd h List.not_mem_nil

theorem bind {w : Watched α} {next : α → Watched β} (h : Shows P w) (hnext : ∀ a, Shows P (next a)) :
    Shows P (w >>= next) := by
  intro s happening hmem
  rw [seen_bind, List.mem_append] at hmem
  rcases hmem with hmem | hmem
  · exact h s happening hmem
  · split at hmem
    · exact hnext _ _ happening hmem
    · exact absurd hmem List.not_mem_nil

theorem forM {l : List α} {f : α → Watched Unit} (h : ∀ a ∈ l, Shows P (f a)) :
    Shows P (l.forM f) :=
  Run.forM_rule (pure ()) (fun hx hy => hx.bind fun _ => hy) h

end Shows

theorem asks_perform {render : List Char → Watched (List Char)}
    (h : ∀ text s, ∃ inside, (render text).seen s = [.read c.delimiters c.context text inside])
    (behaviour : Behaviour) (s : RunState) :
    behaviour.Asks c ((perform render behaviour).seen s)
      ((perform render behaviour).act.run s).1.toOption := by
  induction behaviour generalizing s with
  | returns v => exact .returns v
  | fails d => exact .fails d
  | renders text next ih =>
    obtain ⟨inside, hinside⟩ := h text s
    have hseen : (attempt (render text)).seen s = [.read c.delimiters c.context text inside] := hinside
    rw [perform, seen_bind, act_bind, Run.run_bind, hseen]
    -- Only a text that reaches the bound stops the lambda: a failure is an outcome that it goes on with.
    rcases (attempt (render text)).act.run s with ⟨stop | result, after⟩
    · exact .stopped
    · exact .renders (ih result _ { after with history := .rendered result :: after.history })

theorem answered_call {source : TextRunner} {next : Value → Watched Unit}
    (h : ∀ v s, ∃ inside, (next v).seen s = [.read c.delimiters c.context v.answerText inside])
    (s : RunState) : c.Answered ((call env source c >>= next).seen s) := by
  have hcall : ∃ asked, (call env source c).seen s =
      [.call c asked ((call env source c).act.run s).1.toOption] := ⟨_, rfl⟩
  obtain ⟨asked, hasked⟩ := hcall
  rw [seen_bind, hasked]
  rcases (call env source c).act.run s with ⟨stop | v, after⟩
  · exact .stopped asked
  · obtain ⟨inside, hinside⟩ := h v after
    show c.Answered ([.call c asked (some v)] ++ (next v).seen after)
    rw [hinside]
    exact .returned asked v inside

variable [Alphabet]

theorem shows_isStep_scope (env : Environment) (depth : Nat) (template : Template) (index : Nat)
    (context : Context) :
    Shows (Happening.IsStep template index context) (scope env depth template index context) := by
  cases depth with
  | zero => exact .quiet _
  | succ depth =>
    rw [scope]
    cases hscope : template.scopes[index]? with
    | none => exact .pure ()
    | some s =>
      apply Shows.forM
      intro i hi s' h hmem
      rw [List.mem_singleton.1 hmem]
      exact ⟨s, i, _, hscope, hi, rfl⟩

theorem seen_expand (run : ScopeRunner) (delimiters : Delimiters) (context : Context)
    (text : List Char) (s : RunState) :
    ∃ inside, (expand (source run) delimiters context text).seen s =
      [.read delimiters context text inside] := ⟨_, rfl⟩

/-- All that happens is sound, and the calls that are made are those that are due and those of the steps
that happen. -/
structure Accounts (env : Environment) (data : Value) (due : List Call) (w : Watched α) : Prop where
  sound : Shows (Happening.Sound env data) w
  allCalls_eq : ∀ s, (w.act.run s).2.history.allCalls =
    s.history.allCalls ++ due ++ Happening.due data (w.seen s)

namespace Accounts

variable {due : List Call}

theorem quiet {act : Run α} (h : ∀ s, (act.run s).2.history.allCalls = s.history.allCalls) :
    Accounts env data [] (quiet act) where
  sound := .quiet act
  allCalls_eq s := by simpa [Watched.quiet] using h s

theorem onOutput (f : Output → Output) : Accounts env data [] (Watched.quiet (Run.onOutput f)) :=
  quiet fun _ => rfl

theorem pure (a : α) : Accounts env data [] (pure a : Watched α) := quiet fun _ => rfl

theorem bind {w : Watched α} {next : α → Watched β} (h : Accounts env data due w)
    (hnext : ∀ a, Accounts env data [] (next a)) : Accounts env data due (w >>= next) where
  sound := h.sound.bind fun a => (hnext a).sound
  allCalls_eq s := by
    have hw := h.allCalls_eq s
    rw [act_bind, Run.run_bind, seen_bind]
    rcases hrun : w.act.run s with ⟨stop | a, after⟩ <;> rw [hrun] at hw
    · simpa using hw
    · have ha := (hnext a).allCalls_eq after
      simp only [hw] at ha
      simpa using ha

theorem forM {l : List α} {f : α → Watched Unit} (h : ∀ a ∈ l, Accounts env data [] (f a)) :
    Accounts env data [] (l.forM f) :=
  Run.forM_rule (pure ()) (fun hx hy => hx.bind fun _ => hy) h

theorem capture {w : Watched Unit} (h : Accounts env data due w) :
    Accounts env data due (capture w) where
  sound s := h.sound { s with output := .empty }
  allCalls_eq s := h.allCalls_eq { s with output := .empty }

theorem withIndent {w : Watched Unit} (indent : List Char) (h : Accounts env data due w) :
    Accounts env data due (withIndent indent w) where
  sound s := h.sound { s with output := s.output.pushIndent indent }
  allCalls_eq s := h.allCalls_eq { s with output := s.output.pushIndent indent }

theorem attempt {w : Watched α} (h : Accounts env data due w) : Accounts env data due (attempt w) where
  sound := h.sound
  allCalls_eq s := by
    have hw := h.allCalls_eq s
    simp only [Watched.attempt, Run.run_attempt]
    rcases hrun : w.act.run s with ⟨(_ | d) | a, after⟩ <;> rw [hrun] at hw <;> exact hw

theorem perform {render : List Char → Watched (List Char)}
    (h : ∀ text, Accounts env data [] (render text)) (behaviour : Behaviour) :
    Accounts env data [] (perform render behaviour) := by
  induction behaviour with
  | returns v => exact pure v
  | fails d => exact quiet fun _ => rfl
  | renders text next ih =>
    apply bind (h text).attempt
    intro result
    have hrecord : Accounts env data [] (Watched.quiet (Run.record (.rendered result))) :=
      quiet fun s => History.allCalls_rendered s.history result
    apply hrecord.bind
    intro _
    refine bind (quiet fun _ => rfl) ?_
    intro s
    exact ih result s.history

theorem called (c : Call) {next : History → Watched α}
    (h : ∀ history, Accounts env data [] (next history)) :
    Accounts env data [c] (do
      let s ← Watched.quiet get
      Watched.quiet (Run.record (.called c))
      next s.history) where
  sound s := (h s.history).sound { s with history := .called c :: s.history }
  allCalls_eq s := by
    have hnext := (h s.history).allCalls_eq { s with history := .called c :: s.history }
    rw [History.allCalls_called, List.append_nil] at hnext
    exact hnext

theorem within {whole : Except Stop α → List Happening → Happening} {w : Watched α} {rest : List Call}
    (h : Accounts env data due w) (hinside : ∀ result hs, (whole result hs).inside = hs)
    (hdue : ∀ result hs, due = rest ++ ((whole result hs).call? data).toList)
    (hbound : ∀ s, (whole (w.act.run s).1 (w.seen s)).Bound env data) :
    Accounts env data rest (within whole w) where
  sound := by
    intro s happening hmem
    rw [List.mem_singleton.1 hmem]
    apply (hbound s).sound
    rw [hinside]
    exact h.sound s
  allCalls_eq s := by
    have hw := h.allCalls_eq s
    rw [hdue (w.act.run s).1 (w.seen s), ← List.append_assoc,
      List.append_assoc _ (Option.toList _)] at hw
    show _ = _ ++ Happening.due data [_]
    rw [Happening.due_singleton, hinside]
    exact hw

end Accounts

/-- What an instruction does, with the call that it has to make. -/
structure Effect (env : Environment) (data : Value) (template : Template) (context : Context)
    (i : Instruction) (w : Watched Unit) : Prop where
  accounts : Accounts env data (i.call? data template context).toList w
  bound : ∀ s, (Happening.step template context i (w.seen s)).Bound env data

namespace Effect

variable {template : Template} {context : Context} {i : Instruction} {w : Watched Unit}

theorem of_none (hcall : i.call? data template context = none) (h : Accounts env data [] w)
    (hruns : Shows (fun inner => ∃ template' index context',
      i.Runs env template context template' index context' ∧ inner.IsStep template' index context') w) :
    Effect env data template context i w where
  accounts := by
    rw [hcall]
    exact h
  bound s := .step hcall (hruns s)

theorem pure (hcall : i.call? data template context = none) :
    Effect env data template context i (pure ()) :=
  of_none hcall (.pure ()) (.pure ())

theorem write (hcall : i.call? data template context = none) (f : Output → Output) :
    Effect env data template context i (quiet (Run.onOutput f)) :=
  of_none hcall (.onOutput f) (.quiet _)

theorem withIndent (indent : List Char) (h : Effect env data template context i w) :
    Effect env data template context i (withIndent indent w) where
  accounts := h.accounts.withIndent indent
  bound s := h.bound { s with output := s.output.pushIndent indent }

end Effect

section

variable {template : Template} {context : Context} {i : Instruction}
  (hstep : ∀ template index context,
    Shows (Happening.IsStep template index context) (run template index context))
  (hrun : ∀ template index context, context.root = data →
    Accounts env data [] (run template index context))

include hstep hrun

theorem accounts_source {delimiters : Delimiters} (hroot : context.root = data)
    (text : List Char) : Accounts env data [] (source run delimiters context text) := by
  cases hcompile : Template.compile delimiters text none with
  | error d =>
    simp only [source, hcompile]
    apply (Accounts.quiet fun _ => rfl).within (fun _ _ => rfl) (fun _ _ => rfl)
    intro s
    exact .read fun inner hinner => absurd hinner List.not_mem_nil
  | ok template =>
    simp only [source, hcompile]
    apply (hrun template 0 context hroot).within (fun _ _ => rfl) (fun _ _ => rfl)
    intro s
    exact .read fun inner hinner => ⟨template, hcompile, hstep template 0 context s inner hinner⟩

theorem accounts_call (hroot : c.context.root = data) :
    Accounts env data [c] (call env (source run) c) := by
  have hrender : ∀ text, Accounts env data [] (expand (source run) c.delimiters c.context text) :=
    fun text => (accounts_source hstep hrun hroot text).capture
  have hinner := Accounts.called c fun history =>
    Accounts.perform hrender (env.lambdas c.lambda c.invocation history)
  apply hinner.within (fun _ _ => rfl) (fun _ _ => rfl)
  intro s
  exact .call (asks_perform (seen_expand run _ _) _ { s with history := .called c :: s.history })

theorem Effect.call {next : Value → Watched Unit} (hcall : i.call? data template context = some c)
    (hroot : c.context.root = data) (hnext : ∀ v, Accounts env data [] (next v))
    (hread : ∀ v s, ∃ inside, (next v).seen s = [.read c.delimiters c.context v.answerText inside]) :
    Effect env data template context i (call env (source run) c >>= next) where
  accounts := by
    rw [hcall]
    exact (accounts_call hstep hrun hroot).bind hnext
  bound s := .calls hcall (answered_call hread s)

theorem Effect.scope {other : Template} {index : Nat} {inner : Context}
    (hcall : i.call? data template context = none)
    (h : i.Runs env template context other index inner) (hroot : inner.root = data) :
    Effect env data template context i (run other index inner) := by
  apply Effect.of_none hcall (hrun other index inner hroot)
  intro s happening hmem
  exact ⟨other, index, inner, h, hstep other index inner s happening hmem⟩

theorem effect_spec (template : Template) {context : Context} (hroot : context.root = data)
    (i : Instruction) : Effect env data template context i (effect env run template context i) := by
  cases i with
  | text t => exact .write rfl _
  | lineStart => exact .write rfl _
  | value path escaped =>
    simp only [effect, value]
    cases hv : context.lookup path with
    | none => exact .pure (by simp [Instruction.call?, hv])
    | some v =>
      cases v with
      | lambda handle =>
        apply Effect.call hstep hrun (by simp [Instruction.call?, hv, Value.lambda?, hroot]) hroot
        · intro v
          apply (accounts_source hstep hrun hroot _).capture.bind
          intro text
          exact .onOutput _
        · intro v s
          obtain ⟨inside, hinside⟩ := seen_expand run template.delimiters context v.answerText s
          refine ⟨inside, ?_⟩
          rw [seen_bind, hinside]
          split <;> rfl
      | null | bool | number | string | list | map =>
        exact .write (by simp [Instruction.call?, hv, Value.lambda?]) _
  | block path body raw delimiters =>
    simp only [effect, block]
    cases hv : context.lookup path with
    | none => exact .pure (by simp [Instruction.call?, hv])
    | some v =>
      cases v with
      | lambda handle =>
        apply Effect.call hstep hrun (by simp [Instruction.call?, hv, Value.lambda?, hroot]) hroot
        · intro v
          exact accounts_source hstep hrun hroot _
        · intro v s
          exact ⟨_, rfl⟩
      | list items =>
        apply Effect.of_none (by simp [Instruction.call?, hv, Value.lambda?])
        · apply Accounts.forM
          intro item _
          exact hrun template body (context.push item) hroot
        · apply Shows.forM
          intro item hitem s inner hinner
          exact ⟨_, _, _, .item hv hitem, hstep _ _ _ s inner hinner⟩
      | null | bool | number | string | map =>
        have hcall : (Instruction.block path body raw delimiters).call? data template context = none := by
          simp [Instruction.call?, hv, Value.lambda?]
        dsimp only
        split
        · refine Effect.scope hstep hrun hcall (.block hv ?_ ‹_›) hroot
          intro items hlist
          cases hlist
        · exact .pure hcall
  | inverted path body =>
    simp only [effect, inverted]
    split
    · exact Effect.scope hstep hrun rfl (.inverted ‹_›) hroot
    · exact .pure rfl
  | embed name indent =>
    simp only [effect, embed]
    cases hfound : env.partials name with
    | none => exact .pure rfl
    | some other => exact (Effect.scope hstep hrun rfl (.embed hfound) hroot).withIndent indent

theorem accounts_step (template : Template) {context : Context} (hroot : context.root = data)
    (i : Instruction) : Accounts env data [] (step env run template context i) := by
  have h := effect_spec hstep hrun template hroot i
  exact h.accounts.within (fun _ _ => rfl) (fun _ _ => rfl) h.bound

end

theorem accounts_scope (env : Environment) (depth : Nat) :
    ∀ template index context, context.root = data →
      Accounts env data [] (scope env depth template index context) := by
  induction depth with
  | zero =>
    intro template index context _
    exact .quiet fun _ => rfl
  | succ depth ih =>
    intro template index context hroot
    rw [scope]
    cases template.scopes[index]? with
    | none => exact .pure ()
    | some s =>
      apply Accounts.forM
      intro i _
      exact accounts_step (shows_isStep_scope env depth) ih template hroot i

end Watched

namespace Template

/-- Every tag that a run comes to and that leads to a lambda calls it once, and nothing else is called. The
call is bound to the data of the run, to the text and the delimiters of the tag and to its context. -/
theorem allCalls_render [Alphabet] (env : Environment) (depth : Nat) (template : Template)
    (data : Value) (history : History) :
    let watched := Watched.scope env depth template 0 (.ofRoot data)
    let happenings := watched.seen ⟨.empty, history⟩
    watched.act = Run.scope env depth template 0 (.ofRoot data) ∧
      (template.render env depth data history).2.allCalls =
        history.allCalls ++ Happening.due data happenings ∧
      (∀ h ∈ happenings, h.IsStep template 0 (.ofRoot data)) ∧
      ∀ h ∈ Happening.allNodes happenings, h.Bound env data := by
  intro watched happenings
  have hact : watched.act = Run.scope env depth template 0 (.ofRoot data) :=
    congrFun (congrFun (congrFun (Watched.act_scope env depth) template) 0) (.ofRoot data)
  have haccounts := Watched.accounts_scope env depth template 0 (.ofRoot data) rfl
  refine ⟨hact, ?_, Watched.shows_isStep_scope env depth template 0 _ _, ?_⟩
  · have hcalls := haccounts.allCalls_eq ⟨.empty, history⟩
    rw [List.append_nil] at hcalls
    rw [render, ← hact]
    exact hcalls
  · intro h hmem
    obtain ⟨top, htop, hnode⟩ := Happening.mem_allNodes.1 hmem
    exact haccounts.sound _ top htop h hnode

/-- A section calls a lambda that asks for a tag on another lambda and returns the same tag with other
delimiters. -/
example :
    let d : Delimiters := ⟨['[', '['], [']', ']'], by decide, by decide⟩
    let env : Environment := ⟨fun _ => none, fun handle _ _ =>
      if handle = 0 then .renders "[[g]]".toList fun _ _ => .returns (.string "[[=< >=]]<g>")
      else .returns .null⟩
    let data : Value := .map [("f", .lambda 0), ("g", .lambda 1)]
    (compile d "[[#f]]a[[/f]]".toList none).toOption.map (fun template =>
      (Happening.due data ((Watched.scope env 3 template 0 (.ofRoot data)).seen ⟨.empty, []⟩)).map
        fun c => (c.lambda, c.invocation.text)) =
      some [(0, some ['a']), (1, none), (1, none)] := by decide +kernel

end Template

end LogicLess
