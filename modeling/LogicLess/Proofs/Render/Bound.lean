import LogicLess.Render

/-!
# The bound of a run

A run is given a bound on how deep scopes may nest. A run that stays within its bound is the same at
every greater bound, with or without lambdas: no lambda can take notice of the bound, since a text that
reaches it ends the whole run.
-/

namespace LogicLess

namespace Run

variable {α β : Type}

theorem run_bind (act : Run α) (next : α → Run β) (s : RunState) :
    (act >>= next).run s =
      match act.run s with
      | (.ok a, after) => (next a).run after
      | (.error stop, after) => (.error stop, after) := by
  have h : (act >>= next).run s = ExceptT.bindCont next (act.run s).1 (act.run s).2 := rfl
  rw [h]
  rcases act.run s with ⟨_ | _, after⟩ <;> rfl

theorem run_capture (act : Run Unit) (s : RunState) :
    (capture act).run s =
      let (result, after) := act.run { s with output := .empty }
      (result.map fun _ => after.output.text, { after with output := s.output }) := rfl

theorem run_withIndent (indent : List Char) (act : Run Unit) (s : RunState) :
    (withIndent indent act).run s =
      let (result, after) := act.run { s with output := s.output.pushIndent indent }
      (result, { after with output := after.output.popIndent s.output.indent.length }) := rfl

theorem run_attempt (act : Run α) (s : RunState) :
    (attempt act).run s =
      match act.run s with
      | (.ok a, after) => (.ok (.ok a), after)
      | (.error (.failed d), after) => (.ok (.error d), after)
      | (.error .exhausted, after) => (.error .exhausted, after) := rfl

section

variable {m n : Type → Type} [Monad m] [Monad n] {l : List α}

theorem forM_related {R : m Unit → n Unit → Prop} {f : α → m Unit} {g : α → n Unit}
    (hpure : R (pure ()) (pure ()))
    (hbind : ∀ {x y x' y'}, R x x' → R y y' → R (x >>= fun _ => y) (x' >>= fun _ => y'))
    (h : ∀ a ∈ l, R (f a) (g a)) : R (l.forM f) (l.forM g) := by
  induction l with
  | nil => exact hpure
  | cons a l ih =>
    simp only [List.forM_eq_forM, List.forM_cons] at ih ⊢
    exact hbind (h a (by simp)) (ih fun b hb => h b (List.mem_cons_of_mem a hb))

theorem forM_rule {P : m Unit → Prop} {f : α → m Unit} (hpure : P (pure ()))
    (hbind : ∀ {x y}, P x → P y → P (x >>= fun _ => y)) (h : ∀ a ∈ l, P (f a)) : P (l.forM f) :=
  forM_related (R := fun x (_ : m Unit) => P x) (g := f) hpure hbind h

end

/-- The run `act'` is the run `act` from every state from which that is not cut off by its bound. -/
def Extends (act act' : Run α) : Prop :=
  ∀ s, (act.run s).1 ≠ .error .exhausted → act'.run s = act.run s

namespace Extends

theorem refl (act : Run α) : Extends act act := fun _ _ => rfl

theorem trans {act act' act'' : Run α} (h : Extends act act') (h' : Extends act' act'') :
    Extends act act'' := by
  intro s hs
  have hact := h s hs
  rw [h' s (hact ▸ hs), hact]

theorem throw_exhausted (act : Run α) : Extends (throw .exhausted) act :=
  fun _ hs => absurd rfl hs

theorem bind {act act' : Run α} {next next' : α → Run β} (h : Extends act act')
    (hnext : ∀ a, Extends (next a) (next' a)) : Extends (act >>= next) (act' >>= next') := by
  intro s hs
  rw [run_bind] at hs ⊢
  rcases hact : act.run s with ⟨stop | a, after⟩
  · have hstop : stop ≠ .exhausted := fun hstop => hs (by rw [hact, hstop])
    rw [run_bind, h s (by simpa [hact]), hact]
  · rw [hact] at hs
    rw [run_bind, h s (by simp [hact]), hact]
    exact hnext a after hs

theorem forM {l : List α} {f g : α → Run Unit} (h : ∀ a, Extends (f a) (g a)) :
    Extends (l.forM f) (l.forM g) :=
  forM_related (refl _) (fun hx hy => hx.bind fun _ => hy) fun a _ => h a

variable {act act' : Run Unit}

theorem capture (h : Extends act act') : Extends (capture act) (Run.capture act') := by
  intro s hs
  rw [run_capture] at hs ⊢
  rw [run_capture, h _ fun hstop => hs (congrArg (Except.map _) hstop)]

theorem withIndent (indent : List Char) (h : Extends act act') :
    Extends (withIndent indent act) (Run.withIndent indent act') := by
  intro s hs
  rw [run_withIndent] at hs ⊢
  rw [run_withIndent, h _ hs]

theorem attempt {act act' : Run α} (h : Extends act act') :
    Extends (attempt act) (Run.attempt act') := by
  intro s hs
  rw [run_attempt] at hs ⊢
  rw [run_attempt, h s ?_]
  rcases hresult : act.run s with ⟨stop | a, after⟩
  · rintro ⟨⟩
    rw [hresult] at hs
    exact hs rfl
  · rintro ⟨⟩

theorem perform {render render' : List Char → Run (List Char)}
    (h : ∀ text, Extends (render text) (render' text)) (behaviour : Behaviour) :
    Extends (perform render behaviour) (Run.perform render' behaviour) := by
  induction behaviour with
  | returns v => exact refl _
  | fails d => exact refl _
  | renders text next ih =>
    exact (h text).attempt.bind fun result => (refl _).bind fun _ => (refl _).bind fun _ => ih result _

end Extends

variable {env : Environment} {run run' : ScopeRunner}

private theorem extends_source [Alphabet]
    (h : ∀ template index context, Extends (run template index context) (run' template index context))
    (delimiters : Delimiters) (context : Context) (text : List Char) :
    Extends (source run delimiters context text) (source run' delimiters context text) := by
  unfold source
  split
  · exact h _ _ _
  · exact .refl _

private theorem extends_call {source source' : TextRunner}
    (h : ∀ delimiters context text,
      Extends (source delimiters context text) (source' delimiters context text)) (c : Call) :
    Extends (call env source c) (call env source' c) :=
  (Extends.refl _).bind fun _ => (Extends.refl _).bind fun _ =>
    .perform (fun text => (h c.delimiters c.context text).capture) _

theorem extends_block {source source' : TextRunner} {body body' : Context → Run Unit}
    (hsource : ∀ delimiters context text,
      Extends (source delimiters context text) (source' delimiters context text))
    (hbody : ∀ context, Extends (body context) (body' context)) (context : Context) (path : Path)
    (raw : List Char) (delimiters : Delimiters) :
    Extends (block env source body context path raw delimiters)
      (block env source' body' context path raw delimiters) := by
  simp only [block]
  split
  · exact .refl _
  · exact (extends_call hsource _).bind fun answer => hsource _ _ answer.answerText
  · exact .forM fun item => hbody _
  · split
    · exact hbody _
    · exact .refl _

theorem extends_inverted {body body' : Context → Run Unit}
    (h : ∀ context, Extends (body context) (body' context)) (context : Context) (path : Path) :
    Extends (inverted body context path) (inverted body' context path) := by
  simp only [inverted]
  split
  · exact h context
  · exact .refl _

theorem extends_step [Alphabet]
    (h : ∀ template index context, Extends (run template index context) (run' template index context))
    (template : Template) (context : Context) (i : Instruction) :
    Extends (step env run template context i) (step env run' template context i) := by
  have hsource := extends_source h
  cases i with
  | text | lineStart => exact .refl _
  | value path escaped =>
    simp only [step, value]
    split
    · exact .refl _
    · exact (extends_call hsource _).bind fun answer =>
        (hsource _ _ answer.answerText).capture.bind fun _ => .refl _
    · exact .refl _
  | block path body raw delimiters =>
    exact extends_block hsource (h template body) context path raw delimiters
  | inverted path body => exact extends_inverted (h template body) context path
  | embed name indent =>
    simp only [step, embed]
    split
    · exact .refl _
    · exact (h _ _ _).withIndent indent

theorem extends_scope_succ [Alphabet] (env : Environment) (depth : Nat) :
    ∀ (template : Template) (index : Nat) (context : Context),
      Extends (scope env depth template index context)
        (scope env (depth + 1) template index context) := by
  induction depth with
  | zero => exact fun _ _ _ => .throw_exhausted _
  | succ depth ih =>
    intro template index context
    rw [scope, scope]
    split
    · exact .refl _
    · exact .forM fun i => extends_step ih template context i

theorem extends_scope [Alphabet] {depth depth' : Nat} (h : depth ≤ depth') (env : Environment)
    (template : Template) (index : Nat) (context : Context) :
    Extends (scope env depth template index context)
      (scope env depth' template index context) := by
  induction h with
  | refl => exact .refl _
  | step _ ih => exact ih.trans (extends_scope_succ env _ template index context)

end Run

/-- A template that is run within the bound is run the same way at every greater bound. -/
theorem Template.render_of_le [Alphabet] {env : Environment} {template : Template} {data : Value}
    {history : History} {depth depth' : Nat} (hle : depth ≤ depth')
    (h : (template.render env depth data history).1 ≠ .error .exhausted) :
    template.render env depth' data history = template.render env depth data history := by
  have hscope := Run.extends_scope hle env template 0 (.ofRoot data) ⟨.empty, history⟩
    fun hstop => h (congrArg (Except.map _) hstop)
  rw [render, render, hscope]

end LogicLess
