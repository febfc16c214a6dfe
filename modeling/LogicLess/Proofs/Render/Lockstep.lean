import LogicLess.Proofs.Program.Meaning
import LogicLess.Proofs.Render.Bound
import LogicLess.Proofs.Value.Parts

/-!
# Runs in lockstep

Two runs are in lockstep if they keep a relation between their states and stop alike. Lockstep is put
together along the parts that a run consists of.
-/

namespace LogicLess.Run

/-- From related states both runs end or stop for the same reason, and are related if they end. -/
def Lockstep (R : RunState → RunState → Prop) (act act' : Run Unit) : Prop :=
  ∀ x y, R x y → (act.run x).1 = (act'.run y).1 ∧
    ((act.run x).1 = .ok () → R (act.run x).2 (act'.run y).2)

variable {R : RunState → RunState → Prop}

theorem lockstep_pure : Lockstep R (pure ()) (pure ()) := fun _ _ h => ⟨rfl, fun _ => h⟩

theorem lockstep_throw (stop : Stop) : Lockstep R (throw stop) (throw stop) :=
  fun _ _ _ => ⟨rfl, fun h => by cases h⟩

theorem lockstep_onOutput {f g : Output → Output}
    (h : ∀ x y, R x y → R { x with output := f x.output } { y with output := g y.output }) :
    Lockstep R (onOutput f) (onOutput g) :=
  fun x y hxy => ⟨rfl, fun _ => h x y hxy⟩

theorem lockstep_bind {act act' : Run Unit} {next next' : Unit → Run Unit}
    (h : Lockstep R act act') (hnext : Lockstep R (next ()) (next' ())) :
    Lockstep R (act >>= next) (act' >>= next') := by
  intro x y hxy
  obtain ⟨hstop, hafter⟩ := h x y hxy
  rw [run_bind, run_bind]
  rcases hact : act.run x with ⟨stop | _, after⟩
  · rw [hact] at hstop
    rcases hact' : act'.run y with ⟨stop' | _, after'⟩
    · rw [hact'] at hstop
      exact ⟨hstop, fun hok => by cases hok⟩
    · rw [hact'] at hstop
      cases hstop
  · rw [hact] at hstop hafter
    rcases hact' : act'.run y with ⟨stop' | _, after'⟩
    · rw [hact'] at hstop
      cases hstop
    · rw [hact'] at hafter
      exact hnext after after' (hafter rfl)

theorem lockstep_forM {α : Type} {l : List α} {f g : α → Run Unit}
    (h : ∀ a ∈ l, Lockstep R (f a) (g a)) : Lockstep R (l.forM f) (l.forM g) :=
  forM_related lockstep_pure (fun hx hy => lockstep_bind hx hy) h

/-- Runs under a further indentation are in lockstep if they are under the relation `S`, which the
states with that indentation are in. -/
theorem lockstep_withIndent {S : RunState → RunState → Prop} {indent : List Char}
    {act act' : Run Unit}
    (hpush : ∀ x y, R x y →
      S { x with output := x.output.pushIndent indent } { y with output := y.output.pushIndent indent })
    (hpop : ∀ x y x' y', R x y → S x' y' →
      R { x' with output := x'.output.popIndent x.output.indent.length }
        { y' with output := y'.output.popIndent y.output.indent.length })
    (h : Lockstep S act act') : Lockstep R (withIndent indent act) (withIndent indent act') := by
  intro x y hxy
  obtain ⟨hstop, hafter⟩ := h _ _ (hpush x y hxy)
  exact ⟨hstop, fun hok => hpop x y _ _ hxy (hafter hok)⟩

section LambdaFree

variable {env env' : Environment} {source source' : TextRunner} {data : Value} {context : Context}

theorem lockstep_value (hfree : data.isLambdaFree = true) (hcontext : context.Within data)
    {delimiters : Delimiters} {path : Path} {escaped : Bool}
    (h : ∀ v ∈ data.parts, Lockstep R (onOutput (·.writeValue v escaped))
      (onOutput (·.writeValue v escaped))) :
    Lockstep R (value env source delimiters context path escaped)
      (value env' source' delimiters context path escaped) := by
  unfold value
  cases hv : context.lookup path with
  | none => exact lockstep_pure
  | some v =>
    have hpart := hcontext.of_lookup hv
    have hlambda := Value.not_isLambda_of_mem_parts hfree hpart
    cases v with
    | lambda => simp [Value.isLambda] at hlambda
    | null | bool | number | string | list | map => exact h _ hpart

theorem lockstep_block (hfree : data.isLambdaFree = true) (hcontext : context.Within data)
    {body body' : Context → Run Unit} {path : Path} {raw : List Char} {delimiters : Delimiters}
    (h : ∀ c : Context, c.Within data → Lockstep R (body c) (body' c)) :
    Lockstep R (block env source body context path raw delimiters)
      (block env' source' body' context path raw delimiters) := by
  unfold block
  cases hv : context.lookup path with
  | none => exact lockstep_pure
  | some v =>
    have hpart := hcontext.of_lookup hv
    have hlambda := Value.not_isLambda_of_mem_parts hfree hpart
    cases v with
    | lambda => simp [Value.isLambda] at hlambda
    | list items =>
      refine lockstep_forM fun item hitem => h _ (hcontext.push ?_)
      exact Value.parts_subset data hpart (Value.mem_parts_of_mem_list hitem)
    | null | bool | number | string | map =>
      dsimp only
      split
      · exact h _ (hcontext.push hpart)
      · exact lockstep_pure

theorem lockstep_inverted {body body' : Context → Run Unit} {path : Path}
    (h : Lockstep R (body context) (body' context)) :
    Lockstep R (inverted body context path) (inverted body' context path) := by
  unfold inverted
  split
  · exact h
  · exact lockstep_pure

end LambdaFree

end LogicLess.Run
