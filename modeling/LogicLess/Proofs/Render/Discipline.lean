import LogicLess.Proofs.Output
import LogicLess.Proofs.Program.Compiled
import LogicLess.Proofs.Render.Bound
import LogicLess.Text.IdentifierTable

/-!
# What a run leaves of an output

Whether it ends or stops early, a run adds to what was written before it, leaves the indentation of lines
as it was, and lets an indentation wait at the start of a line only. So no indentation is written in the
middle of a line.
-/

namespace LogicLess

namespace Output

/-- An indentation waits only where nothing is written on the line. -/
def WaitsAtLineStart (o : Output) : Prop := o.pending = true → o.atLineStart = true

structure Continues (o o' : Output) : Prop where
  indent_eq : o'.indent = o.indent
  text_kept : o.text <+: o'.text
  waits : o.WaitsAtLineStart → o'.WaitsAtLineStart

namespace Continues

variable {o o' o'' : Output}

theorem refl (o : Output) : Continues o o := ⟨rfl, List.prefix_refl _, id⟩

theorem trans (h : Continues o o') (h' : Continues o' o'') : Continues o o'' where
  indent_eq := h'.indent_eq.trans h.indent_eq
  text_kept := h.text_kept.trans h'.text_kept
  waits hwaits := h'.waits (h.waits hwaits)

theorem write (o : Output) (s : List Char) : o.Continues (o.write s) := by
  cases s with
  | nil => exact refl o
  | cons c s =>
    refine ⟨rfl, ?_, ?_⟩
    · simp [Output.write, text]
    · intro _ hpending
      cases hpending

theorem startLine (o : Output) : o.Continues o.startLine where
  indent_eq := o.indent_startLine
  text_kept := o.text_startLine ▸ List.prefix_refl _
  waits := by
    intro hwaits hpending
    rw [atLineStart_startLine]
    by_cases hstart : o.atLineStart = true
    · exact hstart
    · rw [Output.startLine, if_neg hstart] at hpending
      exact hwaits hpending

theorem writeText (o : Output) (s : List Char) (escaped : Bool) :
    o.Continues (o.writeText s escaped) := by
  rw [writeText_eq]
  exact write o _

theorem writeValue (o : Output) (v : Value) (escaped : Bool) :
    o.Continues (o.writeValue v escaped) := by
  rw [writeValue_eq]
  split
  · exact writeText o _ escaped
  · exact refl o

theorem popIndent {indent : List Char} (h : (o.pushIndent indent).Continues o') :
    o.Continues (o'.popIndent o.indent.length) where
  indent_eq := by
    rw [Output.popIndent, h.indent_eq]
    exact List.take_left
  text_kept := h.text_kept
  waits := h.waits

end Continues

theorem WaitsAtLineStart.text_write {o : Output} (h : o.WaitsAtLineStart)
    (hstart : o.atLineStart = false) (s : List Char) : (o.write s).text = o.text ++ s := by
  apply text_write_of_not_pending
  rw [← Bool.not_eq_true]
  intro hpending
  rw [h hpending] at hstart
  cases hstart

end Output

namespace Run

variable {α β : Type}

/-- From every state, the run leaves the output as it was. -/
def Silent (act : Run α) : Prop := ∀ s, (act.run s).2.output = s.output

namespace Silent

theorem output_eq {act : Run α} (h : Silent act) {s after : RunState} {result : Except Stop α}
    (hrun : act.run s = (result, after)) : after.output = s.output := by
  have hs := h s
  rwa [hrun] at hs

theorem bind {act : Run α} {next : α → Run β} (h : Silent act) (hnext : ∀ a, Silent (next a)) :
    Silent (act >>= next) := by
  intro s
  have hact := h s
  rw [run_bind]
  rcases hrun : act.run s with ⟨stop | a, after⟩ <;> rw [hrun] at hact
  · exact hact
  · exact (hnext a after).trans hact

theorem capture (act : Run Unit) : Silent (capture act) := fun _ => rfl

theorem attempt {act : Run α} (h : Silent act) : Silent (attempt act) := by
  intro s
  have hact := h s
  rw [run_attempt]
  rcases hrun : act.run s with ⟨(_ | d) | a, after⟩ <;> rw [hrun] at hact <;> exact hact

theorem perform {render : List Char → Run (List Char)} (h : ∀ text, Silent (render text))
    (behaviour : Behaviour) : Silent (perform render behaviour) := by
  induction behaviour with
  | returns v => exact fun _ => rfl
  | fails d => exact fun _ => rfl
  | renders text next ih =>
    apply bind (h text).attempt
    intro result
    apply bind fun _ => rfl
    intro _
    apply bind fun _ => rfl
    intro s
    exact ih result s.history

end Silent

/-- From every state, the output after the run goes on from the output before it. -/
def Continues (act : Run α) : Prop := ∀ s : RunState, s.output.Continues (act.run s).2.output

namespace Continues

theorem of_silent {act : Run α} (h : Silent act) : Continues act := by
  intro s
  rw [h s]
  exact .refl _

theorem pure (a : α) : Continues (pure a) := of_silent fun _ => rfl

theorem throw (stop : Stop) : Continues (throw stop : Run α) := of_silent fun _ => rfl

theorem onOutput {f : Output → Output} (h : ∀ o : Output, o.Continues (f o)) : Continues (onOutput f) :=
  fun s => h s.output

theorem bind {act : Run α} {next : α → Run β} (h : Continues act) (hnext : ∀ a, Continues (next a)) :
    Continues (act >>= next) := by
  intro s
  have hact := h s
  rw [run_bind]
  rcases hrun : act.run s with ⟨stop | a, after⟩ <;> rw [hrun] at hact
  · exact hact
  · exact hact.trans (hnext a after)

theorem forM {l : List α} {f : α → Run Unit} (h : ∀ a ∈ l, Continues (f a)) :
    Continues (l.forM f) :=
  forM_rule (pure ()) (fun hx hy => hx.bind fun _ => hy) h

theorem withIndent {act : Run Unit} (indent : List Char) (h : Continues act) :
    Continues (withIndent indent act) := by
  intro s
  rw [run_withIndent]
  exact (h { s with output := s.output.pushIndent indent }).popIndent

end Continues

variable {env : Environment} {run : ScopeRunner}

theorem silent_call (source : TextRunner) (c : Call) : Silent (call env source c) := by
  apply Silent.bind fun _ => rfl
  intro s
  apply Silent.bind fun _ => rfl
  intro _
  exact .perform (fun text => .capture _) _

theorem continues_step [Alphabet]
    (h : ∀ template index context, Continues (run template index context)) (template : Template)
    (context : Context) (i : Instruction) :
    Continues (step env run template context i) := by
  have hsource : ∀ delimiters context text, Continues (source run delimiters context text) := by
    intro delimiters context text
    unfold source
    split
    · exact h _ _ _
    · exact .throw _
  cases i with
  | text t => exact .onOutput fun o => .write o t
  | lineStart => exact .onOutput .startLine
  | value path escaped =>
    simp only [step, value]
    split
    · exact .pure ()
    · apply (Continues.of_silent (silent_call _ _)).bind
      intro answer
      apply (Continues.of_silent (.capture _)).bind
      intro text
      exact .onOutput fun o => .writeText o text escaped
    · exact .onOutput fun o => .writeValue o _ escaped
  | block path body raw delimiters =>
    simp only [step, block]
    split
    · exact .pure ()
    · apply (Continues.of_silent (silent_call _ _)).bind
      intro answer
      exact hsource delimiters context answer.answerText
    · exact .forM fun item _ => h _ _ _
    · split
      · exact h _ _ _
      · exact .pure ()
  | inverted path body =>
    simp only [step, inverted]
    split
    · exact h _ _ _
    · exact .pure ()
  | embed name indent =>
    simp only [step, embed]
    split
    · exact .pure ()
    · exact (h _ _ _).withIndent indent

theorem continues_scope [Alphabet] (env : Environment) (depth : Nat) :
    ∀ template index context, Continues (scope env depth template index context) := by
  induction depth with
  | zero =>
    intro template index context
    exact .throw .exhausted
  | succ depth ih =>
    intro template index context
    rw [scope]
    split
    · exact .pure ()
    · exact .forM fun i _ => continues_step ih template context i

/-- However a scope comes to its end, lines are indented as before it, what was written before it is
still there, and an indentation waits at the start of a line only. So whatever is written next in the
middle of a line goes on with the line. -/
theorem output_scope [Alphabet] (env : Environment) (depth : Nat) (template : Template)
    (index : Nat) (context : Context) (s : RunState)
    (h : s.output.pending = true → s.output.atLineStart = true) :
    let after := ((scope env depth template index context).run s).2.output
    after.indent = s.output.indent ∧ s.output.text <+: after.text ∧
      (after.pending = true → after.atLineStart = true) ∧
      (after.atLineStart = false → ∀ text, (after.write text).text = after.text ++ text) := by
  intro after
  have hafter : s.output.Continues after := continues_scope env depth template index context s
  have hwaits := hafter.waits h
  exact ⟨hafter.indent_eq, hafter.text_kept, hwaits, hwaits.text_write⟩

/-- A lambda that fails in a template that another one indents. -/
theorem output_scope_failing :
    let env : Environment :=
      ⟨fun _ => (Template.compile .braces "x{{f}}y".toList none).toOption,
        fun _ _ _ => .fails { reason := "no" }⟩
    let data : Value := .map [("f", .lambda 0)]
    let s : RunState := ⟨⟨['\n', 'a'], [' '], true⟩, []⟩
    (s.output.pending = true → s.output.atLineStart = true) ∧
    ∃ template, Template.compile .braces "  {{>p}}\n".toList none = .ok template ∧
      let result := (scope env 2 template 0 (.ofRoot data)).run s
      let after := result.2.output
      result.1.isOk = false ∧ after.text = "a\n   x".toList ∧
        after.indent = s.output.indent ∧ s.output.text <+: after.text ∧
        (after.pending = true → after.atLineStart = true) ∧
        (after.write ['z']).text = after.text ++ ['z'] := by
  intro env data s
  have hwaits : s.output.pending = true → s.output.atLineStart = true := by decide
  have hout : (Template.compile .braces "  {{>p}}\n".toList none).toOption.map (fun template =>
      let result := (scope env 2 template 0 (.ofRoot data)).run s
      !result.1.isOk && !result.2.output.atLineStart &&
        result.2.output.text == "a\n   x".toList) = some true := by decide +kernel
  obtain ⟨template, htemplate, hrun⟩ := Option.map_eq_some_iff.1 hout
  simp only [Bool.and_eq_true, Bool.not_eq_true', beq_iff_eq] at hrun
  obtain ⟨⟨hfails, hstart⟩, htext⟩ := hrun
  obtain ⟨hindent, hkept, hafter, hwrite⟩ :=
    output_scope env 2 template 0 (.ofRoot data) s hwaits
  exact ⟨hwaits, template, eq_ok_of_toOption htemplate, hfails, htext, hindent, hkept, hafter,
    hwrite hstart ['z']⟩

end Run

end LogicLess
