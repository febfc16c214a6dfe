import LogicLess.Proofs.Lexeme.Written
import LogicLess.Proofs.Render.Discipline
import LogicLess.Proofs.Render.TextLines
import LogicLess.Text.IdentifierTable

/-!
# Text without tags

A text in which no tag begins is a template of its own, and without an indentation it is written as it is.
So what a lambda returns is written once: by a value tag with entities if the tag asks for them, and by a
section as it is.
-/

namespace LogicLess

theorem Token.parse_of_not_infix [Alphabet] {d : Delimiters} {text : List Char}
    (h : ¬ d.opening <:+: text) :
    parse d text = .ok (Nesting.addLines [.lineStart] text).reverse := by
  have hnone : Lexeme.read? (.start d text) = .ok none := Lexeme.read?_eq_none h
  rw [parse, Lexeme.readAll_of_none hnone]
  rfl

namespace Run

theorem text_startLine_writeLines {o : Output} (h : o.indent = []) (t : List Char) :
    (o.startLine.writeLines t).text = o.text ++ t := by
  rw [Output.text_writeLines (by rw [Output.indent_startLine, h]), Output.text_startLine]

variable [Alphabet] {d : Delimiters} {t : List Char}

theorem scope_addLines (env : Environment) (depth : Nat) (name : Option String) (d : Delimiters)
    (t : List Char) (context : Context) :
    scope env (depth + 1) (.ofTokens name d (Nesting.addLines [.lineStart] t).reverse) 0 context =
      onOutput fun o => o.startLine.writeLines t := by
  simp only [Token.scope_zero_eq_walk]
  rw [Token.walk, forM_addLines]
  simp [Token.step, onOutput_bind]

theorem source_plain (h : ¬ d.opening <:+: t) (env : Environment) (depth : Nat)
    (context : Context) :
    source (scope env (depth + 1)) d context t = onOutput fun o => o.startLine.writeLines t := by
  rw [source, Template.compile, Token.parse_of_not_infix h]
  exact scope_addLines env depth none d t context

theorem expand_plain (h : ¬ d.opening <:+: t) (env : Environment) (depth : Nat) (context : Context) :
    expand (source (scope env (depth + 1))) d context t = pure t := by
  funext s
  change (expand _ d context t).run s = (.ok t, s)
  have htext : (Output.empty.startLine.writeLines t).text = t := by
    rw [Output.text_writeLines (by simp [Output.empty]), Output.text_startLine]
    rfl
  rw [expand, source_plain h, run_capture]
  exact congrArg (fun text => (Except.ok text, s)) htext

variable {env : Environment} {depth : Nat} {context : Context} {s after : RunState} {path : Path}
  {handle : Nat} {v : Value}

theorem run_value_of_call (hlookup : context.lookup path = some (.lambda handle))
    (hcall : (call env (source (scope env (depth + 1)))
      ⟨handle, ⟨context.root, none⟩, d, context⟩).run s = (.ok v, after))
    (h : ¬ d.opening <:+: v.answerText) (escaped : Bool) :
    (value env (source (scope env (depth + 1))) d context path escaped).run s =
      (.ok (), { after with output := s.output.writeText v.answerText escaped }) := by
  have houtput := (silent_call _ _).output_eq hcall
  simp only [value, hlookup]
  rw [run_bind, hcall]
  simp only [expand_plain h, pure_bind, ← houtput]
  rfl

theorem run_block_of_call {raw : List Char} (hlookup : context.lookup path = some (.lambda handle))
    (hcall : (call env (source (scope env (depth + 1)))
      ⟨handle, ⟨context.root, some raw⟩, d, context⟩).run s = (.ok v, after))
    (h : ¬ d.opening <:+: v.answerText) (body : Context → Run Unit) :
    (block env (source (scope env (depth + 1))) body context path raw d).run s =
      (.ok (), { after with output := s.output.startLine.writeLines v.answerText }) := by
  have houtput := (silent_call _ _).output_eq hcall
  simp only [block, hlookup]
  rw [run_bind, hcall, ← houtput]
  simp only [source_plain h]
  rfl

end Run

namespace Template

/-- A text without tags is read as a template, and without an indentation its run writes the text as it is.
So such a text from a lambda is written by a value tag as one text, with entities just if the tag asks for
them, and by a section as it is. -/
theorem plain_text_fixed [Alphabet] {d : Delimiters} {t : List Char} (h : ¬ d.opening <:+: t)
    (env : Environment) (depth : Nat) (context : Context) (s : RunState) :
    (∀ name, ∃ template, compile d t name = .ok template ∧
      (∀ data, template.render env (depth + 1) data s.history = (.ok t, s.history)) ∧
      (s.output.indent = [] → ∃ o,
        (Run.scope env (depth + 1) template 0 context).run s = (.ok (), ⟨o, s.history⟩) ∧
          o.text = s.output.text ++ t ∧ o.indent = [])) ∧
    ∀ path handle v after, context.lookup path = some (.lambda handle) → v.answerText = t →
      (∀ template escaped, template.delimiters = d →
        (Run.call env (Run.source (Run.scope env (depth + 1)))
          ⟨handle, ⟨context.root, none⟩, d, context⟩).run s = (.ok v, after) →
        (Run.step env (Run.scope env (depth + 1)) template context (.value path escaped)).run s =
          (.ok (), { after with output := s.output.writeText t escaped }) ∧
        s.output.writeText t escaped = s.output.write (if escaped then Text.encode t else t)) ∧
      ∀ template body raw, s.output.indent = [] →
        (Run.call env (Run.source (Run.scope env (depth + 1)))
          ⟨handle, ⟨context.root, some raw⟩, d, context⟩).run s = (.ok v, after) →
        ∃ o, (Run.step env (Run.scope env (depth + 1)) template context
            (.block path body raw d)).run s = (.ok (), { after with output := o }) ∧
          o.text = s.output.text ++ t ∧ o.indent = [] := by
  have hindent : s.output.indent = [] → (s.output.startLine.writeLines t).indent = [] := by
    intro hs
    rw [Output.indent_writeLines, Output.indent_startLine, hs]
  constructor
  · intro name
    refine ⟨_, by rw [compile, Token.parse_of_not_infix h], fun data => ?_, fun hs => ?_⟩
    · rw [render, Run.scope_addLines]
      exact congrArg (fun text => (Except.ok text, s.history)) (Run.text_startLine_writeLines rfl t)
    · rw [Run.scope_addLines]
      exact ⟨_, rfl, Run.text_startLine_writeLines hs t, hindent hs⟩
  · rintro path handle v after hlookup rfl
    constructor
    · rintro template escaped rfl hcall
      exact ⟨Run.run_value_of_call hlookup hcall h escaped, s.output.writeText_eq _ escaped⟩
    · intro template body raw hs hcall
      exact ⟨_, Run.run_block_of_call hlookup hcall h _, Run.text_startLine_writeLines hs _,
        hindent hs⟩

/-- A lambda that has a text rendered and returns it with line breaks and markup around it. -/
theorem plain_text_fixed_lambda :
    let d : Delimiters := ⟨['<'], ['>'], by decide, by decide⟩
    let t := "\r\n&\"1\n\n".toList
    let env : Environment := ⟨fun _ => none, fun _ _ _ => .renders "<n>".toList fun result _ =>
      .returns (.string (String.ofList ("\r\n&\"".toList ++ result.toOption.getD [] ++ ['\n', '\n'])))⟩
    let context := Context.ofRoot (.map [("f", .lambda 0), ("n", .number (.integer 1))])
    let s : RunState := ⟨⟨['a'], [], true⟩, []⟩
    let f := Path.keys ["f"]
    let template := ofTokens none d []
    let runner := Run.scope env 3
    let result := fun text =>
      (Run.call env (Run.source runner) ⟨0, ⟨context.root, text⟩, d, context⟩).run s
    ¬ d.opening <:+: t ∧ s.output.indent = [] ∧ context.lookup f = some (.lambda 0) ∧
      (∃ v after, result none = (.ok v, after) ∧ v.answerText = t ∧
        (Run.step env runner template context (.value f true)).run s =
          (.ok (), { after with output := s.output.writeText t true }) ∧
        s.output.writeText t true = s.output.write (Text.encode t)) ∧
      ∃ v after o, result (some ['x']) = (.ok v, after) ∧ v.answerText = t ∧
        (Run.step env runner template context (.block f 1 ['x'] d)).run s =
          (.ok (), { after with output := o }) ∧
        o.text = 'a' :: t := by
  intro d t env context s f template runner result
  have hopening : ¬ d.opening <:+: t := by decide
  have hlookup : context.lookup f = some (.lambda 0) := rfl
  have hindent : s.output.indent = [] := rfl
  obtain ⟨-, hlambda⟩ := plain_text_fixed hopening env 2 context s
  have hreturns : ∀ text ∈ [none, some ['x']],
      (result text).1.toOption.any (fun v => v.answerText == t) = true := by decide +kernel
  have hresult : ∀ text ∈ [none, some ['x']], ∃ v after,
      result text = (.ok v, after) ∧ v.answerText = t := by
    intro text htext
    have hv := hreturns text htext
    rcases hrun : result text with ⟨stop | v, after⟩
    · rw [hrun] at hv
      cases hv
    · rw [hrun] at hv
      exact ⟨v, after, rfl, beq_iff_eq.1 hv⟩
  obtain ⟨v, after, hcall, hv⟩ := hresult none (by simp)
  obtain ⟨w, last, hcallBlock, hw⟩ := hresult (some ['x']) (by simp)
  obtain ⟨hvalue, hwrite⟩ := (hlambda f 0 v after hlookup hv).1 template true rfl hcall
  obtain ⟨o, hblock, htext, -⟩ :=
    (hlambda f 0 w last hlookup hw).2 template 1 ['x'] hindent hcallBlock
  exact ⟨hopening, hindent, hlookup, ⟨v, after, hcall, hv, hvalue, hwrite⟩, w, last, o, hcallBlock, hw,
    hblock, htext⟩

end Template

end LogicLess
