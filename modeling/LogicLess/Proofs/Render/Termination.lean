import Mathlib.Order.Filter.AtTopBot.Basic
import Mathlib.Order.Filter.Finite
import Mathlib.Order.WellFoundedSet
import LogicLess.Proofs.Output
import LogicLess.Proofs.Program.Compiled
import LogicLess.Proofs.Render.Bound
import LogicLess.Proofs.Value.Parts
import LogicLess.Text.IdentifierTable

/-!
# Runs that come to an end

Without lambdas nothing can fail, and only templates that refer to each other in a circle can nest
scopes without end. If none do, there is a bound that every run of a template stays within, whatever the
data: a section leads on to a later scope of the same template, and a tag for another template to one
that comes after it in the order of reference.
-/

namespace LogicLess

namespace Run

/-- From every state the run comes to its end. It calls no lambda and leaves the indentation of lines as
it was. -/
def Completes (act : Run Unit) : Prop :=
  ∀ s, ∃ o : Output, act.run s = (.ok (), { s with output := o }) ∧ o.indent = s.output.indent

theorem completes_pure : Completes (pure ()) := fun s => ⟨s.output, rfl, rfl⟩

theorem completes_onOutput {f : Output → Output} (h : ∀ o, (f o).indent = o.indent) :
    Completes (onOutput f) := fun s => ⟨f s.output, rfl, h s.output⟩

namespace Completes

theorem bind {act : Run Unit} {next : Unit → Run Unit} (h : Completes act)
    (hnext : Completes (next ())) : Completes (act >>= next) := by
  intro s
  obtain ⟨o, hact, ho⟩ := h s
  obtain ⟨o', hnext, ho'⟩ := hnext { s with output := o }
  refine ⟨o', ?_, ho'.trans ho⟩
  rw [run_bind, hact]
  exact hnext

theorem forM {α : Type} {l : List α} {f : α → Run Unit} (h : ∀ a ∈ l, Completes (f a)) :
    Completes (l.forM f) :=
  forM_rule completes_pure (fun hx hy => hx.bind hy) h

theorem withIndent {act : Run Unit} (indent : List Char) (h : Completes act) :
    Completes (withIndent indent act) := by
  intro s
  obtain ⟨o, hact, ho⟩ := h { s with output := s.output.pushIndent indent }
  refine ⟨o.popIndent s.output.indent.length, ?_, ?_⟩
  · rw [run_withIndent, hact]
  · simp [Output.popIndent, Output.pushIndent, ho]

end Completes

section LambdaFree

variable {env : Environment} {source : TextRunner} {data : Value} {context : Context} {path : Path}

theorem completes_value (hfree : data.isLambdaFree = true) (hcontext : context.Within data)
    {delimiters : Delimiters} {escaped : Bool} :
    Completes (value env source delimiters context path escaped) := by
  unfold value
  cases hv : context.lookup path with
  | none => exact completes_pure
  | some v =>
    have hlambda := Value.not_isLambda_of_mem_parts hfree (hcontext.of_lookup hv)
    cases v with
    | lambda => simp [Value.isLambda] at hlambda
    | null | bool | number | string | list | map =>
      exact completes_onOutput fun o => o.indent_writeValue _ escaped

theorem completes_block (hfree : data.isLambdaFree = true) (hcontext : context.Within data)
    {body : Context → Run Unit} {raw : List Char} {delimiters : Delimiters}
    (h : ∀ c : Context, c.Within data → Completes (body c)) :
    Completes (block env source body context path raw delimiters) := by
  unfold block
  cases hv : context.lookup path with
  | none => exact completes_pure
  | some v =>
    have hpart := hcontext.of_lookup hv
    have hlambda := Value.not_isLambda_of_mem_parts hfree hpart
    cases v with
    | lambda => simp [Value.isLambda] at hlambda
    | list items =>
      refine .forM fun item hitem => h _ (hcontext.push ?_)
      exact Value.parts_subset data hpart (Value.mem_parts_of_mem_list hitem)
    | null | bool | number | string | map =>
      dsimp only
      split
      · exact h _ (hcontext.push hpart)
      · exact completes_pure

theorem completes_inverted {body : Context → Run Unit} (h : Completes (body context)) :
    Completes (inverted body context path) := by
  unfold inverted
  split
  · exact h
  · exact completes_pure

end LambdaFree

/-- At every sufficient bound a part of a run comes to its end on all data without lambdas. -/
def Ends (act : Nat → Context → Run Unit) : Prop :=
  ∀ᶠ depth in Filter.atTop, ∀ (data : Value) (context : Context), data.isLambdaFree = true →
    context.Within data → Completes (act depth context)

theorem Ends.of_completes {act : Nat → Context → Run Unit}
    (h : ∀ depth data context, data.isLambdaFree = true → context.Within data →
      Completes (act depth context)) : Ends act :=
  .of_forall h

variable {env : Environment}

theorem ends_step [Alphabet] {template : Template} {i : Instruction}
    (hbody : ∀ body, i.body? = some body → Ends fun depth => scope env depth template body)
    (hembed : ∀ name indent t, i = .embed name indent → env.partials name = some t →
      Ends fun depth => scope env depth t 0) :
    Ends fun depth context => step env (scope env depth) template context i := by
  cases i with
  | text t => exact .of_completes fun _ _ _ _ _ => completes_onOutput fun o => o.indent_write t
  | lineStart => exact .of_completes fun _ _ _ _ _ => completes_onOutput Output.indent_startLine
  | value path escaped =>
    exact .of_completes fun _ _ _ hfree hcontext => completes_value hfree hcontext
  | block path body raw delimiters =>
    filter_upwards [hbody body rfl] with depth h data context hfree hcontext
    exact completes_block hfree hcontext fun c hc => h data c hfree hc
  | inverted path body =>
    filter_upwards [hbody body rfl] with depth h data context hfree hcontext
    exact completes_inverted (h data context hfree hcontext)
  | embed name indent =>
    cases hfound : env.partials name with
    | none =>
      refine .of_completes fun depth data context _ _ => ?_
      simp only [step, embed, hfound]
      exact completes_pure
    | some t =>
      filter_upwards [hembed name indent t rfl hfound] with depth h data context hfree hcontext
      simp only [step, embed, hfound]
      exact (h data context hfree hcontext).withIndent indent

theorem ends_scope [Alphabet] {template : Template} {index : Nat}
    (h : ∀ s, template.scopes[index]? = some s → ∀ i ∈ s.instructions,
      Ends fun depth context => step env (scope env depth) template context i) :
    Ends fun depth => scope env depth template index := by
  rw [Ends, ← Filter.map_add_atTop_eq_nat 1, Filter.eventually_map]
  cases hscope : template.scopes[index]? with
  | none =>
    refine .of_forall fun depth data context _ _ => ?_
    rw [scope, hscope]
    exact completes_pure
  | some s =>
    have hall := (List.finite_toSet s.instructions).eventually_all.2 (h s hscope)
    filter_upwards [hall] with depth h data context hfree hcontext
    rw [scope, hscope]
    exact .forM fun i hi => h i hi data context hfree hcontext

/-- A template in which sections lead on to later scopes comes to its end if the templates that it has
tags for do. -/
theorem ends_template [Alphabet] {template : Template}
    (hbody : ∀ (index : Nat) (s : Scope), template.scopes[index]? = some s →
      ∀ i ∈ s.instructions, ∀ body, i.body? = some body → index < body)
    (hembed : ∀ name indent t, .embed name indent ∈ template.instructions →
      env.partials name = some t → Ends fun depth => scope env depth t 0) (index : Nat) :
    Ends fun depth => scope env depth template index := by
  -- The scopes behind the given one, of which there are fewer and fewer.
  induction hn : template.scopes.length - index using Nat.strongRecOn generalizing index with
  | ind n ih =>
    refine ends_scope fun s hs i hi => ends_step (fun body hi' => ?_) fun name indent t hi' => ?_
    · have hindex := (List.getElem?_eq_some_iff.1 hs).1
      have hlt := hbody index s hs i hi body hi'
      exact ih (template.scopes.length - body) (by omega) body rfl
    · exact hembed name indent t (hi' ▸ Template.mem_instructions hs hi)

end Run

namespace Environment

variable {env : Environment}

/-- The template under the one name has a tag for the template under the other. -/
def Refers (env : Environment) (name other : String) : Prop :=
  ∃ t u indent, env.partials name = some t ∧ env.partials other = some u ∧
    .embed other indent ∈ t.instructions

/-- No template refers to itself, not even by way of others. -/
def Acyclic (env : Environment) : Prop := ∀ name, ¬ Relation.TransGen env.Refers name name

/-- Among finitely many templates, what refers to what can be followed up from the templates that refer
to no other. -/
theorem Acyclic.wellFoundedOn (h : env.Acyclic)
    (hfinite : {name | (env.partials name).isSome}.Finite) :
    {name | (env.partials name).isSome}.WellFoundedOn (flip (Relation.TransGen env.Refers)) := by
  have htrans : IsTrans String (flip (Relation.TransGen env.Refers)) :=
    ⟨fun _ _ _ hab hbc => hbc.trans hab⟩
  have hirrefl : Std.Irrefl (flip (Relation.TransGen env.Refers)) := ⟨h⟩
  have hstrict : IsStrictOrder String (flip (Relation.TransGen env.Refers)) := {}
  exact hfinite.wellFoundedOn

theorem Acyclic.ends [Alphabet] (h : env.Acyclic)
    (hfinite : {name | (env.partials name).isSome}.Finite) (hcompiled : env.Compiled)
    {name : String} {t : Template} (ht : env.partials name = some t) :
    Run.Ends fun depth => Run.scope env depth t 0 := by
  have hend := (h.wellFoundedOn hfinite).induction (x := name) (by simp [ht])
    (P := fun name => ∀ t, env.partials name = some t →
      Run.Ends fun depth => Run.scope env depth t 0)
  refine hend (fun name _ ih t ht => ?_) t ht
  obtain ⟨delimiters, source, label, hcompile⟩ := hcompiled name t ht
  refine Run.ends_template (fun index s hs i hi body => ?_) (fun other indent u hu hother => ?_) 0
  · exact Template.lt_body_of_compile hcompile hs hi
  · exact ih other (by simp [hother]) (.single ⟨t, u, indent, ht, hother, hu⟩) u hother

theorem acyclic_of_rank (rank : String → Nat)
    (h : ∀ name other, env.Refers name other → rank other < rank name) : env.Acyclic := by
  have hlt : ∀ name other, Relation.TransGen env.Refers name other → rank other < rank name := by
    intro name other hpath
    induction hpath with
    | single hrefers => exact h _ _ hrefers
    | tail _ hrefers ih => exact (h _ _ hrefers).trans ih
  exact fun name hpath => (hlt name name hpath).false

def ofTemplates (templates : List (String × Template)) (lambdas : Lambdas) : Environment :=
  ⟨fun name => Entries.find? name templates, lambdas⟩

theorem finite_ofTemplates (templates : List (String × Template)) (lambdas : Lambdas) :
    {name | ((ofTemplates templates lambdas).partials name).isSome}.Finite := by
  refine (List.finite_toSet (templates.map Prod.fst)).subset fun name hname => ?_
  obtain ⟨t, ht⟩ := Option.isSome_iff_exists.1 hname
  obtain ⟨before, after, rfl, -⟩ := List.lookup_eq_some_iff.1 ht
  simp

end Environment

namespace Template

/-- If no template refers to itself, every run on data without lambdas comes to its end and succeeds. How
deep it may nest depends on the templates alone. -/
theorem render_of_acyclic [Alphabet] {templates : List (String × Template)} {lambdas : Lambdas}
    {template : Template}
    (htemplate : ∃ delimiters source label, compile delimiters source label = .ok template)
    (hcompiled : (Environment.ofTemplates templates lambdas).Compiled)
    (hacyclic : (Environment.ofTemplates templates lambdas).Acyclic) :
    ∃ bound, ∀ data : Value, data.isLambdaFree = true → ∀ history, ∃ out, ∀ depth ≥ bound,
      template.render (.ofTemplates templates lambdas) depth data history = (.ok out, history) := by
  obtain ⟨delimiters, source, label, hcompile⟩ := htemplate
  have hfinite := Environment.finite_ofTemplates templates lambdas
  have hends : Run.Ends fun depth =>
      Run.scope (.ofTemplates templates lambdas) depth template 0 := by
    refine Run.ends_template (fun _ _ hs i hi body => ?_) (fun _ _ _ _ hfound => ?_) 0
    · exact lt_body_of_compile hcompile hs hi
    · exact hacyclic.ends hfinite hcompiled hfound
  obtain ⟨bound, hbound⟩ := Filter.eventually_atTop.1 hends
  refine ⟨bound, fun data hfree history => ?_⟩
  obtain ⟨o, hrun, -⟩ := hbound bound le_rfl data (.ofRoot data) hfree
    (Context.within_ofRoot data) ⟨.empty, history⟩
  have hrender : template.render (.ofTemplates templates lambdas) bound data history =
      (.ok o.text, history) := by
    rw [render, hrun]
    rfl
  refine ⟨o.text, fun depth hdepth => ?_⟩
  rw [render_of_le hdepth (by simp [hrender]), hrender]

/-- Whether every tag of the templates for a template among them leads to one of a lower rank. -/
private def descends (rank : String → Nat) (templates : List (String × Template)) : Bool :=
  templates.all fun entry => entry.2.instructions.all fun
    | .embed other _ => (Entries.find? other templates).isNone || rank other < rank entry.1
    | _ => true

private theorem acyclic_of_descends (rank : String → Nat) {templates : List (String × Template)}
    (lambdas : Lambdas) (h : descends rank templates = true) :
    (Environment.ofTemplates templates lambdas).Acyclic := by
  refine Environment.acyclic_of_rank rank ?_
  rintro name other ⟨t, u, indent, ht, hu, hmem⟩
  obtain ⟨before, after, hsplit, -⟩ := List.lookup_eq_some_iff.1 ht
  have hentry : (name, t) ∈ templates := by simp [hsplit]
  have hother := List.all_eq_true.1 (List.all_eq_true.1 h _ hentry) _ hmem
  have hfound : Entries.find? other templates = some u := hu
  simpa [hfound] using hother

/-- Three templates, one of which is missing, on data some of which is missing or of another kind. -/
theorem render_of_acyclic_rows :
    let d : Delimiters := ⟨['[', '['], [']', ']'], by decide, by decide⟩
    let sources : List (String × List Char) :=
      [("row", "<[[name]][[^name]]?[[>missing]][[/name]]>\n".toList),
        ("page", "[[#rows]]\n  [[>row]]\n[[/rows]]\n".toList)]
    let templates := sources.filterMap fun entry =>
      (compile d entry.2 none).toOption.map fun t => (entry.1, t)
    let data : Value :=
      .map [("rows", .list [.map [("name", .string "a")], .number (.integer 7), .null])]
    ∃ template bound, compile d "[[>page]][[rows.x]][[#page]]![[/page]]".toList none =
        .ok template ∧ ∀ depth ≥ bound,
      template.render (.ofTemplates templates fun _ _ _ => .returns .null) depth data [] =
        (.ok "  <a>\n  <?>\n  <?>\n".toList, []) := by
  intro d sources templates data
  let env : Environment := .ofTemplates templates fun _ _ _ => .returns .null
  let out := "  <a>\n  <?>\n  <?>\n".toList
  have hcompiled : env.Compiled := by
    intro name t ht
    obtain ⟨before, after, hsplit, -⟩ := List.lookup_eq_some_iff.1 ht
    have hentry : (name, t) ∈ templates := by simp [hsplit]
    obtain ⟨source, -, hsource⟩ := List.mem_filterMap.1 hentry
    obtain ⟨u, hu, hpair⟩ := Option.map_eq_some_iff.1 hsource
    exact ⟨d, source.2, none, (Prod.mk.inj hpair).2 ▸ eq_ok_of_toOption hu⟩
  have hacyclic : env.Acyclic :=
    acyclic_of_descends (fun name => if name = "page" then 1 else 0) _ (by decide +kernel)
  have hout : ((compile d "[[>page]][[rows.x]][[#page]]![[/page]]".toList none).toOption.bind
      fun t => (t.render env 6 data []).1.toOption) = some out := by decide +kernel
  obtain ⟨template, htemplate, hrender⟩ := Option.bind_eq_some_iff.1 hout
  have hcompile := eq_ok_of_toOption htemplate
  obtain ⟨bound, hbound⟩ := render_of_acyclic ⟨_, _, _, hcompile⟩ hcompiled hacyclic
  obtain ⟨text, htext⟩ := hbound data (by decide +kernel) []
  refine ⟨template, bound, hcompile, fun depth hdepth => ?_⟩
  have hok := eq_ok_of_toOption hrender
  have hfinished : (template.render env 6 data []).1 ≠ .error .exhausted := by simp [hok]
  have hsame := render_of_le (le_max_right bound 6) hfinished
  rw [htext _ (le_max_left bound 6)] at hsame
  have hresult : Except.ok text = Except.ok out := (congrArg Prod.fst hsame).trans hok
  rw [htext depth hdepth, hresult]

end Template

end LogicLess
