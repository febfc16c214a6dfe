import LogicLess.Proofs.Render.Bound
import LogicLess.Proofs.Token.Paths
import LogicLess.Proofs.Value.Parts
import LogicLess.Text.IdentifierTable

/-!
# What a run sees of its context

Without lambdas a run sees of its context what the paths of its templates lead to, and nothing else. So
data under a name that no path begins with does not show in an output, and a value that no path leads
into can stand on top of a context or not.
-/

namespace LogicLess

namespace Value

/-- Whether the value has no members and is no lambda. -/
def isScalar : Value → Bool
  | null | bool _ | number _ | string _ => true
  | list _ | map _ | lambda _ => false

theorem isLambdaFree_list {items : List Value} (h : ∀ v ∈ items, v.isLambdaFree = true) :
    (list items).isLambdaFree = true := by
  simp only [isLambdaFree, parts, List.all_cons, Bool.and_eq_true]
  refine ⟨rfl, ?_⟩
  rw [List.all_eq_true]
  intro w hw
  obtain ⟨v, hv, hw⟩ := mem_itemParts.1 hw
  exact List.all_eq_true.1 (h v hv) w hw

end Value

namespace Context

theorem resolve_of_isScalar {v : Value} (h : v.isScalar = true) (first : String)
    (rest : List String) : resolve v (first :: rest) = none := by
  rw [resolve, List.foldlM_cons]
  cases v with
  | null | bool | number | string => split <;> rfl
  | list | map | lambda => cases h

theorem within_list_frames (c : Context) : c.Within (.list c.frames) :=
  fun _ hv => Value.mem_parts_of_mem_list hv

variable {named : Path → Prop} {c c' : Context}

/-- The named paths lead to the same values in both contexts. -/
def Agree (named : Path → Prop) (c c' : Context) : Prop :=
  ∀ path, named path → c.lookup path = c'.lookup path

theorem lookup_push_keys (c : Context) (v : Value) (names : List String) :
    (c.push v).lookup (.keys names) =
      ((resolve v names).filter Value.isTruthy).or (c.lookup (.keys names)) := by
  simp only [lookup, frames_push, List.findSome?_cons]
  cases (resolve v names).filter Value.isTruthy <;> rfl

theorem Agree.push (h : Agree named c c') (hcurrent : ¬ named .current) (v : Value) :
    Agree named (c.push v) (c'.push v) := by
  intro path hpath
  cases path with
  | current => exact absurd hpath hcurrent
  | keys names => rw [lookup_push_keys, lookup_push_keys, h _ hpath]

/-- A value that the named paths do not lead into is not seen on top of a context. -/
theorem agree_push {v : Value} (hcurrent : ¬ named .current)
    (h : ∀ names, named (.keys names) → ∀ w, resolve v names = some w → w.isTruthy = false) :
    Agree named c (c.push v) := by
  intro path hpath
  cases path with
  | current => exact absurd hpath hcurrent
  | keys names =>
    have hnone : (resolve v names).filter Value.isTruthy = none := by
      rw [Option.filter_eq_none_iff]
      intro w hw
      simp [h names hpath w hw]
    rw [lookup_push_keys, hnone, Option.none_or]

theorem agree_ofRoot_map {entries entries' : List (String × Value)} {key : String}
    (hnamed : ∀ path, named path → ∃ first rest, path = .keys (first :: rest) ∧ first ≠ key)
    (h : ∀ other, other ≠ key → Entries.find? other entries = Entries.find? other entries') :
    Agree named (.ofRoot (.map entries)) (.ofRoot (.map entries')) := by
  intro path hpath
  obtain ⟨first, rest, rfl, hfirst⟩ := hnamed path hpath
  have hresolve : resolve (.map entries) (first :: rest) = resolve (.map entries') (first :: rest) := by
    simp only [resolve, List.foldlM_cons, Value.isTruthy, if_true, Value.get?, h first hfirst]
  simp only [lookup, frames, ofRoot, List.nil_append, List.findSome?_cons, hresolve]

end Context

namespace Run

variable {env : Environment} {data : Value} {first : Template}

private theorem forM_congr {α : Type} {l : List α} {f g : α → Run Unit} (h : ∀ a ∈ l, f a = g a) :
    l.forM f = l.forM g :=
  forM_related rfl (fun hx hy => by rw [hx, hy]) h

private theorem step_congr [Alphabet] {run : ScopeRunner} {template : Template} {c c' : Context}
    {i : Instruction} (hfree : data.isLambdaFree = true) (hc : c.Within data)
    (hlookup : ∀ path, i.path? = some path → c.lookup path = c'.lookup path)
    (hbody : ∀ body, run template body c = run template body c')
    (hpush : ∀ body v, v ∈ data.parts → run template body (c.push v) = run template body (c'.push v))
    (hembed : ∀ name t, env.partials name = some t → run t 0 c = run t 0 c') :
    step env run template c i = step env run template c' i := by
  cases i with
  | text t => rfl
  | lineStart => rfl
  | value path escaped =>
    simp only [step, value, ← hlookup path rfl]
    cases hv : c.lookup path with
    | none => rfl
    | some v =>
      have hlambda := Value.not_isLambda_of_mem_parts hfree (hc.of_lookup hv)
      cases v with
      | lambda => simp [Value.isLambda] at hlambda
      | null | bool | number | string | list | map => rfl
  | block path body raw delimiters =>
    simp only [step, block, ← hlookup path rfl]
    cases hv : c.lookup path with
    | none => rfl
    | some v =>
      have hpart := hc.of_lookup hv
      have hlambda := Value.not_isLambda_of_mem_parts hfree hpart
      cases v with
      | lambda => simp [Value.isLambda] at hlambda
      | list items =>
        apply forM_congr
        intro item hitem
        exact hpush body item (Value.parts_subset data hpart (Value.mem_parts_of_mem_list hitem))
      | null | bool | number | string | map => simp only [hpush body _ hpart]
  | inverted path body => simp only [step, inverted, showsInverted, ← hlookup path rfl, hbody]
  | embed name indent =>
    simp only [step, embed]
    cases hfound : env.partials name with
    | none => rfl
    | some t => simp only [hembed name t hfound]

/-- A scope runs the same way in all contexts in which the paths of the templates that it may go through
lead to the same values. -/
theorem scope_congr [Alphabet] (hfree : data.isLambdaFree = true)
    (hcurrent : ¬ env.Names first .current) (depth : Nat) : ∀ (template : Template) (index : Nat)
    (c c' : Context),
      env.Reaches first template → c.Within data → c.Agree (env.Names first) c' →
      scope env depth template index c = scope env depth template index c' := by
  induction depth with
  | zero =>
    intro template index c c' _ _ _
    rfl
  | succ depth ih =>
    intro template index c c' htemplate hc hagree
    rw [scope, scope]
    cases hscope : template.scopes[index]? with
    | none => rfl
    | some s =>
      apply forM_congr
      intro i hi
      apply step_congr hfree hc
      · intro path hpath
        exact hagree path
          ⟨template, htemplate, Template.mem_paths (Template.mem_instructions hscope hi) hpath⟩
      · intro body
        exact ih template body c c' htemplate hc hagree
      · intro body v hv
        exact ih template body _ _ htemplate (hc.push hv) (hagree.push hcurrent v)
      · intro name t ht
        exact ih t 0 c c' (.inr ⟨name, ht⟩) hc hagree

end Run

namespace Template

/-- What the data holds under a name that no path of the templates begins with makes no difference to a
run, at any bound. -/
theorem render_eq_of_not_named [Alphabet] {env : Environment} {template : Template} {key : String}
    {entries entries' : List (String × Value)}
    (hcompiled : ∀ t, env.Reaches template t →
      ∃ delimiters source label, compile delimiters source label = .ok t)
    (hcurrent : ∀ t, env.Reaches template t → .current ∉ t.paths)
    (hkey : ∀ t, env.Reaches template t → ∀ rest, .keys (key :: rest) ∉ t.paths)
    (hagree : ∀ other, other ≠ key → Entries.find? other entries = Entries.find? other entries')
    (hfree : (Value.map entries).isLambdaFree = true) (depth : Nat) (history : History) :
    template.render env depth (.map entries) history =
      template.render env depth (.map entries') history := by
  have hnot : ¬ env.Names template .current := by
    rintro ⟨t, ht, hmem⟩
    exact hcurrent t ht hmem
  have hnamed : ∀ path, env.Names template path →
      ∃ first rest, path = .keys (first :: rest) ∧ first ≠ key := by
    intro path hpath
    cases path with
    | current => exact absurd hpath hnot
    | keys names =>
      obtain ⟨first, rest, rfl⟩ := hpath.exists_cons hcompiled
      refine ⟨first, rest, rfl, ?_⟩
      rintro rfl
      obtain ⟨t, ht, hmem⟩ := hpath
      exact hkey t ht rest hmem
  rw [render, render, Run.scope_congr hfree hnot depth template 0 _ _ (.inl rfl)
    (Context.within_ofRoot _) (Context.agree_ofRoot_map hnamed hagree)]

/-- A name that comes second in a path, with and without data under it. -/
theorem render_eq_of_not_named_secret :
    let d : Delimiters := ⟨['[', '['], [']', ']'], by decide, by decide⟩
    let sources := [("page", "[[#user]][[name]] [[user.secret]][[#tags]][[>tag]][[/tags]][[/user]]"),
      ("tag", "<[[id]][[^note]]-[[/note]]>")]
    let env : Environment := .ofSources d sources fun _ _ _ => .returns .null
    let user : String × Value := ("user", .map [("name", .string "n"), ("secret", .string "s")])
    let tags : String × Value := ("tags", .list [.map [("id", .bool true)], .number (.integer 7)])
    let entries := [("secret", .list [.string "x"]), user, tags]
    let entries' := [tags, user]
    ∃ page, env.partials "page" = some page ∧
      (page.render env 5 (.map entries) []).1 = .ok "n s<true-><->".toList ∧
      (page.render env 5 (.map entries') []).1 = .ok "n s<true-><->".toList := by
  intro d sources env user tags entries entries'
  have hsome : (env.partials "page").isSome = true := by decide +kernel
  obtain ⟨page, hpage⟩ := Option.isSome_iff_exists.1 hsome
  have hout : ((env.partials "page").bind fun page =>
      (page.render env 5 (.map entries) []).1.toOption) = some "n s<true-><->".toList := by
    decide +kernel
  rw [hpage] at hout
  let named := [["user"], ["name"], ["user", "secret"], ["tags"], ["id"], ["note"]]
  have hcheck : sources.all (fun entry => (compile d entry.2.toList none).toOption.all fun t =>
      t.paths.all fun path => decide (path ∈ named.map .keys)) = true := by decide +kernel
  have hnamed : ∀ path, env.Names page path → path ∈ named.map .keys :=
    fun path => Environment.mem_of_names_ofSources hcheck hpage
  have hfirst : ∀ names ∈ named, names.head? ≠ some "secret" := by decide
  have hfind : ∀ other, other ≠ "secret" →
      Entries.find? other entries = Entries.find? other entries' := by
    intro other hother
    by_cases huser : other = "user"
    · rw [huser]
      rfl
    · simp only [Entries.find?, entries, entries', user, tags, List.lookup_cons,
        beq_eq_false_iff_ne.2 hother, beq_eq_false_iff_ne.2 huser, List.lookup_nil]
  have hsame : page.render env 5 (.map entries) [] = page.render env 5 (.map entries') [] := by
    apply render_eq_of_not_named _ _ _ hfind (by decide +kernel)
    · intro t ht
      obtain ⟨entry, -, hcompile⟩ := Environment.exists_source_of_reaches hpage ht
      exact ⟨_, _, _, hcompile⟩
    · intro t ht hmem
      simpa using hnamed _ ⟨t, ht, hmem⟩
    · intro t ht rest hmem
      obtain ⟨names, hnames, heq⟩ := List.mem_map.1 (hnamed _ ⟨t, ht, hmem⟩)
      apply hfirst names hnames
      rw [Path.keys.inj heq]
      rfl
  have hrender := eq_ok_of_toOption hout
  exact ⟨page, hpage, hrender, hsame ▸ hrender⟩

end Template

namespace Run

/-- A value that no path of the templates leads into can stand on top of the context or not. A section on
a value without members runs its body as if it stood in place of the section. -/
theorem scope_push_transparent [Alphabet] {env : Environment} {template : Template}
    {context : Context} (hcompiled : ∀ t, env.Reaches template t →
      ∃ delimiters source label, Template.compile delimiters source label = .ok t)
    (hcurrent : ∀ t, env.Reaches template t → .current ∉ t.paths)
    (hfree : ∀ v ∈ context.frames, v.isLambdaFree = true) (depth : Nat) :
    (∀ v, (∀ t, env.Reaches template t → ∀ names, .keys names ∈ t.paths →
        ∀ w, Context.resolve v names = some w → w.isTruthy = false) → ∀ index,
      scope env depth template index (context.push v) = scope env depth template index context) ∧
    ∀ path body raw delimiters v, context.lookup path = some v → v.isScalar = true →
      v.isTruthy = true →
      step env (scope env depth) template context (.block path body raw delimiters) =
        scope env depth template body context := by
  have hnot : ¬ env.Names template .current := by
    rintro ⟨t, ht, hmem⟩
    exact hcurrent t ht hmem
  have hpush : ∀ v, (∀ names, env.Names template (.keys names) →
      ∀ w, Context.resolve v names = some w → w.isTruthy = false) → ∀ index,
      scope env depth template index (context.push v) = scope env depth template index context := by
    intro v hv index
    exact (scope_congr (Value.isLambdaFree_list hfree) hnot depth template index _ _ (.inl rfl)
      context.within_list_frames (Context.agree_push hnot hv)).symm
  constructor
  · intro v hv
    apply hpush
    rintro names ⟨t, ht, hmem⟩
    exact hv t ht names hmem
  · intro path body raw delimiters v hlookup hscalar htruthy
    have hbody : scope env depth template body (context.push v) =
        scope env depth template body context := by
      apply hpush
      intro names hnames w hw
      obtain ⟨first, rest, rfl⟩ := hnames.exists_cons hcompiled
      rw [Context.resolve_of_isScalar hscalar] at hw
      cases hw
    rw [← hbody]
    simp only [step, block, hlookup]
    cases v with
    | null | bool | number | string => exact if_pos htruthy
    | list | map | lambda => cases hscalar

/-- A map with nothing but falsy values under the names that the templates look up. -/
theorem scope_push_transparent_falsy :
    let d : Delimiters := ⟨['[', '['], [']', ']'], by decide, by decide⟩
    let sources := [("page", "[[#flag]][[a.b]][[^a.c]]-[[/a.c]][[#xs]]([[n]][[>part]])[[/xs]][[/flag]]"),
      ("part", "[[^b]][[c]][[/b]]")]
    let env : Environment := .ofSources d sources fun _ _ _ => .returns .null
    let root : Value := .map [("flag", .number (.integer 1)), ("a", .map [("b", .string "b")]),
      ("xs", .list [.map [("n", .string "1")], .null])]
    let v : Value := .map [("flag", .bool false), ("xs", .null), ("other", .string "x"),
      ("a", .map [("b", .string ""), ("c", .number (.integer 0))])]
    let context := (Context.ofRoot root).push (.map [("c", .string "c")])
    ∃ page, env.partials "page" = some page ∧
      ((scope env 5 page 0 context).run ⟨.empty, []⟩).2.output.text = "b-(1c)(c)".toList ∧
      ((scope env 5 page 0 (context.push v)).run ⟨.empty, []⟩).2.output.text = "b-(1c)(c)".toList ∧
      step env (scope env 5) page context (.block (.keys ["flag"]) 1 [] d) =
        scope env 5 page 1 context := by
  intro d sources env root v context
  have hsome : (env.partials "page").isSome = true := by decide +kernel
  obtain ⟨page, hpage⟩ := Option.isSome_iff_exists.1 hsome
  have hout : (env.partials "page").map (fun page =>
      ((scope env 5 page 0 context).run ⟨.empty, []⟩).2.output.text) =
        some "b-(1c)(c)".toList := by decide +kernel
  rw [hpage] at hout
  let named := [["flag"], ["a", "b"], ["a", "c"], ["xs"], ["n"], ["b"], ["c"]]
  have hcheck : sources.all (fun entry =>
      (Template.compile d entry.2.toList none).toOption.all fun t =>
        t.paths.all fun path => decide (path ∈ named.map .keys)) = true := by decide +kernel
  have hnamed : ∀ path, env.Names page path → path ∈ named.map .keys :=
    fun path => Environment.mem_of_names_ofSources hcheck hpage
  have hunseen : ∀ names ∈ named,
      (Context.resolve v names).all (fun w => !w.isTruthy) = true := by decide +kernel
  have hcompiled : ∀ t, env.Reaches page t →
      ∃ delimiters source label, Template.compile delimiters source label = .ok t := by
    intro t ht
    obtain ⟨entry, -, hcompile⟩ := Environment.exists_source_of_reaches hpage ht
    exact ⟨_, _, _, hcompile⟩
  have hcurrent : ∀ t, env.Reaches page t → .current ∉ t.paths := by
    intro t ht hmem
    simpa using hnamed _ ⟨t, ht, hmem⟩
  have hfree : ∀ v ∈ context.frames, v.isLambdaFree = true := by decide +kernel
  obtain ⟨hpush, hsection⟩ := scope_push_transparent hcompiled hcurrent hfree 5
  have hv : ∀ t, env.Reaches page t → ∀ names, .keys names ∈ t.paths →
      ∀ w, Context.resolve v names = some w → w.isTruthy = false := by
    intro t ht names hmem w hw
    have hnames : names ∈ named := by simpa using hnamed _ ⟨t, ht, hmem⟩
    simpa [hw] using hunseen names hnames
  have hsame := hpush v hv 0
  have htext := Option.some.inj hout
  exact ⟨page, hpage, htext, hsame ▸ htext,
    hsection (.keys ["flag"]) 1 [] d (.number (.integer 1)) rfl rfl rfl⟩

end Run

end LogicLess
