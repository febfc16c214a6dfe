import LogicLess.Proofs.Program.Preorder
import LogicLess.Proofs.Render.Bound

/-!
# The scopes of a tree

The table of scopes is an image of the tree that it is made of: nothing is missing in it, nothing is in it
twice, and the tree can be read off it again. So no run meets an index without a scope.
-/

namespace LogicLess

/-- Every section of the template leads to one of its scopes. -/
structure Template.Complete (t : Template) : Prop where
  pos : 0 < t.scopes.length
  lt : ∀ s ∈ t.scopes, ∀ body ∈ s.bodies, body < t.scopes.length

theorem Template.complete_ofTokens (label : Option String) (d : Delimiters) (tokens : List Token) :
    (ofTokens label d tokens).Complete where
  pos := by
    change 0 < (Token.scopes tokens).length
    rw [Token.length_scopes]
    omega
  lt := by
    intro s hs body hbody
    have hmem := (Token.perm_bodies_scopes tokens).subset (List.mem_flatMap.2 ⟨s, hs, hbody⟩)
    have hlength := Token.length_scopes tokens
    change body < (Token.scopes tokens).length
    rw [List.mem_range'_1] at hmem
    omega

namespace Run

variable [Alphabet]

/-- Runs a scope of a template and does `missing` wherever the template has no scope with the index. -/
def scopeOr (missing : Run Unit) (env : Environment) : Nat → ScopeRunner
  | 0, _, _, _ => throw .exhausted
  | depth + 1, template, index, context =>
    match template.scopes[index]? with
    | none => missing
    | some s => s.instructions.forM (step env (scopeOr missing env depth) template context)

variable {env : Environment}

private theorem step_congr_of_complete {run run' : ScopeRunner}
    (henv : ∀ name t, env.partials name = some t → t.Complete)
    (hrun : ∀ t : Template, t.Complete → ∀ index < t.scopes.length, run t index = run' t index)
    {t : Template} (ht : t.Complete) {s : Scope} (hs : s ∈ t.scopes) {i : Instruction}
    (hi : i ∈ s.instructions) (context : Context) :
    step env run t context i = step env run' t context i := by
  have hsource : source run = source run' := by
    funext d context text
    rw [source, source]
    cases hcompile : Template.compile d text none with
    | error d => rfl
    | ok template =>
      obtain ⟨tokens, -, rfl⟩ := Template.exists_of_compile hcompile
      have hcomplete := Template.complete_ofTokens none d tokens
      simp only [hrun _ hcomplete 0 hcomplete.pos]
  have hbody : ∀ body, i.body? = some body → run t body = run' t body := fun body h =>
    hrun t ht body (ht.lt s hs body (List.mem_filterMap.2 ⟨i, hi, h⟩))
  cases i with
  | text | lineStart => rfl
  | value => simp only [step, hsource]
  | block path body => simp only [step, hsource, hbody body rfl]
  | inverted path body => simp only [step, hbody body rfl]
  | embed name indent =>
    simp only [step, embed]
    cases hname : env.partials name with
    | none => rfl
    | some t' =>
      have ht' := henv name t' hname
      simp only [hrun t' ht' 0 ht'.pos]

theorem scopeOr_eq_scope (missing : Run Unit)
    (henv : ∀ name t, env.partials name = some t → t.Complete) (depth : Nat) :
    ∀ t : Template, t.Complete → ∀ index < t.scopes.length,
      scopeOr missing env depth t index = scope env depth t index := by
  induction depth with
  | zero => exact fun _ _ _ _ => rfl
  | succ depth ih =>
    intro t ht index hindex
    funext context
    rw [scopeOr, scope, List.getElem?_eq_getElem hindex]
    refine forM_related rfl (fun hx hy => by rw [hx, hy]) fun i hi => ?_
    exact step_congr_of_complete henv ih ht (List.getElem_mem hindex) hi context

end Run

namespace Token

/-- A tree has one scope for itself and one for each of its sections, in the order in which these begin.
Each index but the first belongs to one section, which stands in an earlier scope. The scopes are tidy, and
following the sections gives the tree back. What a run does about a missing scope makes no difference. -/
theorem scopes_image [Alphabet] (tokens : List Token) :
    let table := scopes tokens
    let count := sectionCount tokens
    table.length = count + 1 ∧
      Scope.visits table table.length 0 = List.range' 1 count ∧
      (table.flatMap Scope.bodies).Perm (List.range' 1 count) ∧
      (∀ index s, table[index]? = some s → ∀ body ∈ s.bodies, index < body ∧ body < table.length) ∧
      (∀ s ∈ table, s.Tidy) ∧
      Scope.unfold table table.length 0 = some (tidyAll tokens) ∧
      ∀ (env : Environment), (∀ name t, env.partials name = some t →
          ∃ label d inner, t = .ofTokens label d inner) →
        ∀ missing depth label d context,
          Run.scopeOr missing env depth (.ofTokens label d tokens) 0 context =
            Run.scope env depth (.ofTokens label d tokens) 0 context := by
  intro table count
  have hlength : table.length = count + 1 := length_scopes tokens
  have hbound : sectionCount tokens < table.length := by
    rw [hlength]
    exact Nat.lt_succ_self count
  have hcompiled := compiled_scopes tokens
  have hcomplete := Template.complete_ofTokens none .braces tokens
  refine ⟨hlength, visits_of_compiled _ 0 1 tokens hbound hcompiled, perm_bodies_scopes tokens,
    fun index s hs body hbody => ?_, fun s hs => ?_,
    unfold_of_compiled _ 0 1 tokens hbound hcompiled, fun env henv missing depth label d context => ?_⟩
  · obtain ⟨i, hi, hbody⟩ := List.mem_filterMap.1 hbody
    exact ⟨lt_body_of_scopes hs hi hbody, hcomplete.lt s (List.mem_of_getElem? hs) body
      (List.mem_filterMap.2 ⟨i, hi, hbody⟩)⟩
  · exact tidy_of_mem_scopes hs
  · have hpartials : ∀ name t, env.partials name = some t → t.Complete := by
      intro name t ht
      obtain ⟨label, d, inner, rfl⟩ := henv name t ht
      exact Template.complete_ofTokens label d inner
    have h := Template.complete_ofTokens label d tokens
    rw [Run.scopeOr_eq_scope missing hpartials depth _ h 0 h.pos]

end Token

end LogicLess
