import LogicLess.Proofs.Program.Meaning
import LogicLess.Proofs.Render.Bound
import LogicLess.Proofs.Value.Parts
import LogicLess.Text.IdentifierTable

/-!
# Sections and inverted sections

What a section does with its body is told by the contexts that it runs the body in. A section on a value
and an inverted section on the same value are exact complements: just one of them runs its body, unless a
lambda is called, which leaves both bodies alone.
-/

namespace LogicLess

namespace Run

/-- A part of a run with a place for a body runs the body in these contexts, in order, and does nothing
else. -/
def RunsBody (part : (Context → Run Unit) → Run Unit) (contexts : List Context) : Prop :=
  ∀ body, part body = contexts.forM body

private def mark (c : Context) : Event := .called ⟨0, ⟨c.root, none⟩, .braces, c⟩

private theorem history_forM_mark (contexts : List Context) (s : RunState) :
    ((contexts.forM fun c => record (mark c)).run s).2.history =
      (contexts.map mark).reverse ++ s.history := by
  induction contexts generalizing s with
  | nil => rfl
  | cons c contexts ih =>
    have hrecord : (record (mark c)).run s = (.ok (), ⟨s.output, mark c :: s.history⟩) := rfl
    rw [List.forM_eq_forM, List.forM_cons, run_bind, hrecord]
    simp only [← List.forM_eq_forM, ih]
    simp

theorem RunsBody.unique {part : (Context → Run Unit) → Run Unit} {contexts contexts' : List Context}
    (h : RunsBody part contexts) (h' : RunsBody part contexts') : contexts' = contexts := by
  have hmark : ∀ c c', mark c = mark c' → c = c' :=
    fun _ _ heq => congrArg Call.context (Event.called.inj heq)
  have hhistory := history_forM_mark contexts ⟨.empty, []⟩
  rw [← h, h', history_forM_mark, List.append_cancel_right_eq, List.reverse_inj] at hhistory
  exact (List.map_inj_right hmark).1 hhistory

theorem runsBody_iff {part : (Context → Run Unit) → Run Unit} {contexts : List Context}
    (h : RunsBody part contexts) (contexts' : List Context) :
    RunsBody part contexts' ↔ contexts' = contexts :=
  ⟨h.unique, fun heq => heq ▸ h⟩

variable {env : Environment} {context : Context} {path : Path}

/-- The values for which a section on a value runs its body. A lambda gives none. -/
def shownValues : Option Value → List Value
  | none | some (.lambda _) => []
  | some (.list items) => items
  | some v => if v.isTruthy then [v] else []

theorem shownValues_eq {found : Option Value} (h : shownValues found ≠ []) :
    ∃ v, found = some v ∧ ((∃ items, v = .list items ∧ shownValues found = items) ∨
      (∀ items, v ≠ .list items) ∧ shownValues found = [v]) := by
  cases found with
  | none => exact absurd rfl h
  | some v =>
    refine ⟨v, rfl, ?_⟩
    cases v with
    | lambda handle => exact absurd rfl h
    | list items => exact .inl ⟨items, rfl, rfl⟩
    | null | bool | number | string | map =>
      simp only [shownValues] at h ⊢
      split at h
      · next htruthy => exact .inr ⟨by simp, if_pos htruthy⟩
      · exact absurd rfl h

theorem runsBody_block (h : ∀ handle, context.lookup path ≠ some (.lambda handle))
    (source : TextRunner) (raw : List Char) (delimiters : Delimiters) :
    RunsBody (fun body => block env source body context path raw delimiters)
      ((shownValues (context.lookup path)).map context.push) := by
  intro body
  unfold block
  cases hv : context.lookup path with
  | none => rfl
  | some v =>
    cases v with
    | lambda handle => exact absurd hv (h handle)
    | list items => simp [shownValues]
    | null | bool | number | string | map =>
      dsimp only [shownValues]
      split
      · simp
      · rfl

theorem runsBody_inverted (context : Context) (path : Path) :
    RunsBody (fun body => inverted body context path)
      (if showsInverted context path then [context] else []) := by
  intro body
  unfold inverted
  split
  · simp
  · rfl

/-- The two decisions, which read the value each in its own way, exclude each other. -/
theorem showsInverted_iff (h : ∀ handle, context.lookup path ≠ some (.lambda handle)) :
    showsInverted context path = true ↔ shownValues (context.lookup path) = [] := by
  unfold showsInverted
  cases hv : context.lookup path with
  | none => simp [shownValues]
  | some v =>
    cases v with
    | lambda handle => exact absurd hv (h handle)
    | list items => simp [shownValues]
    | null | bool | number | string | map =>
      dsimp only [shownValues]
      split <;> simp [*]

/-- A section with the body `A` and then an inverted section with the body `B`, both on the same value, run
either `A` at least once or `B` once, whatever the bodies are. -/
theorem exists_block_inverted_eq (env : Environment)
    (h : ∀ handle, context.lookup path ≠ some (.lambda handle)) :
    ∃ places : List (Context ⊕ Context),
      ((∃ c cs, places = (c :: cs).map .inl) ∨ places = [.inr context]) ∧
      ∀ source raw delimiters (bodyA bodyB : Context → Run Unit),
        (do block env source bodyA context path raw delimiters
            inverted bodyB context path) = places.forM (Sum.elim bodyA bodyB) := by
  have hblock : ∀ source raw delimiters body,
      block env source body context path raw delimiters = _ := fun source raw delimiters body =>
    runsBody_block h source raw delimiters body
  have hinverted := fun body => runsBody_inverted context path body
  dsimp only at hblock hinverted
  cases hvalues : shownValues (context.lookup path) with
  | nil =>
    refine ⟨[.inr context], .inr rfl, fun source raw delimiters bodyA bodyB => ?_⟩
    rw [hblock, hinverted, hvalues, if_pos ((showsInverted_iff h).2 hvalues)]
    simp
  | cons v values =>
    refine ⟨(context.push v :: values.map context.push).map .inl, .inl ⟨_, _, rfl⟩,
      fun source raw delimiters bodyA bodyB => ?_⟩
    have hnot : ¬ showsInverted context path = true := by simp [showsInverted_iff h, hvalues]
    rw [hblock, hinverted, hvalues, if_neg hnot]
    simp

/-- On a value that is no lambda, an inverted section runs its body once, with the context as it is, just
if a section runs its body not at all. Otherwise the section runs it once for each item of a list in order,
or once for another value. On a lambda, neither runs its body. So of a section and an inverted section on
the same value, with any bodies and data without lambdas, just one shows its body. -/
theorem sections_complement [Alphabet] (env : Environment) (context : Context) (path : Path) :
    ((∀ handle, context.lookup path ≠ some (.lambda handle)) → ∃ inside outside,
      (∀ source raw delimiters contexts,
        RunsBody (fun body => block env source body context path raw delimiters) contexts ↔
          contexts = inside) ∧
      (∀ contexts, RunsBody (fun body => inverted body context path) contexts ↔
        contexts = outside) ∧
      (outside = [context] ↔ inside = []) ∧ (outside = [] ↔ inside ≠ []) ∧
      (inside ≠ [] → ∃ v, context.lookup path = some v ∧
        ((∃ items, v = .list items ∧ inside = items.map context.push) ∨
          (∀ items, v ≠ .list items) ∧ inside = [context.push v]))) ∧
    (∀ handle, context.lookup path = some (.lambda handle) →
      RunsBody (fun body => inverted body context path) [] ∧
      ∀ source raw delimiters body body',
        block env source body context path raw delimiters =
          block env source body' context path raw delimiters) ∧
    ∀ data : Value, data.isLambdaFree = true → context.Within data →
      ∃ places : List (Context ⊕ Context),
        ((∃ c cs, places = (c :: cs).map .inl) ∨ places = [.inr context]) ∧
        ∀ depth name d (A B : List Token) rawA rawB dA dB regionA regionB,
          scope env (depth + 1) (.ofTokens name d [.lineStart, .block path false A rawA dA regionA,
            .block path true B rawB dB regionB]) 0 context =
          (do onOutput Output.startLine
              places.forM (Sum.elim (scope env depth (.ofTokens name d A) 0)
                (scope env depth (.ofTokens name d B) 0))) := by
  refine ⟨fun h => ?_, fun handle hlookup => ⟨fun body => ?_, fun source raw delimiters body body' => ?_⟩,
    fun data hfree hdata => ?_⟩
  · refine ⟨_, _, fun source raw delimiters => runsBody_iff (runsBody_block h source raw delimiters),
      runsBody_iff (runsBody_inverted context path), ?_, ?_, fun hne => ?_⟩
    · simp [showsInverted_iff h]
    · simp [showsInverted_iff h]
    · have hvalues : shownValues (context.lookup path) ≠ [] := fun hnil => hne (by rw [hnil]; rfl)
      obtain ⟨v, hv, ⟨items, hitems, heq⟩ | ⟨hlist, heq⟩⟩ := shownValues_eq hvalues
      · exact ⟨v, hv, .inl ⟨items, hitems, by rw [heq]⟩⟩
      · exact ⟨v, hv, .inr ⟨hlist, by rw [heq]; rfl⟩⟩
  · simp [inverted, showsInverted, hlookup, Value.isTruthy]
  · simp only [block, hlookup]
  · have h : ∀ handle, context.lookup path ≠ some (.lambda handle) := by
      intro handle hlookup
      have hlambda := Value.not_isLambda_of_mem_parts hfree (hdata.of_lookup hlookup)
      simp [Value.isLambda] at hlambda
    obtain ⟨places, hplaces, hrun⟩ := exists_block_inverted_eq env h
    refine ⟨places, hplaces, fun depth name d A B rawA rawB dA dB regionA regionB => ?_⟩
    simp only [Token.scope_zero_eq_walk]
    rw [← hrun (Token.source (Token.walk env depth)) rawA dA]
    simp [Token.walk, Token.step]

/-- A list with falsy items, which a falsy value on top of it does not hide, and a lambda. -/
theorem sections_complement_shadowed :
    let p := Path.keys ["p"]
    let env : Environment := ⟨fun _ => none, fun _ _ _ => .returns .null⟩
    let items : List Value := [.null, .string "x", .list []]
    let inner : Value := .map [("p", .bool false)]
    let data : Value := .map [("p", .list items), ("q", inner)]
    let context := (Context.ofRoot data).push inner
    let called := Context.ofRoot (.map [("p", .lambda 0)])
    let both := fun A B => Template.ofTokens none .braces [.lineStart,
      .block p false A [] .braces ⟨0, 0⟩, .block p true B [] .braces ⟨0, 0⟩]
    (∀ handle, context.lookup p ≠ some (.lambda handle)) ∧
      (∀ source raw delimiters,
        RunsBody (fun body => block env source body context p raw delimiters)
          (items.map context.push)) ∧
      RunsBody (fun body => inverted body context p) [] ∧
      called.lookup p = some (.lambda 0) ∧ RunsBody (fun body => inverted body called p) [] ∧
      data.isLambdaFree = true ∧ context.Within data ∧
      ∃ c cs, ∀ A B, scope env 3 (both A B) 0 context =
        (do onOutput Output.startLine
            (c :: cs).forM (scope env 2 (.ofTokens none .braces A) 0)) := by
  intro p env items inner data context called both
  have hlookup : context.lookup p = some (.list items) := rfl
  have hnot : ∀ handle, context.lookup p ≠ some (.lambda handle) := by simp [hlookup]
  have hcalled : called.lookup p = some (.lambda 0) := rfl
  have hfree : data.isLambdaFree = true := by decide +kernel
  have hinner : data.get? "q" = some inner := rfl
  have hwithin : context.Within data :=
    (Context.within_ofRoot data).push (Value.mem_parts_of_get? hinner)
  obtain ⟨hvalue, -, hdata⟩ := sections_complement env context p
  obtain ⟨-, hlambda, -⟩ := sections_complement env called p
  obtain ⟨inside, outside, hinside, houtside, -, hnone, -⟩ := hvalue hnot
  obtain rfl : items.map context.push = inside :=
    (hinside (fun _ _ _ => pure ()) [] .braces _).1 (runsBody_block hnot _ [] .braces)
  obtain rfl : outside = [] := hnone.2 (by simp [items])
  obtain ⟨places, hplaces, hrun⟩ := hdata data hfree hwithin
  refine ⟨hnot, fun source raw delimiters => (hinside source raw delimiters _).2 rfl,
    (houtside _).2 rfl, hcalled, (hlambda 0 hcalled).1, hfree, hwithin, ?_⟩
  rcases hplaces with ⟨c, cs, rfl⟩ | rfl
  · refine ⟨c, cs, fun A B => ?_⟩
    rw [hrun]
    simp
  · -- The other case would show the second text and not the first one.
    have hshown : ((scope env 3 (both [.text ['a']] [.text ['b']]) 0 context).run
        ⟨.empty, []⟩).2.output.text = ['a', 'a', 'a'] := by decide +kernel
    rw [hrun] at hshown
    exact absurd hshown (by decide +kernel)

end Run

end LogicLess
