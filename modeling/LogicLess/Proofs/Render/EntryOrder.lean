import LogicLess.Proofs.Output
import LogicLess.Proofs.Program.Compiled
import LogicLess.Proofs.Render.Complement
import LogicLess.Proofs.Value.Order
import LogicLess.Text.IdentifierTable
import Mathlib.Data.List.Permutation

/-!
# Data in another order

A template runs the same way against data that differ in the order in which the entries of maps stand.
-/

namespace LogicLess

namespace Value.Interchangeable

variable {v w : Value}

theorem not_isLambda (h : v.Interchangeable w) : ∀ handle, v ≠ .lambda handle := by
  rintro handle rfl
  simpa [isLambdaFree, parts, isLambda] using h.lambdaFree

theorem not_isLambda_right (h : v.Interchangeable w) : ∀ handle, w ≠ .lambda handle := by
  rintro handle rfl
  have hreordered := h.reordered
  cases hreordered
  exact h.not_isLambda handle rfl

private theorem itemsReordered_refl (xs : List Value) : ItemsReordered xs xs := by
  induction xs with
  | nil => exact .nil
  | cons x xs ih => exact .cons (.refl x) ih

theorem items {xs ys : List Value} (h : (Value.list xs).Interchangeable (.list ys)) :
    List.Forall₂ Value.Interchangeable xs ys := by
  have hitem : ∀ x ∈ xs, ∀ y, x.Reordered y → x.Interchangeable y := fun x hx y =>
    h.of_mem_parts (mem_parts_of_mem_list hx)
  have hitems : ItemsReordered xs ys := by
    cases h.reordered with
    | list h => exact h
    | refl => exact itemsReordered_refl xs
  clear h
  induction xs generalizing ys with
  | nil =>
    cases hitems
    exact .nil
  | cons x xs ih =>
    cases hitems with
    | cons h hrest =>
      exact .cons (hitem x List.mem_cons_self _ h)
        (ih (fun z hz => hitem z (List.mem_cons_of_mem x hz)) hrest)

theorem writeValue_eq (h : v.Interchangeable w) (escaped : Bool) :
    (fun o : Output => o.writeValue v escaped) = fun o => o.writeValue w escaped := by
  funext o
  rw [Output.writeValue_eq, Output.writeValue_eq, h.reordered.isTruthy_eq,
    h.reordered.text_eq h.distinct]

end Value.Interchangeable

namespace Context

/-- The contexts differ at most in the order of entries. -/
def Interchangeable (c c' : Context) : Prop := List.Forall₂ Value.Interchangeable c.frames c'.frames

variable {c c' : Context} {v w : Value}

theorem Interchangeable.push (h : c.Interchangeable c') (hv : v.Interchangeable w) :
    (c.push v).Interchangeable (c'.push w) := .cons hv h

theorem resolve_rel (h : v.Interchangeable w) (keys : List String) :
    Option.Rel Value.Interchangeable (resolve v keys) (resolve w keys) := by
  induction keys generalizing v w with
  | nil => exact .some h
  | cons key keys ih =>
    rw [resolve, resolve, List.foldlM_cons, List.foldlM_cons, h.reordered.isTruthy_eq]
    split
    · have hget := h.reordered.get? h.distinct key
      cases hv : v.get? key <;> cases hw : w.get? key <;> rw [hv, hw] at hget <;> cases hget
      · exact .none
      · next hmember => exact ih (h.of_mem_parts (Value.mem_parts_of_get? hv) hmember)
    · exact .none

theorem filter_rel {found found' : Option Value} (h : Option.Rel Value.Interchangeable found found') :
    Option.Rel Value.Interchangeable (found.filter Value.isTruthy) (found'.filter Value.isTruthy) := by
  cases h with
  | none => exact .none
  | some hv =>
    rw [Option.filter_some, Option.filter_some, hv.reordered.isTruthy_eq]
    split
    · exact .some hv
    · exact .none

theorem head?_frames (c : Context) : c.frames.head? = some c.current := by
  unfold frames current
  cases c.inner <;> rfl

theorem Interchangeable.lookup (h : c.Interchangeable c') (path : Path) :
    Option.Rel Value.Interchangeable (c.lookup path) (c'.lookup path) := by
  unfold Interchangeable at h
  cases path with
  | current =>
    have hc := c.head?_frames
    have hc' := c'.head?_frames
    generalize c.frames = frames at h hc
    generalize c'.frames = frames' at h hc'
    cases h with
    | nil => cases hc
    | cons hv =>
      cases hc
      cases hc'
      exact .some hv
  | keys names =>
    change Option.Rel Value.Interchangeable
      (c.frames.findSome? fun v => (resolve v names).filter Value.isTruthy)
      (c'.frames.findSome? fun v => (resolve v names).filter Value.isTruthy)
    generalize c.frames = frames at h ⊢
    generalize c'.frames = frames' at h ⊢
    induction h with
    | nil => exact .none
    | cons hv _ ih =>
      rw [List.findSome?_cons, List.findSome?_cons]
      have hfound := filter_rel (resolve_rel hv names)
      generalize Option.filter _ _ = found at hfound ⊢
      generalize Option.filter _ _ = found' at hfound ⊢
      cases hfound with
      | none => exact ih
      | some hw => exact .some hw

theorem Interchangeable.lookup_ne_lambda (h : c.Interchangeable c') (path : Path) (handle : Nat) :
    c.lookup path ≠ some (.lambda handle) ∧ c'.lookup path ≠ some (.lambda handle) := by
  cases hv : c.lookup path <;> cases hw : c'.lookup path <;> have hrel := h.lookup path <;>
    rw [hv, hw] at hrel <;> cases hrel
  · simp
  · next hmember =>
    simpa using ⟨hmember.not_isLambda handle, hmember.not_isLambda_right handle⟩

end Context

namespace Run

variable {env : Environment} {run : ScopeRunner} {source source' : TextRunner} {c c' : Context}
  {path : Path}

theorem forM_eq_of_forall₂ {α : Type} {xs ys : List α} {f g : α → Run Unit}
    (h : List.Forall₂ (fun x y => f x = g y) xs ys) : xs.forM f = ys.forM g := by
  induction h with
  | nil => rfl
  | cons hxy _ ih =>
    simp only [List.forM_eq_forM, List.forM_cons] at ih ⊢
    rw [hxy, ih]

theorem shownValues_forall₂ {found found' : Option Value}
    (h : Option.Rel Value.Interchangeable found found') :
    List.Forall₂ Value.Interchangeable (shownValues found) (shownValues found') := by
  cases h with
  | none => exact .nil
  | @some v w h =>
    have htruthy := h.reordered.isTruthy_eq
    have hreordered := h.reordered
    cases v with
    | lambda handle => exact absurd rfl (h.not_isLambda handle)
    | list xs =>
      cases hreordered with
      | refl | list => exact h.items
    | null | bool | number | string | map =>
      cases hreordered
      all_goals
        dsimp only [shownValues]
        rw [htruthy]
        split
        · exact .cons h .nil
        · exact .nil

theorem value_of_lookup {v : Value} (hv : c.lookup path = some v) (hlambda : ∀ handle, v ≠ .lambda handle)
    (delimiters : Delimiters) (escaped : Bool) :
    value env source delimiters c path escaped = onOutput (·.writeValue v escaped) := by
  unfold value
  rw [hv]
  cases v with
  | lambda handle => exact absurd rfl (hlambda handle)
  | null | bool | number | string | list | map => rfl

theorem value_interchangeable (h : c.Interchangeable c') (delimiters : Delimiters) (escaped : Bool) :
    value env source delimiters c path escaped = value env source' delimiters c' path escaped := by
  have hlookup := h.lookup path
  cases hv : c.lookup path <;> cases hw : c'.lookup path <;> rw [hv, hw] at hlookup <;> cases hlookup
  · simp only [value, hv, hw]
  · next hmember =>
    rw [value_of_lookup hv hmember.not_isLambda, value_of_lookup hw hmember.not_isLambda_right,
      hmember.writeValue_eq]

theorem block_interchangeable (h : c.Interchangeable c') {body body' : Context → Run Unit}
    (hbody : ∀ v w, v.Interchangeable w → body (c.push v) = body' (c'.push w)) (raw : List Char)
    (delimiters : Delimiters) :
    block env source body c path raw delimiters = block env source' body' c' path raw delimiters := by
  have hc : block env source body c path raw delimiters = _ :=
    runsBody_block (fun handle => (h.lookup_ne_lambda path handle).1) source raw delimiters body
  have hc' : block env source' body' c' path raw delimiters = _ :=
    runsBody_block (fun handle => (h.lookup_ne_lambda path handle).2) source' raw delimiters body'
  rw [hc, hc']
  refine forM_eq_of_forall₂ ?_
  rw [List.forall₂_map_left_iff, List.forall₂_map_right_iff]
  exact (shownValues_forall₂ (h.lookup path)).imp hbody

theorem showsInverted_interchangeable (h : c.Interchangeable c') :
    showsInverted c path = showsInverted c' path := by
  rw [Bool.eq_iff_iff, showsInverted_iff fun handle => (h.lookup_ne_lambda path handle).1,
    showsInverted_iff fun handle => (h.lookup_ne_lambda path handle).2]
  have hshown := shownValues_forall₂ (h.lookup path)
  constructor
  · intro hnil
    rwa [hnil, List.forall₂_nil_left_iff] at hshown
  · intro hnil
    rwa [hnil, List.forall₂_nil_right_iff] at hshown

private theorem step_interchangeable [Alphabet] {template : Template}
    (hrun : ∀ t index c c', c.Interchangeable c' → run t index c = run t index c')
    (h : c.Interchangeable c') (i : Instruction) :
    step env run template c i = step env run template c' i := by
  cases i with
  | text t => rfl
  | lineStart => rfl
  | value path escaped => exact value_interchangeable h template.delimiters escaped
  | block path body raw delimiters =>
    exact block_interchangeable h (fun v w hv => hrun template body _ _ (h.push hv)) raw delimiters
  | inverted path body =>
    simp only [step, inverted, showsInverted_interchangeable h, hrun template body c c' h]
  | embed name indent =>
    simp only [step, embed]
    cases env.partials name with
    | none => rfl
    | some t => simp only [hrun t 0 c c' h]

/-- A scope runs the same way in contexts that differ at most in the order of entries. -/
theorem scope_interchangeable [Alphabet] (depth : Nat) (template : Template) (index : Nat)
    (c c' : Context) (h : c.Interchangeable c') :
    scope env depth template index c = scope env depth template index c' := by
  induction depth generalizing template index c c' with
  | zero => rfl
  | succ depth ih =>
    rw [scope, scope]
    cases template.scopes[index]? with
    | none => rfl
    | some s =>
      refine forM_eq_of_forall₂ (List.forall₂_same.2 fun i _ => ?_)
      exact step_interchangeable (fun t index c c' => ih t index c c') h i

end Run

namespace Template

variable {v w : Value}

/-- The order in which the entries of maps stand, at any depth, does not show: the text of a value is the
same in either order, and so is what any template writes, whatever it refers to and however deep its scopes
may nest. -/
theorem render_reordered [Alphabet] (h : v.Reordered w) (hfree : v.isLambdaFree = true)
    (hnames : v.HasDistinctNames) :
    v.text = w.text ∧ ∀ (env : Environment) depth (template : Template) history,
      template.render env depth v history = template.render env depth w history := by
  refine ⟨h.text_eq hnames, fun env depth template history => ?_⟩
  have hroot : (Context.ofRoot v).Interchangeable (.ofRoot w) := .cons ⟨h, hfree, hnames⟩ .nil
  rw [render, render, Run.scope_interchangeable depth template 0 _ _ hroot]

/-- A map in a list in a map, with every map turned around. -/
theorem render_reordered_nested :
    let d : Delimiters := ⟨['[', '['], [']', ']'], by decide, by decide⟩
    let sources := [("page", "[[#m]][[^c]]-[[/c]][[#b]][[>part]][[/b]][[/m]]"),
      ("part", "<[[x]][[a]]>")]
    let env : Environment := .ofSources d sources fun _ _ _ => .returns .null
    let data := fun turn : List (String × Value) → List (String × Value) =>
      Value.map (turn [("n", .null), ("m", .map (turn [("a", .string "&"), ("b", .list
        [.map (turn [("z", .bool true), ("x", .map [("y", .bool false)])]), .string "t"])]))])
    let shown := "\x7bm: \x7ba: &, b: \x7bx: \x7by: false\x7d, z: true\x7d,t\x7d, n: \x7d".toList
    let out := "-<\x7by: false\x7d&amp;><&amp;>".toList
    (data id).Reordered (data List.reverse) ∧ (data id).isLambdaFree = true ∧
      (data id).HasDistinctNames ∧ (data id).text = shown ∧ (data List.reverse).text = shown ∧
      ∃ page, env.partials "page" = some page ∧ (page.render env 5 (data id) []).1 = .ok out ∧
        (page.render env 5 (data List.reverse) []).1 = .ok out := by
  intro d sources env data shown out
  have hinner := Value.Reordered.map
    (.cons (.refl (.bool true)) (.cons (.refl (.map [("y", .bool false)])) .nil))
    (.swap ("x", _) ("z", _) [])
  have hlist := Value.Reordered.list (.cons hinner (.cons (.refl (.string "t")) .nil))
  have hmember := Value.Reordered.map (.cons (.refl (.string "&")) (.cons hlist .nil))
    (.swap ("b", _) ("a", _) [])
  have hdata : (data id).Reordered (data List.reverse) :=
    .map (.cons (.refl .null) (.cons hmember .nil)) (.swap ("m", _) ("n", _) [])
  have hfree : (data id).isLambdaFree = true := by decide +kernel
  have hnames : (data id).HasDistinctNames := by decide +kernel
  have hshown : (data id).text = shown := by cbv
  obtain ⟨htext, hrender⟩ := render_reordered hdata hfree hnames
  have hsome : (env.partials "page").isSome = true := by decide +kernel
  obtain ⟨page, hpage⟩ := Option.isSome_iff_exists.1 hsome
  have hout : ((env.partials "page").bind fun page =>
      (page.render env 5 (data id) []).1.toOption) = some out := by decide +kernel
  rw [hpage] at hout
  have hok := eq_ok_of_toOption hout
  exact ⟨hdata, hfree, hnames, hshown, htext ▸ hshown, page, hpage, hok, hrender env 5 page [] ▸ hok⟩

end Template

end LogicLess
