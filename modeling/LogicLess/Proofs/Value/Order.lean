import LogicLess.Proofs.Value.Parts
import Mathlib.Data.List.Nodup

/-!
# The order of entries

The entries of a map stand in no particular order. Values that differ in the order of their entries alone
have the same text, and their members differ in no more.
-/

namespace LogicLess

namespace Entries

variable {α : Type} {xs ys : List (String × α)} {name : String} {a : α}

theorem Distinct.perm (h : Distinct xs) (hperm : xs.Perm ys) : Distinct ys :=
  (hperm.map Prod.fst).nodup_iff.1 h

theorem find?_eq_some_iff (h : Distinct xs) : find? name xs = some a ↔ (name, a) ∈ xs := by
  constructor
  · intro hfind
    obtain ⟨before, after, rfl, -⟩ := List.lookup_eq_some_iff.1 hfind
    simp
  · intro hmem
    cases hfind : find? name xs with
    | none => simpa using List.lookup_eq_none_iff.1 hfind _ hmem
    | some b =>
      obtain ⟨before, after, hxs, -⟩ := List.lookup_eq_some_iff.1 hfind
      have hb : (name, b) ∈ xs := by simp [hxs]
      exact congrArg (some ·.2) (List.inj_on_of_nodup_map h hb hmem rfl)

theorem find?_eq_of_perm (h : Distinct xs) (hperm : xs.Perm ys) : find? name xs = find? name ys := by
  ext a
  rw [find?_eq_some_iff h, find?_eq_some_iff (h.perm hperm), hperm.mem_iff]

end Entries

namespace Value

theorem sortEntries_eq_of_perm {α : Type} {xs ys : List (String × α)} (h : Entries.Distinct xs)
    (hperm : xs.Perm ys) : sortEntries xs = sortEntries ys := by
  have hle : ∀ s t : String, (!decide (t < s)) = true ↔ s ≤ t := by
    intro s t
    rw [Bool.not_eq_true', decide_eq_false_iff_not, String.not_lt]
  have hsorted : ∀ entries : List (String × α),
      (sortEntries entries).Pairwise fun a b => a.1 ≤ b.1 := by
    intro entries
    refine (List.pairwise_mergeSort ?_ ?_ entries).imp fun {a b} hab => (hle a.1 b.1).1 hab
    · intro a b c hab hbc
      rw [hle] at hab hbc ⊢
      exact String.le_trans hab hbc
    · intro a b
      rw [Bool.or_eq_true, hle, hle]
      exact String.le_total a.1 b.1
  have hsame : (sortEntries xs).Perm (sortEntries ys) :=
    (List.mergeSort_perm xs _).trans (hperm.trans (List.mergeSort_perm ys _).symm)
  refine List.Perm.eq_of_pairwise (fun a b ha hb hab hba => ?_) (hsorted xs) (hsorted ys) hsame
  have ha := List.mem_mergeSort.1 ha
  have hb := hperm.mem_iff.2 (List.mem_mergeSort.1 hb)
  exact List.inj_on_of_nodup_map h ha hb (String.le_antisymm hab hba)

mutual

/-- The values differ at most in the order of the entries of their maps, at any depth. -/
inductive Reordered : Value → Value → Prop
  | refl (v : Value) : Reordered v v
  | list {xs ys} (h : ItemsReordered xs ys) : Reordered (.list xs) (.list ys)
  | map {xs ys zs} (h : EntriesReordered xs ys) (hperm : ys.Perm zs) : Reordered (.map xs) (.map zs)

inductive ItemsReordered : List Value → List Value → Prop
  | nil : ItemsReordered [] []
  | cons {x y xs ys} (h : Reordered x y) (hrest : ItemsReordered xs ys) :
    ItemsReordered (x :: xs) (y :: ys)

/-- The values under the names, in the same order, differ at most in the order of the entries of their
maps. -/
inductive EntriesReordered : List (String × Value) → List (String × Value) → Prop
  | nil : EntriesReordered [] []
  | cons {name x y xs ys} (h : Reordered x y) (hrest : EntriesReordered xs ys) :
    EntriesReordered ((name, x) :: xs) ((name, y) :: ys)

end

/-- In no map inside the value two entries have the same name. -/
def HasDistinctNames (v : Value) : Prop :=
  ∀ part ∈ v.parts, ∀ entries ∈ part.asMap?, Entries.Distinct entries

instance (v : Value) : Decidable v.HasDistinctNames :=
  inferInstanceAs (Decidable (∀ part ∈ v.parts, ∀ entries ∈ part.asMap?, (entries.map Prod.fst).Nodup))

theorem HasDistinctNames.map {entries : List (String × Value)} (h : (map entries).HasDistinctNames) :
    Entries.Distinct entries := h _ (mem_parts_self _) entries rfl

theorem HasDistinctNames.of_mem_parts {v w : Value} (h : v.HasDistinctNames) (hw : w ∈ v.parts) :
    w.HasDistinctNames := fun part hpart => h part (parts_subset v hw hpart)

theorem EntriesReordered.map_fst {xs ys : List (String × Value)} (h : EntriesReordered xs ys) :
    xs.map Prod.fst = ys.map Prod.fst := by
  induction xs generalizing ys with
  | nil => cases h; rfl
  | cons x xs ih =>
    cases h with
    | cons _ hrest => rw [List.map_cons, List.map_cons, ih hrest]

theorem entryTexts_eq_map (entries : List (String × Value)) :
    entryTexts entries = entries.map fun entry => (entry.1, entry.2.text) := by
  induction entries with
  | nil => rfl
  | cons entry rest ih => rw [entryTexts, ih, List.map_cons]

theorem mem_parts_of_mem_map {entries : List (String × Value)} {entry : String × Value}
    (h : entry ∈ entries) : entry.2 ∈ (map entries).parts :=
  List.mem_cons_of_mem _ (mem_entryParts.2 ⟨entry, h, entry.2.mem_parts_self⟩)

mutual

theorem Reordered.text_eq : ∀ {v w : Value}, v.Reordered w → v.HasDistinctNames → v.text = w.text
  | .list xs, _, h, hd => by
    cases h with
    | refl => rfl
    | list h =>
      have hitems := ItemsReordered.itemTexts_eq h fun x hx =>
        hd.of_mem_parts (mem_parts_of_mem_list hx)
      rw [text, text, hitems]
  | .map xs, _, h, hd => by
    cases h with
    | refl => rfl
    | @map _ ys zs h hperm =>
      have hentries := EntriesReordered.entryTexts_eq h fun x hx =>
        hd.of_mem_parts (mem_parts_of_mem_map hx)
      have hnames : Entries.Distinct (entryTexts ys) := by
        have hxs : Entries.Distinct xs := hd.map
        rw [Entries.Distinct, entryTexts_eq_map, List.map_map]
        rw [Entries.Distinct, h.map_fst] at hxs
        exact hxs
      have hsorted : sortEntries (entryTexts ys) = sortEntries (entryTexts zs) := by
        refine sortEntries_eq_of_perm hnames ?_
        rw [entryTexts_eq_map, entryTexts_eq_map]
        exact hperm.map _
      rw [text, text, hentries, hsorted]
  | .null, _, h, _ | .bool _, _, h, _ | .number _, _, h, _ | .string _, _, h, _
  | .lambda _, _, h, _ => by
    cases h
    rfl
termination_by structural v => v

private theorem ItemsReordered.itemTexts_eq : ∀ {xs ys : List Value}, ItemsReordered xs ys →
    (∀ x ∈ xs, x.HasDistinctNames) → itemTexts xs = itemTexts ys
  | [], _, h, _ => by
    cases h
    rfl
  | x :: xs, _, h, hd => by
    cases h with
    | cons h hrest =>
      rw [itemTexts, itemTexts, Reordered.text_eq h (hd x List.mem_cons_self),
        ItemsReordered.itemTexts_eq hrest fun y hy => hd y (List.mem_cons_of_mem x hy)]
termination_by structural xs => xs

private theorem EntriesReordered.entryTexts_eq : ∀ {xs ys : List (String × Value)},
    EntriesReordered xs ys → (∀ entry ∈ xs, entry.2.HasDistinctNames) → entryTexts xs = entryTexts ys
  | [], _, h, _ => by
    cases h
    rfl
  | (name, x) :: xs, _, h, hd => by
    cases h with
    | cons h hrest =>
      rw [entryTexts, entryTexts, Reordered.text_eq h (hd (name, x) List.mem_cons_self),
        EntriesReordered.entryTexts_eq hrest fun y hy => hd y (List.mem_cons_of_mem (name, x) hy)]
termination_by structural xs => xs

end

variable {v w : Value}

theorem Reordered.isTruthy_eq (h : v.Reordered w) : v.isTruthy = w.isTruthy := by
  cases h <;> rfl

private theorem ItemsReordered.getElem? {xs ys : List Value} (h : ItemsReordered xs ys) (n : Nat) :
    Option.Rel Reordered xs[n]? ys[n]? := by
  induction xs generalizing ys n with
  | nil =>
    cases h
    exact .none
  | cons x xs ih =>
    cases h with
    | cons h hrest =>
      cases n with
      | zero => exact .some h
      | succ n => exact ih hrest n

private theorem EntriesReordered.find? {xs ys : List (String × Value)} (h : EntriesReordered xs ys)
    (name : String) : Option.Rel Reordered (Entries.find? name xs) (Entries.find? name ys) := by
  induction xs generalizing ys with
  | nil =>
    cases h
    exact .none
  | cons x xs ih =>
    cases h with
    | @cons key x y _ ys h hrest =>
      simp only [Entries.find?, List.lookup_cons] at ih ⊢
      split
      · exact .some h
      · exact ih hrest

/-- A name or a place leads to members that differ in no more than the values do. -/
theorem Reordered.get? (h : v.Reordered w) (hd : v.HasDistinctNames) (key : String) :
    Option.Rel Reordered (v.get? key) (w.get? key) := by
  cases h with
  | refl =>
    cases v.get? key with
    | none => exact .none
    | some u => exact .some (.refl u)
  | list h =>
    simp only [Value.get?]
    cases listIndex? key with
    | none => exact .none
    | some n => exact h.getElem? n
  | @map xs ys zs h hperm =>
    have hxs : Entries.Distinct xs := hd.map
    rw [Entries.Distinct, h.map_fst] at hxs
    simp only [Value.get?, ← Entries.find?_eq_of_perm hxs hperm]
    exact h.find? key

/-- Two values to run a template against that differ at most in the order of entries. -/
structure Interchangeable (v w : Value) : Prop where
  reordered : v.Reordered w
  lambdaFree : v.isLambdaFree = true
  distinct : v.HasDistinctNames

theorem Interchangeable.of_mem_parts {u u' : Value} (h : v.Interchangeable w) (hu : u ∈ v.parts)
    (hreordered : u.Reordered u') : u.Interchangeable u' where
  reordered := hreordered
  lambdaFree := List.all_eq_true.2 fun part hpart =>
    List.all_eq_true.1 h.lambdaFree part (parts_subset v hu hpart)
  distinct := h.distinct.of_mem_parts hu

end Value

end LogicLess
