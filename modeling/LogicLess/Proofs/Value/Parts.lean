import LogicLess.Context
import LogicLess.Value.Text

/-!
# What is inside a value

A value is made of parts: itself and the parts of its members. Whatever a path leads to is a part of
the data, so what holds of all parts of the data holds of everything that a template can show.
-/

namespace LogicLess

namespace Value

mutual

/-- The value and all values inside it. -/
def parts : Value → List Value
  | .list items => .list items :: itemParts items
  | .map entries => .map entries :: entryParts entries
  | v => [v]
termination_by structural v => v

def itemParts : List Value → List Value
  | [] => []
  | v :: rest => v.parts ++ itemParts rest
termination_by structural items => items

def entryParts : List (String × Value) → List Value
  | [] => []
  | (_, v) :: rest => v.parts ++ entryParts rest
termination_by structural entries => entries

end

def isLambda : Value → Bool
  | .lambda _ => true
  | _ => false

def isLambdaFree (v : Value) : Bool := v.parts.all fun part => !part.isLambda

/-- The texts that stand in a value outside of its members. -/
def ownTexts : Value → List (List Char)
  | .string s => [s.toList]
  | .map entries => entries.map fun entry => entry.1.toList
  | _ => []

def texts (v : Value) : List (List Char) := v.parts.flatMap ownTexts

theorem mem_parts_self (v : Value) : v ∈ v.parts := by
  cases v <;> simp [parts]

theorem mem_itemParts {items : List Value} {w : Value} :
    w ∈ itemParts items ↔ ∃ v ∈ items, w ∈ v.parts := by
  induction items with
  | nil => simp [itemParts]
  | cons v rest ih => simp [itemParts, ih]

theorem mem_entryParts {entries : List (String × Value)} {w : Value} :
    w ∈ entryParts entries ↔ ∃ entry ∈ entries, w ∈ entry.2.parts := by
  induction entries with
  | nil => simp [entryParts]
  | cons entry rest ih => simp [entryParts, ih]

mutual

theorem parts_subset {w : Value} : ∀ v : Value, w ∈ v.parts → w.parts ⊆ v.parts
  | .list items, h => by
    rcases List.mem_cons.1 h with rfl | h
    · exact fun _ hu => hu
    · exact List.subset_cons_of_subset _ (parts_subset_items items h)
  | .map entries, h => by
    rcases List.mem_cons.1 h with rfl | h
    · exact fun _ hu => hu
    · exact List.subset_cons_of_subset _ (parts_subset_entries entries h)
  | .null, h | .bool _, h | .number _, h | .string _, h | .lambda _, h => by
    rw [List.mem_singleton.1 h]
    exact fun _ hu => hu
termination_by structural v => v

private theorem parts_subset_items {w : Value} :
    ∀ items : List Value, w ∈ itemParts items → w.parts ⊆ itemParts items
  | [], h => by simp [itemParts] at h
  | v :: rest, h => by
    rcases List.mem_append.1 h with h | h
    · exact List.subset_append_of_subset_left _ (parts_subset v h)
    · exact List.subset_append_of_subset_right _ (parts_subset_items rest h)
termination_by structural items => items

private theorem parts_subset_entries {w : Value} :
    ∀ entries : List (String × Value), w ∈ entryParts entries → w.parts ⊆ entryParts entries
  | [], h => by simp [entryParts] at h
  | (_, v) :: rest, h => by
    rcases List.mem_append.1 h with h | h
    · exact List.subset_append_of_subset_left _ (parts_subset v h)
    · exact List.subset_append_of_subset_right _ (parts_subset_entries rest h)
termination_by structural entries => entries

end

theorem mem_parts_of_mem_list {items : List Value} {v : Value} (h : v ∈ items) :
    v ∈ (list items).parts :=
  List.mem_cons_of_mem _ (mem_itemParts.2 ⟨v, h, v.mem_parts_self⟩)

theorem mem_parts_of_get? {v w : Value} {key : String} (h : v.get? key = some w) :
    w ∈ v.parts := by
  cases v with
  | map entries =>
    obtain ⟨before, after, rfl, -⟩ := List.lookup_eq_some_iff.1 h
    have hmem : (key, w) ∈ before ++ (key, w) :: after := by simp
    exact List.mem_cons_of_mem _ (mem_entryParts.2 ⟨_, hmem, w.mem_parts_self⟩)
  | list items =>
    obtain ⟨n, -, hn⟩ := Option.bind_eq_some_iff.1 h
    exact mem_parts_of_mem_list (List.mem_of_getElem? hn)
  | null | bool | number | string | lambda => simp [get?] at h

theorem not_isLambda_of_mem_parts {data v : Value} (h : data.isLambdaFree = true)
    (hv : v ∈ data.parts) : v.isLambda = false := by
  simpa using List.all_eq_true.1 h v hv

theorem texts_subset {v w : Value} (h : w ∈ v.parts) : w.texts ⊆ v.texts := by
  intro t ht
  obtain ⟨u, hu, ht⟩ := List.mem_flatMap.1 ht
  exact List.mem_flatMap.2 ⟨u, parts_subset v h hu, ht⟩

end Value

namespace Context

/-- All values of a context are parts of the data. -/
def Within (data : Value) (c : Context) : Prop := ∀ v ∈ c.frames, v ∈ data.parts

variable {data v : Value} {c : Context}

theorem within_ofRoot (data : Value) : Within data (ofRoot data) := by
  intro v hv
  rw [List.mem_singleton.1 hv]
  exact data.mem_parts_self

theorem Within.push (h : Within data c) (hv : v ∈ data.parts) : Within data (c.push v) := by
  intro w hw
  rcases List.mem_cons.1 hw with rfl | hw
  · exact hv
  · exact h w hw

theorem mem_parts_of_resolve {keys : List String} {w : Value} (h : resolve v keys = some w) :
    w ∈ v.parts := by
  induction keys generalizing v with
  | nil =>
    rw [← Option.some.inj h]
    exact v.mem_parts_self
  | cons key keys ih =>
    simp only [resolve, List.foldlM_cons] at h
    obtain ⟨u, hu, hw⟩ := Option.bind_eq_some_iff.1 h
    split at hu
    · exact Value.parts_subset v (Value.mem_parts_of_get? hu) (ih hw)
    · simp at hu

theorem Within.of_lookup (h : Within data c) {path : Path} (hv : c.lookup path = some v) :
    v ∈ data.parts := by
  cases path with
  | current =>
    refine h v ?_
    rw [← Option.some.inj hv]
    cases hinner : c.inner <;> simp [current, frames, hinner]
  | keys names =>
    obtain ⟨frame, hframe, hresolve⟩ := List.exists_of_findSome?_eq_some hv
    have hw := mem_parts_of_resolve (Option.filter_eq_some_iff.1 hresolve).1
    exact Value.parts_subset data (h frame hframe) hw

end Context

end LogicLess
