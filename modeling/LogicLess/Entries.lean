/-!
# Entries under names

Maps, stores and registries keep their members as a list of entries with distinct names. A member is
found by its name; putting one in replaces the member of the same name.
-/

namespace LogicLess.Entries

variable {α : Type}

def find? (name : String) (entries : List (String × α)) : Option α :=
  entries.lookup name

def erase (name : String) (entries : List (String × α)) : List (String × α) :=
  entries.filter fun entry => entry.1 != name

def insert (name : String) (a : α) (entries : List (String × α)) : List (String × α) :=
  erase name entries ++ [(name, a)]

def Distinct (entries : List (String × α)) : Prop := (entries.map Prod.fst).Nodup

theorem find?_erase_self (name : String) (entries : List (String × α)) :
    find? name (erase name entries) = none := by
  simp only [find?, erase, List.lookup_eq_none_iff, List.mem_filter, bne_iff_ne]
  rintro ⟨key, a⟩ ⟨-, h⟩
  simpa using Ne.symm h

theorem find?_erase_of_ne {name other : String} (h : other ≠ name)
    (entries : List (String × α)) : find? other (erase name entries) = find? other entries := by
  induction entries with
  | nil => rfl
  | cons entry rest ih =>
    obtain ⟨key, a⟩ := entry
    simp only [find?, erase] at ih ⊢
    by_cases he : key = name
    · subst he
      simpa [List.lookup_cons, beq_eq_false_iff_ne.2 h] using ih
    · simp [List.lookup_cons, he, ih]

theorem find?_insert_self (name : String) (a : α) (entries : List (String × α)) :
    find? name (insert name a entries) = some a := by
  have h := find?_erase_self name entries
  simp only [find?, insert] at h ⊢
  simp [List.lookup_append, h]

theorem find?_insert_of_ne {name other : String} (h : other ≠ name) (a : α)
    (entries : List (String × α)) : find? other (insert name a entries) = find? other entries := by
  have he := find?_erase_of_ne h entries
  simp only [find?, insert] at he ⊢
  simp [List.lookup_append, he, List.lookup_cons, beq_eq_false_iff_ne.2 h]

end LogicLess.Entries
