import LogicLess.Proofs.Text.Split

/-!
# Patterns

A pattern matches parts of a text. Of several matches at one place the preferred one counts, which takes as
many characters as it can at every turn, from left to right. A search finds the leftmost place with a match.
-/

namespace LogicLess.Text

/-- What is looked for in a text. -/
inductive Pattern
  | text (s : List Char)
  /-- One character of a class. -/
  | one (p : Char → Bool)
  /-- Any number of characters of a class, as many as possible. -/
  | many (p : Char → Bool)
  | seq (a b : Pattern)
  /-- One of two patterns, the first one if possible. -/
  | either (a b : Pattern)
  | textEnd

namespace Pattern

def maybe (a : Pattern) : Pattern := either a (text [])

/-- The numbers of characters that matches at the beginning of a text take, preferred ones first. -/
def lengths : Pattern → List Char → List Nat
  | text s, t => if s.isPrefixOf t then [s.length] else []
  | one p, t => if t.head?.any p then [1] else []
  | many p, t => (List.range ((t.takeWhile p).length + 1)).reverse
  | seq a b, t => (a.lengths t).flatMap fun m => (b.lengths (t.drop m)).map (m + ·)
  | either a b, t => a.lengths t ++ b.lengths t
  | textEnd, t => if t.isEmpty then [0] else []

/-- The number of characters that the pattern takes at the beginning of a text, if it matches there. -/
def here? (a : Pattern) (t : List Char) : Option Nat := (a.lengths t).head?

/-- The leftmost place where the pattern matches, and the number of characters that it takes there. -/
def find? (a : Pattern) : List Char → Option (Nat × Nat)
  | [] => (a.here? []).map fun n => (0, n)
  | c :: rest =>
    match a.here? (c :: rest) with
    | some n => some (0, n)
    | none => (a.find? rest).map fun (place, n) => (place + 1, n)

def before (a : Pattern) (t : List Char) : List Char :=
  t.take ((a.find? t).elim t.length Prod.fst)

variable {a b : Pattern} {p : Char → Bool} {s t : List Char}

theorem find?_of_here? {n : Nat} (h : a.here? t = some n) : a.find? t = some (0, n) := by
  cases t with
  | nil => rw [find?, h]; rfl
  | cons c rest => rw [find?, h]

theorem find?_append (h : ∀ n < s.length, a.here? ((s ++ t).drop n) = none) :
    a.find? (s ++ t) = (a.find? t).map fun (place, n) => (s.length + place, n) := by
  induction s with
  | nil => simp
  | cons c s ih =>
    have hfirst : a.here? (c :: (s ++ t)) = none := h 0 (by simp)
    have hrest := ih fun n hn => h (n + 1) (by simpa using hn)
    rw [List.cons_append, find?, hfirst]
    simp only [hrest, Option.map_map, List.length_cons]
    congr 1
    funext place
    simp only [Function.comp_apply, Prod.mk.injEq, and_true]
    omega

theorem here?_of_find? {place n : Nat} (h : a.find? t = some (place, n)) :
    a.here? (t.drop place) = some n := by
  induction t generalizing place with
  | nil =>
    obtain ⟨m, hm, heq⟩ := Option.map_eq_some_iff.1 h
    obtain ⟨rfl, rfl⟩ := Prod.mk.inj heq
    exact hm
  | cons c rest ih =>
    rw [find?] at h
    split at h
    · next m hm =>
      obtain ⟨rfl, rfl⟩ := Prod.mk.inj (Option.some.inj h)
      exact hm
    · obtain ⟨⟨q, m⟩, hq, heq⟩ := Option.map_eq_some_iff.1 h
      obtain ⟨rfl, rfl⟩ := Prod.mk.inj heq
      exact ih hq

theorem here?_text : (text s).here? t = if s.isPrefixOf t then some s.length else none := by
  simp only [here?, lengths]
  split <;> rfl

theorem here?_many : (many p).here? t = some (t.takeWhile p).length := by
  simp [here?, lengths, List.range_succ]

/-- A run that what follows cannot begin in is taken as a whole. -/
theorem lengths_many_seq (h : ∀ c rest, p c = true → b.lengths (c :: rest) = []) :
    (seq (many p) b).lengths t =
      (b.lengths (t.dropWhile p)).map ((t.takeWhile p).length + ·) := by
  have hshorter : ∀ m < (t.takeWhile p).length, b.lengths (t.drop m) = [] := by
    intro m hm
    have hlt : m < t.length := Nat.lt_of_lt_of_le hm (List.takeWhile_prefix p).length_le
    have hget := (List.takeWhile_prefix p (l := t)).getElem hm
    rw [List.drop_eq_getElem_cons hlt]
    apply h
    rw [← hget]
    exact List.all_eq_true.1 List.all_takeWhile _ (List.getElem_mem hm)
  have hdrop : t.drop (t.takeWhile p).length = t.dropWhile p :=
    (congrArg (List.drop _) List.takeWhile_append_dropWhile.symm).trans List.drop_left
  simp only [lengths, List.range_succ, List.reverse_append, List.reverse_singleton,
    List.singleton_append, List.flatMap_cons, hdrop]
  rw [List.flatMap_eq_nil_iff.2, List.append_nil]
  intro m hm
  rw [hshorter m (by simpa using hm), List.map_nil]

theorem here?_many_seq (h : ∀ c rest, p c = true → b.lengths (c :: rest) = []) :
    (seq (many p) b).here? t =
      (b.here? (t.dropWhile p)).map ((t.takeWhile p).length + ·) := by
  rw [here?, lengths_many_seq h, List.head?_map, here?]

end Pattern

end LogicLess.Text
