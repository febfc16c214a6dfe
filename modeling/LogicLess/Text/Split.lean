/-!
# Cutting text into pieces

Text is cut at separators, at line ends and before a trailing run. Each cut is stated with the way
the pieces join up again.
-/

namespace LogicLess.Text

/-- The pieces between the characters of the class `p`, empty ones included. -/
def splitOn (p : Char → Bool) : List Char → List (List Char)
  | [] => [[]]
  | c :: rest =>
    if p c then [] :: splitOn p rest
    else
      match splitOn p rest with
      | [] => [[c]]
      | piece :: pieces => (c :: piece) :: pieces

/-- The maximal runs of characters outside the class `p`. -/
def words (p : Char → Bool) (s : List Char) : List (List Char) :=
  (splitOn p s).filter fun piece => !piece.isEmpty

/-- The lines of a text, each with the line feed that ends it. The last line may lack one. -/
def splitLines : List Char → List (List Char)
  | [] => []
  | c :: rest =>
    if c = '\n' then ['\n'] :: splitLines rest
    else
      match splitLines rest with
      | [] => [[c]]
      | line :: lines => (c :: line) :: lines

theorem flatten_splitLines (s : List Char) : (splitLines s).flatten = s := by
  fun_induction splitLines s <;> simp_all

def lines (s : List Char) : List (List Char) :=
  (splitLines s).map fun line => line.filter (· ≠ '\n')

/-- The text before the first line feed, less one carriage return if a line feed follows. -/
def firstLine (s : List Char) : List Char :=
  let line := s.takeWhile (· ≠ '\n')
  if line.length < s.length ∧ line.getLast? = some '\r' then line.dropLast else line

/-- The text with its longest tail in the class `p` cut off, and that tail. -/
def splitTrailing (p : Char → Bool) (s : List Char) : List Char × List Char :=
  ((s.reverse.dropWhile p).reverse, (s.reverse.takeWhile p).reverse)

theorem splitTrailing_append (p : Char → Bool) (s : List Char) :
    (splitTrailing p s).1 ++ (splitTrailing p s).2 = s := by
  rw [splitTrailing, ← List.reverse_append, List.takeWhile_append_dropWhile, List.reverse_reverse]

def trimTrailing (p : Char → Bool) (s : List Char) : List Char :=
  (splitTrailing p s).1

/-- The text around the first occurrence of `needle`: what stands before it and what follows it. -/
def cutAt? (needle : List Char) : List Char → Option (List Char × List Char)
  | [] => if needle.isEmpty then some ([], []) else none
  | c :: rest =>
    if needle.isPrefixOf (c :: rest) then some ([], (c :: rest).drop needle.length)
    else (cutAt? needle rest).map fun (before, after) => (c :: before, after)

theorem append_of_cutAt? {needle s before after : List Char}
    (h : cutAt? needle s = some (before, after)) : s = before ++ needle ++ after := by
  induction s generalizing before with
  | nil => simp_all [cutAt?]
  | cons c rest ih =>
    rw [cutAt?] at h
    split at h
    · next hp =>
      obtain ⟨t, ht⟩ := List.isPrefixOf_iff_prefix.1 hp
      simp only [Option.some.injEq, Prod.mk.injEq] at h
      rw [← h.1, ← h.2, ← ht]
      simp
    · simp only [Option.map_eq_some_iff, Prod.exists, Prod.mk.injEq] at h
      obtain ⟨b, a, hb, rfl, rfl⟩ := h
      simp [ih hb]

end LogicLess.Text
