import LogicLess.Proofs.Token.Nodes
import Mathlib.Data.List.Chain

/-!
# Tidy scopes

A scope holds no empty text, and no two texts and no two starts of a line side by side. The tokens that its
instructions stand for are those of the list that it was made of, after texts that meet have been joined and
lines that start twice start once.
-/

namespace LogicLess

/-- Two instructions that stay apart when they meet in a scope. -/
def Instruction.Apart : Instruction → Instruction → Prop
  | .text _, .text _ | .lineStart, .lineStart => False
  | _, _ => True

namespace Scope

/-- What becomes of a scope when an instruction is added to it. -/
inductive Pushes (s : Scope) : Instruction → Scope → Prop
  | drops : Pushes s (.text []) s
  | joins {front previous t} (ht : t ≠ []) (hs : s.instructions = front ++ [.text previous]) :
    Pushes s (.text t) ⟨front ++ [.text (previous ++ t)]⟩
  | repeats {front} (hs : s.instructions = front ++ [.lineStart]) : Pushes s .lineStart s
  | appends {i} (hne : i ≠ .text []) (hapart : ∀ last ∈ s.instructions.getLast?, last.Apart i) :
    Pushes s i ⟨s.instructions ++ [i]⟩

theorem pushes_push (s : Scope) (i : Instruction) : s.Pushes i (s.push i) := by
  unfold push
  split
  · exact .drops
  · next t previous ht hlast =>
    obtain ⟨front, hs⟩ := List.getLast?_eq_some_iff.1 hlast
    rw [hs, List.dropLast_concat]
    exact .joins ht hs
  · next hlast =>
    obtain ⟨front, hs⟩ := List.getLast?_eq_some_iff.1 hlast
    exact .repeats hs
  · next hne htext hline =>
    refine .appends hne fun last hlast => ?_
    unfold Instruction.Apart
    split
    · exact htext _ _ rfl hlast
    · exact hline rfl hlast
    · trivial

structure Tidy (s : Scope) : Prop where
  ne_nil : .text [] ∉ s.instructions
  apart : s.instructions.IsChain Instruction.Apart

theorem tidy_empty : empty.Tidy := ⟨by simp [empty], .nil⟩

private theorem apart_text {i : Instruction} {s t : List Char} (h : i.Apart (.text s)) :
    i.Apart (.text t) := by
  cases i with
  | text => exact h
  | lineStart | value | block | inverted | embed => trivial

theorem Pushes.tidy {s after : Scope} {i : Instruction} (h : s.Pushes i after) (hs : s.Tidy) :
    after.Tidy := by
  obtain ⟨hne, hapart⟩ := hs
  cases h with
  | drops => exact ⟨hne, hapart⟩
  | repeats => exact ⟨hne, hapart⟩
  | joins ht hs =>
    rw [hs, List.mem_append, not_or] at hne
    rw [hs, List.isChain_append] at hapart
    refine ⟨?_, List.isChain_append.2 ⟨hapart.1, .singleton _, ?_⟩⟩
    · simpa [ht] using hne.1
    · intro last hlast next hnext
      obtain rfl := Option.some.inj hnext
      exact apart_text (hapart.2.2 last hlast _ rfl)
  | appends hi hlast =>
    refine ⟨?_, List.isChain_append.2 ⟨hapart, .singleton _, ?_⟩⟩
    · simpa [hne] using hi.symm
    · intro last hmem next hnext
      obtain rfl := Option.some.inj hnext
      exact hlast last hmem

theorem tidy_ofInstructions (instructions : List Instruction) : (ofInstructions instructions).Tidy := by
  have h : ∀ s : Scope, s.Tidy → (instructions.foldl push s).Tidy := by
    induction instructions with
    | nil => exact fun s hs => hs
    | cons i rest ih => exact fun s hs => ih (s.push i) ((pushes_push s i).tidy hs)
  exact h empty tidy_empty

end Scope

namespace Token

/-- A token in front of a list of tokens: a text is joined with a text that the list begins with, and a
line that starts there does not start again. -/
def front : Token → List Token → List Token
  | .text s, rest => joinText s rest
  | .lineStart, .lineStart :: rest => .lineStart :: rest
  | token, rest => token :: rest

theorem front_text_append (s t : List Char) (rest : List Token) :
    front (.text (s ++ t)) rest = front (.text s) (front (.text t) rest) :=
  joinText_append s t rest

theorem front_lineStart_twice (rest : List Token) :
    front .lineStart (front .lineStart rest) = front .lineStart rest := by
  cases rest with
  | nil => rfl
  | cons token rest => cases token <;> rfl

end Token

namespace Instruction

/-- The token that an instruction stands for, if the tokens `body` are those of the scope that it leads to.
What an instruction does not tell of a section is left blank. -/
def token (body : List Token) : Instruction → Token
  | .text t => .text t
  | .lineStart => .lineStart
  | .value path escaped => .value path escaped
  | .block path _ raw delimiters => .block path false body raw delimiters ⟨0, 0⟩
  | .inverted path _ => .block path true body [] .braces ⟨0, 0⟩
  | .embed name indent => .embed name indent

end Instruction

namespace Scope

variable {bodies : Instruction → List Token}

private theorem Pushes.foldr_front {s after : Scope} {i : Instruction} (h : s.Pushes i after)
    (rest : List Token) :
    (after.instructions.map fun i => i.token (bodies i)).foldr Token.front rest =
      (s.instructions.map fun i => i.token (bodies i)).foldr Token.front
        (Token.front (i.token (bodies i)) rest) := by
  cases h with
  | drops => rfl
  | joins _ hs => simp [hs, Instruction.token, Token.front_text_append]
  | repeats hs => simp [hs, Instruction.token, Token.front_lineStart_twice]
  | appends => simp

private theorem foldr_front_ofInstructions (instructions : List Instruction) :
    ((ofInstructions instructions).instructions.map fun i => i.token (bodies i)).foldr Token.front [] =
      (instructions.map fun i => i.token (bodies i)).foldr Token.front [] := by
  have h : ∀ s : Scope,
      ((instructions.foldl push s).instructions.map fun i => i.token (bodies i)).foldr Token.front [] =
        (s.instructions.map fun i => i.token (bodies i)).foldr Token.front
          ((instructions.map fun i => i.token (bodies i)).foldr Token.front []) := by
    induction instructions with
    | nil => exact fun s => rfl
    | cons i rest ih =>
      intro s
      rw [List.foldl_cons, ih, (pushes_push s i).foldr_front, List.map_cons, List.foldr_cons]
  exact h empty

private theorem Tidy.foldr_front {s : Scope} (h : s.Tidy) :
    (s.instructions.map fun i => i.token (bodies i)).foldr Token.front [] =
      s.instructions.map fun i => i.token (bodies i) := by
  obtain ⟨hne, hapart⟩ := h
  generalize s.instructions = l at hne hapart
  induction l with
  | nil => rfl
  | cons i rest ih =>
    have hrest := ih (fun h => hne (List.mem_cons_of_mem i h)) hapart.tail
    rw [List.map_cons, List.foldr_cons, hrest]
    cases rest with
    | nil =>
      cases i with
      | text t =>
        cases t with
        | nil => simp at hne
        | cons c t => rfl
      | lineStart | value | block | inverted | embed => rfl
    | cons j rest =>
      have hij : i.Apart j := (List.isChain_cons_cons.1 hapart).1
      cases i with
      | text t =>
        cases t with
        | nil => simp at hne
        | cons c t => cases j <;> first | rfl | exact hij.elim
      | lineStart => cases j <;> first | rfl | exact hij.elim
      | value | block | inverted | embed => rfl

/-- The tokens of a scope are those of the instructions that it was made of, after what meets has been
joined. -/
theorem map_token_ofInstructions (instructions : List Instruction) :
    (ofInstructions instructions).instructions.map (fun i => i.token (bodies i)) =
      (instructions.map fun i => i.token (bodies i)).foldr Token.front [] := by
  rw [← (tidy_ofInstructions instructions).foldr_front, foldr_front_ofInstructions]

end Scope

end LogicLess
