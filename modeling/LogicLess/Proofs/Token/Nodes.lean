import LogicLess.Proofs.Program.Compiled
import LogicLess.Proofs.Token.Lines

/-!
# The tokens of a tree

The tokens of a tree at every depth, the instructions that they are compiled to, and texts that meet in
front of a list of tokens.
-/

namespace LogicLess

namespace Token

mutual

/-- The token and, if it is a section, all tokens inside it. -/
def nodes : Token → List Token
  | .block path inverted body raw delimiters region =>
    .block path inverted body raw delimiters region :: allNodes body
  | token => [token]
termination_by structural token => token

def allNodes : List Token → List Token
  | [] => []
  | token :: rest => nodes token ++ allNodes rest
termination_by structural tokens => tokens

end

@[simp] theorem allNodes_append (xs ys : List Token) :
    allNodes (xs ++ ys) = allNodes xs ++ allNodes ys := by
  induction xs with
  | nil => rfl
  | cons x xs ih => simp [allNodes, ih]

/-- A text in front of a list of tokens. It becomes one with a text that the list begins with. -/
def joinText : List Char → List Token → List Token
  | [], rest => rest
  | s, .text next :: rest => .text (s ++ next) :: rest
  | s, rest => .text s :: rest

theorem joinText_append (s t : List Char) (rest : List Token) :
    joinText (s ++ t) rest = joinText s (joinText t rest) := by
  cases s with
  | nil => rfl
  | cons a s =>
    cases t with
    | nil => rw [List.append_nil, joinText]
    | cons b t =>
      cases rest with
      | nil => rfl
      | cons token rest => cases token <;> simp [joinText]

theorem Lined.isBlank_of_embed {tokens : List Token} {name : String} {indent : List Char}
    (h : Lined tokens) (hmem : .embed name indent ∈ allNodes tokens) :
    ∀ c ∈ indent, Text.isBlank c = true := by
  induction h with
  | nil => simp [allNodes] at hmem
  | line _ _ ih | text _ _ _ _ ih | value _ ih => exact ih (by simpa [allNodes, nodes] using hmem)
  | block _ _ ihbody ih =>
    simp only [allNodes, nodes, List.cons_append, List.mem_cons, reduceCtorEq, false_or,
      List.mem_append] at hmem
    exact hmem.elim ihbody ih
  | embed hindent _ ih =>
    simp only [allNodes, nodes, List.cons_append, List.nil_append, List.mem_cons,
      Token.embed.injEq] at hmem
    rcases hmem with ⟨-, rfl⟩ | hmem
    · exact hindent
    · exact ih hmem

end Token

/-- The instruction is one of some instructions or stands in one of some scopes. -/
def Instruction.Among (i : Instruction) (instructions : List Instruction) (scopes : List Scope) :
    Prop :=
  i ∈ instructions ∨ ∃ s ∈ scopes, i ∈ s.instructions

namespace Token

variable {i : Instruction}

mutual

private theorem exists_node_of_compile (htext : ∀ t, i ≠ .text t) : ∀ (token : Token) (next : Nat),
    i.Among [(compile next token).1] (compile next token).2 →
      ∃ node ∈ nodes token, ∃ index, i = (compile index node).1
  | .block path inverted body raw delimiters region, next, h => by
    rcases h with h | ⟨s, hs, h⟩
    · exact ⟨_, List.mem_cons_self, next, List.mem_singleton.1 h⟩
    · have hbody : ∃ node ∈ allNodes body, ∃ index, i = (compile index node).1 := by
        apply exists_node_of_compileAll htext body (next + 1)
        rcases List.mem_cons.1 hs with rfl | hs
        · exact .inl (Scope.mem_of_ofInstructions htext h)
        · exact .inr ⟨s, hs, h⟩
      obtain ⟨node, hnode, hcompile⟩ := hbody
      exact ⟨node, List.mem_cons_of_mem _ hnode, hcompile⟩
  | .text _, next, h | .lineStart, next, h | .value _ _, next, h | .embed _ _, next, h => by
    rcases h with h | ⟨s, hs, -⟩
    · exact ⟨_, List.mem_cons_self, next, List.mem_singleton.1 h⟩
    · cases hs
termination_by structural token => token

/-- An instruction of a tree comes from one of its tokens, unless it is a text, which may come from
several. -/
theorem exists_node_of_compileAll (htext : ∀ t, i ≠ .text t) : ∀ (tokens : List Token) (next : Nat),
    i.Among (compileAll next tokens).1 (compileAll next tokens).2 →
      ∃ node ∈ allNodes tokens, ∃ index, i = (compile index node).1
  | [], next, h => by simp [compileAll, Instruction.Among] at h
  | token :: rest, next, h => by
    have hsplit : i.Among [(compile next token).1] (compile next token).2 ∨
        i.Among (compileAll (next + (compile next token).2.length) rest).1
          (compileAll (next + (compile next token).2.length) rest).2 := by
      simp only [compileAll, Instruction.Among, List.mem_cons, List.mem_append] at h ⊢
      grind
    rcases hsplit with h | h
    · obtain ⟨node, hnode, hcompile⟩ := exists_node_of_compile htext token next h
      exact ⟨node, List.mem_append_left _ hnode, hcompile⟩
    · obtain ⟨node, hnode, hcompile⟩ := exists_node_of_compileAll htext rest _ h
      exact ⟨node, List.mem_append_right _ hnode, hcompile⟩
termination_by structural tokens => tokens

end

end Token

theorem Template.exists_node_of_mem {label : Option String} {delimiters : Delimiters}
    {tokens : List Token} {i : Instruction} (htext : ∀ t, i ≠ .text t)
    (h : i ∈ (ofTokens label delimiters tokens).instructions) :
    ∃ node ∈ Token.allNodes tokens, ∃ index, i = (Token.compile index node).1 := by
  apply Token.exists_node_of_compileAll htext tokens 1
  obtain ⟨s, hs, hi⟩ := List.mem_flatMap.1 h
  rcases List.mem_cons.1 hs with rfl | hs
  · exact .inl (Scope.mem_of_ofInstructions htext hi)
  · exact .inr ⟨s, hs, hi⟩

end LogicLess
