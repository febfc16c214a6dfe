import LogicLess.Proofs.Program.Meaning
import LogicLess.Proofs.Program.Tidy

/-!
# The table of scopes

The scopes of a tree are numbered in the order in which its sections begin, and every section has one of
its own. Following the sections from the first scope on leads through all scopes in turn and gives the tree
back.
-/

namespace LogicLess

namespace Scope

def bodies (s : Scope) : List Nat := s.instructions.filterMap Instruction.body?

theorem filterMap_body?_cons (i : Instruction) (rest : List Instruction) :
    (i :: rest).filterMap Instruction.body? =
      [i].filterMap Instruction.body? ++ rest.filterMap Instruction.body? :=
  List.filterMap_append (l := [i])

theorem Pushes.bodies_eq {s after : Scope} {i : Instruction} (h : s.Pushes i after) :
    after.bodies = s.bodies ++ [i].filterMap Instruction.body? := by
  cases h with
  | drops => exact (List.append_nil _).symm
  | joins _ hs =>
    rw [bodies, bodies, hs, List.filterMap_append, List.filterMap_append]
    exact (List.append_nil _).symm
  | repeats => exact (List.append_nil _).symm
  | appends => exact List.filterMap_append

theorem bodies_ofInstructions (instructions : List Instruction) :
    (ofInstructions instructions).bodies = instructions.filterMap Instruction.body? := by
  have h : ∀ s : Scope, (instructions.foldl push s).bodies =
      s.bodies ++ instructions.filterMap Instruction.body? := by
    induction instructions with
    | nil => exact fun s => (List.append_nil _).symm
    | cons i rest ih =>
      intro s
      rw [List.foldl_cons, ih, (pushes_push s i).bodies_eq, List.append_assoc,
        ← filterMap_body?_cons]
  exact h empty

/-- The indices that are met on the way through the scopes from the one with the given index, in the order
of the template, with sections followed at most `bound` deep. -/
def visits (table : List Scope) : Nat → Nat → List Nat
  | 0, _ => []
  | bound + 1, index =>
    match table[index]? with
    | none => []
    | some s => s.bodies.flatMap fun body => body :: visits table bound body

/-- The tokens that the scope with the given index stands for, with sections followed at most `bound` deep.
There are none if a scope is missing or the sections go deeper. -/
def unfold (table : List Scope) : Nat → Nat → Option (List Token)
  | 0, _ => none
  | bound + 1, index => do
    let s ← table[index]?
    s.instructions.mapM fun i =>
      match i.body? with
      | none => some (i.token [])
      | some body => (unfold table bound body).map i.token

end Scope

namespace Token

open Scope (filterMap_body?_cons)

def isBlock : Token → Bool
  | .block .. => true
  | _ => false

def sectionCount (tokens : List Token) : Nat := (allNodes tokens).countP isBlock

theorem sectionCount_cons (token : Token) (rest : List Token) :
    sectionCount (token :: rest) = (nodes token).countP isBlock + sectionCount rest := by
  rw [sectionCount, allNodes, List.countP_append]
  rfl

theorem countP_nodes_block {path : Path} {inverted : Bool} {body : List Token} {raw : List Char}
    {delimiters : Delimiters} {region : Region} :
    (nodes (.block path inverted body raw delimiters region)).countP isBlock = sectionCount body + 1 :=
  List.countP_cons_of_pos rfl

mutual

/-- The token without what its program does not tell of it: where sections stand, and the source and the
delimiters of inverted ones. -/
def tidy : Token → Token
  | .block path inverted body raw delimiters _ =>
    .block path inverted (tidyAll body) (if inverted then [] else raw)
      (if inverted then .braces else delimiters) ⟨0, 0⟩
  | token => token
termination_by structural token => token

/-- The tokens without what their program does not tell of them. Texts that meet are joined, empty ones are
left out, and a line starts once. -/
def tidyAll : List Token → List Token
  | [] => []
  | token :: rest => front (tidy token) (tidyAll rest)
termination_by structural tokens => tokens

end

theorem tidyAll_eq_foldr (tokens : List Token) : tidyAll tokens = (tokens.map tidy).foldr front [] := by
  induction tokens with
  | nil => rfl
  | cons token rest ih => rw [tidyAll, ih, List.map_cons, List.foldr_cons]

theorem compileAll_cons (next : Nat) (token : Token) (rest : List Token) :
    compileAll next (token :: rest) =
      let more := compileAll (next + (compile next token).2.length) rest
      ((compile next token).1 :: more.1, (compile next token).2 ++ more.2) := rfl

mutual

private theorem length_compile : ∀ (token : Token) (next : Nat),
    (compile next token).2.length = (nodes token).countP isBlock
  | .block _ _ body _ _ _, next => by
    rw [countP_nodes_block, ← length_compileAll body (next + 1)]
    rfl
  | .text _, _ | .lineStart, _ | .value _ _, _ | .embed _ _, _ => rfl
termination_by structural token => token

theorem length_compileAll : ∀ (tokens : List Token) (next : Nat),
    (compileAll next tokens).2.length = sectionCount tokens
  | [], _ => rfl
  | token :: rest, next => by
    rw [sectionCount_cons, ← length_compile token next, ← length_compileAll rest]
    exact List.length_append
termination_by structural tokens => tokens

end

mutual

private theorem perm_bodies_compile : ∀ (token : Token) (next : Nat),
    ([(compile next token).1].filterMap Instruction.body? ++
      (compile next token).2.flatMap Scope.bodies).Perm
        (List.range' next ((nodes token).countP isBlock))
  | .block _ inverted body _ _ _, next => by
    have hbody := perm_bodies_compileAll body (next + 1)
    rw [← Scope.bodies_ofInstructions] at hbody
    rw [countP_nodes_block, List.range'_succ]
    cases inverted <;> exact hbody.cons next
  | .text _, _ | .lineStart, _ | .value _ _, _ | .embed _ _, _ => .refl _
termination_by structural token => token

theorem perm_bodies_compileAll : ∀ (tokens : List Token) (next : Nat),
    ((compileAll next tokens).1.filterMap Instruction.body? ++
      (compileAll next tokens).2.flatMap Scope.bodies).Perm (List.range' next (sectionCount tokens))
  | [], _ => .refl _
  | token :: rest, next => by
    have htoken := perm_bodies_compile token next
    have hrest := perm_bodies_compileAll rest (next + (compile next token).2.length)
    have hboth := htoken.append hrest
    have hrange : List.range' next ((nodes token).countP isBlock) ++
        List.range' (next + (compile next token).2.length) (sectionCount rest) =
          List.range' next (sectionCount (token :: rest)) := by
      rw [length_compile, List.range'_append_1, sectionCount_cons]
    rw [hrange, List.append_assoc] at hboth
    rw [compileAll_cons, filterMap_body?_cons, List.flatMap_append, List.append_assoc]
    exact ((List.perm_append_comm_assoc _ _ _).append_left _).trans hboth
termination_by structural tokens => tokens

end

mutual

private theorem tidy_of_mem_compile : ∀ (token : Token) (next : Nat),
    ∀ s ∈ (compile next token).2, s.Tidy
  | .block _ _ body _ _ _, next, s, hs => by
    rcases List.mem_cons.1 hs with rfl | hs
    · exact Scope.tidy_ofInstructions _
    · exact tidy_of_mem_compileAll body (next + 1) s hs
  | .text _, _, _, hs | .lineStart, _, _, hs | .value _ _, _, _, hs | .embed _ _, _, _, hs => by
    cases hs
termination_by structural token => token

private theorem tidy_of_mem_compileAll : ∀ (tokens : List Token) (next : Nat),
    ∀ s ∈ (compileAll next tokens).2, s.Tidy
  | [], _, _, hs => by cases hs
  | token :: rest, next, s, hs => by
    rcases List.mem_append.1 hs with hs | hs
    · exact tidy_of_mem_compile token next s hs
    · exact tidy_of_mem_compileAll rest _ s hs
termination_by structural tokens => tokens

end

theorem tidy_of_mem_scopes {tokens : List Token} {s : Scope} (hs : s ∈ scopes tokens) : s.Tidy := by
  rcases List.mem_cons.1 hs with rfl | hs
  · exact Scope.tidy_ofInstructions _
  · exact tidy_of_mem_compileAll tokens 1 s hs

theorem length_scopes (tokens : List Token) : (scopes tokens).length = sectionCount tokens + 1 :=
  congrArg Nat.succ (length_compileAll tokens 1)

theorem perm_bodies_scopes (tokens : List Token) :
    ((scopes tokens).flatMap Scope.bodies).Perm (List.range' 1 (sectionCount tokens)) := by
  have h := perm_bodies_compileAll tokens 1
  rwa [← Scope.bodies_ofInstructions] at h

variable {table : List Scope} {bound : Nat}

/-- What a section contributes to the way through the scopes, if the scope of its body is passed as told. -/
private theorem flatMap_visits (hbound : ∀ index next body, sectionCount body < bound →
      Compiled table index next body →
      Scope.visits table bound index = List.range' next (sectionCount body))
    (tokens : List Token) (next : Nat) (hcount : sectionCount tokens ≤ bound)
    (hplaced : Placed table next (compileAll next tokens).2) :
    ((compileAll next tokens).1.filterMap Instruction.body?).flatMap
        (fun body => body :: Scope.visits table bound body) =
      List.range' next (sectionCount tokens) := by
  induction tokens generalizing next with
  | nil => rfl
  | cons token rest ih =>
    rw [sectionCount_cons] at hcount
    have hrest := ih _ (by omega) hplaced.right
    have htoken : ([(compile next token).1].filterMap Instruction.body?).flatMap
        (fun body => body :: Scope.visits table bound body) =
          List.range' next ((nodes token).countP isBlock) := by
      cases token with
      | text | lineStart | value | embed => rfl
      | block path inverted body raw delimiters region =>
        rw [countP_nodes_block] at hcount ⊢
        have hbody := hbound next (next + 1) body (by omega) (compiled_of_placed hplaced.left)
        rw [List.range'_succ, ← hbody]
        cases inverted <;> exact List.append_nil _
    rw [compileAll_cons, filterMap_body?_cons, List.flatMap_append, htoken, hrest, length_compile,
      List.range'_append_1, sectionCount_cons]

theorem visits_of_compiled (bound : Nat) : ∀ (index next : Nat) (tokens : List Token),
    sectionCount tokens < bound → Compiled table index next tokens →
      Scope.visits table bound index = List.range' next (sectionCount tokens) := by
  induction bound with
  | zero =>
    intro _ _ _ hcount
    omega
  | succ bound ih =>
    intro index next tokens hcount hcompiled
    rw [Scope.visits, hcompiled.1]
    dsimp only
    rw [Scope.bodies_ofInstructions]
    exact flatMap_visits ih tokens next (by omega) hcompiled.2

private theorem mapM_eq_some {α β : Type} {f : α → Option β} {g : α → β} {l : List α}
    (h : ∀ a ∈ l, f a = some (g a)) : l.mapM f = some (l.map g) := by
  induction l with
  | nil => rfl
  | cons a l ih =>
    have hrest := ih fun b hb => h b (List.mem_cons_of_mem a hb)
    rw [List.mapM_cons, h a List.mem_cons_self, hrest]
    rfl

private def bodyOf (table : List Scope) (bound : Nat) (i : Instruction) : List Token :=
  (i.body?.bind (Scope.unfold table bound)).getD []

private theorem token_of_compileAll (hbound : ∀ index next body, sectionCount body < bound →
      Compiled table index next body → Scope.unfold table bound index = some (tidyAll body))
    (tokens : List Token) (next : Nat) (hcount : sectionCount tokens ≤ bound)
    (hplaced : Placed table next (compileAll next tokens).2) :
    (compileAll next tokens).1.map (fun i => i.token (bodyOf table bound i)) = tokens.map tidy ∧
      ∀ i ∈ (compileAll next tokens).1, ∀ body, i.body? = some body →
        (Scope.unfold table bound body).isSome = true := by
  induction tokens generalizing next with
  | nil => simp [compileAll]
  | cons token rest ih =>
    rw [sectionCount_cons] at hcount
    obtain ⟨hrest, hfound⟩ := ih _ (by omega) hplaced.right
    have htoken : (compile next token).1.token (bodyOf table bound (compile next token).1) = tidy token ∧
        ∀ body, (compile next token).1.body? = some body →
          (Scope.unfold table bound body).isSome = true := by
      cases token with
      | text | lineStart | value | embed => exact ⟨rfl, fun _ h => by cases h⟩
      | block path inverted body raw delimiters region =>
        rw [countP_nodes_block] at hcount
        have hbody := hbound next (next + 1) body (by omega) (compiled_of_placed hplaced.left)
        cases inverted <;>
          simp [compile, bodyOf, Instruction.body?, hbody, Instruction.token, tidy]
    rw [compileAll_cons]
    refine ⟨by rw [List.map_cons, List.map_cons, htoken.1, hrest], fun i hi => ?_⟩
    rcases List.mem_cons.1 hi with rfl | hi
    · exact htoken.2
    · exact hfound i hi

theorem unfold_of_compiled (bound : Nat) : ∀ (index next : Nat) (tokens : List Token),
    sectionCount tokens < bound → Compiled table index next tokens →
      Scope.unfold table bound index = some (tidyAll tokens) := by
  induction bound with
  | zero =>
    intro _ _ _ hcount
    omega
  | succ bound ih =>
    intro index next tokens hcount hcompiled
    obtain ⟨htokens, hfound⟩ := token_of_compileAll ih tokens next (by omega) hcompiled.2
    rw [Scope.unfold, hcompiled.1, tidyAll_eq_foldr, ← htokens, ← Scope.map_token_ofInstructions]
    refine mapM_eq_some fun i hi => ?_
    cases hbody : i.body? with
    | none => simp [bodyOf, hbody]
    | some body =>
      have hmem := Scope.mem_of_ofInstructions (Instruction.ne_text_of_body? hbody) hi
      obtain ⟨inner, hinner⟩ := Option.isSome_iff_exists.1 (hfound i hmem body hbody)
      simp [bodyOf, hbody, hinner]

end Token

end LogicLess
