import LogicLess.Proofs.Token.Nodes
import LogicLess.Proofs.Token.Sections

/-!
# The sections of a tree

Every section of a tree, at any depth, stands for a part of the lexemes that the tree is grown from: an open
tag, the close tag that matches it, and what lies between them.
-/

namespace LogicLess

namespace Token

theorem mem_allNodes_reverse {token : Token} (tokens : List Token) :
    token ∈ allNodes tokens.reverse ↔ token ∈ allNodes tokens := by
  induction tokens with
  | nil => rfl
  | cons head rest ih => simp [allNodes, ih, or_comm]

end Token

namespace Nesting

variable {source raw : List Char} {tokens body : List Token} {path : Path} {inverted : Bool}
  {d : Delimiters} {region : Region}

theorem block_mem_allNodes_addLines (tokens : List Token) (text : List Char) :
    .block path inverted body raw d region ∈ Token.allNodes (addLines tokens text) ↔
      .block path inverted body raw d region ∈ Token.allNodes tokens := by
  refine iff_of_eq (addLines_invariant
    (f := fun tokens => .block path inverted body raw d region ∈ Token.allNodes tokens) ?_ tokens text)
  intro tokens line
  rw [addLine_eq, extendText.eq_def]
  split <;> split <;> simp [Token.allNodes, Token.nodes]

/-- The section is the part of the lexemes from an open tag to the close tag that matches it. -/
inductive IsSection (source : List Char) : List Lexeme → Token → Prop
  | intro (front : List Lexeme) (before : List Token) {first last : Lexeme} {inside rest inner}
    (h : Grows source inside [] inner) (hopen : first.tag.sigil.opensSection = true)
    (hclose : last.tag.sigil = .slash) (hkey : last.tag.content = first.tag.content) :
    IsSection source (front ++ first :: (inside ++ last :: rest))
      (closedSection source ⟨first.tag, first.resume, before⟩ (addLines inner last.text) last.tag)

theorem IsSection.append {ls : List Lexeme} {token : Token} (h : IsSection source ls token)
    (front rest : List Lexeme) : IsSection source (front ++ (ls ++ rest)) token := by
  cases h with
  | @intro front' before first last inside rest' inner h hopen hclose hkey =>
    have hls : front ++ (front' ++ first :: (inside ++ last :: rest') ++ rest) =
        front ++ front' ++ first :: (inside ++ last :: (rest' ++ rest)) := by simp
    rw [hls]
    exact .intro (front ++ front') before h hopen hclose hkey

/-- The sections of a tree that lexemes grow are parts of them. -/
theorem Grows.isSection_of_mem {ls : List Lexeme} {out : List Token}
    (h : Grows source ls tokens out)
    (hmem : .block path inverted body raw d region ∈ Token.allNodes out) :
    .block path inverted body raw d region ∈ Token.allNodes tokens ∨
      IsSection source ls (.block path inverted body raw d region) := by
  induction h with
  | nil => exact .inl hmem
  | @leaf l rest tokens out _ _ _ ih =>
    rcases ih hmem with hmem | hsection
    · rw [Token.allNodes_append, List.mem_append, block_mem_allNodes_addLines] at hmem
      refine .inl (hmem.resolve_left fun hmem => ?_)
      unfold Lexeme.token? at hmem
      split at hmem <;> simp [Token.allNodes, Token.nodes] at hmem
    · exact .inr (by simpa using hsection.append [l] [])
  | @block first last inside rest tokens inner out hopen hclose hkey hinside _ ihinside ih =>
    rcases ih hmem with hmem | hsection
    · rw [Token.allNodes, closedSection, Token.nodes, List.cons_append, List.mem_cons,
        List.mem_append, block_mem_allNodes_addLines, Token.mem_allNodes_reverse,
        block_mem_allNodes_addLines] at hmem
      rcases hmem with heq | hmem | hmem
      · rw [heq]
        exact .inr (.intro [] (addLines tokens first.text) hinside hopen hclose hkey)
      · rcases ihinside hmem with hmem | hsection
        · simp [Token.allNodes] at hmem
        · exact .inr (by simpa using hsection.append [first] (last :: rest))
      · exact .inl hmem
    · exact .inr (by simpa using hsection.append (first :: (inside ++ [last])) [])

end Nesting

end LogicLess
