import LogicLess.Proofs.Program.Tidy
import LogicLess.Text.IdentifierTable

/-!
# Marks of lines

In a tree that is read from a source the mark of the next line stands behind every line feed, and nowhere
else, in the tree itself and in the body of each of its sections. So nothing meets that would have to be
joined when the tree is compiled, and every token becomes one instruction.
-/

namespace LogicLess

namespace Token

/-- Two tokens whose instructions stay apart when they meet in a scope. -/
def Apart : Token → Token → Prop
  | .text _, .text _ | .lineStart, .lineStart => False
  | _, _ => True

/-- The token is a text up to the end of a line. -/
def EndsLine (token : Token) : Prop := ∃ t, token = .text t ∧ t.getLast? = some '\n'

/-- A list of tokens whose texts are cut at line feeds, with the marks that belong there. Only at its
beginning a mark may stand without a line before it. -/
structure Marked (tokens : List Token) : Prop where
  text : ∀ t, .text t ∈ tokens → t ≠ [] ∧ '\n' ∉ t.dropLast
  behind : ∀ front line rest, tokens = front ++ line :: rest → line.EndsLine →
    rest.head? = some .lineStart
  before : ∀ front rest, tokens = front ++ .lineStart :: rest → front ≠ [] →
    ∃ line, front.getLast? = some line ∧ line.EndsLine
  apart : tokens.IsChain Apart

theorem marked_nil : Marked [] where
  text := by simp
  behind := by simp
  before := by simp
  apart := .nil

theorem Marked.cons {token : Token} {rest : List Token} (h : Marked rest)
    (htext : ∀ t, token = .text t → t ≠ [] ∧ '\n' ∉ t.dropLast)
    (hmark : rest.head? = some .lineStart ↔ token.EndsLine)
    (hapart : ∀ next ∈ rest.head?, token.Apart next) : Marked (token :: rest) where
  text t ht := (List.mem_cons.1 ht).elim (fun heq => htext t heq.symm) (h.text t)
  behind front line more heq hline := by
    cases front with
    | nil =>
      obtain ⟨rfl, rfl⟩ := List.cons.inj heq
      exact hmark.2 hline
    | cons x front => exact h.behind front line more (List.cons.inj heq).2 hline
  before front more heq hfront := by
    obtain ⟨x, front, rfl⟩ := List.exists_cons_of_ne_nil hfront
    obtain ⟨rfl, hrest⟩ := List.cons.inj heq
    by_cases hnil : front = []
    · rw [hnil] at hrest ⊢
      exact ⟨token, rfl, hmark.1 (by rw [hrest]; rfl)⟩
    · obtain ⟨line, hlast, hline⟩ := h.before front more hrest hnil
      exact ⟨line, by rw [List.getLast?_cons, hlast]; rfl, hline⟩
  apart := List.isChain_cons.2 ⟨hapart, h.apart⟩

theorem Lined.head?_ne_lineStart {tokens : List Token} (h : Lined tokens) :
    tokens.head? ≠ some .lineStart := by
  cases h <;> simp

theorem Lined.marked_cons_lineStart {tokens : List Token} (h : Lined tokens) (hmarked : Marked tokens) :
    Marked (.lineStart :: tokens) := by
  have hhead := h.head?_ne_lineStart
  refine hmarked.cons (by simp) (iff_of_false hhead (by simp [EndsLine])) fun next hnext => ?_
  cases next with
  | lineStart => exact absurd hnext hhead
  | text | value | block | embed => trivial

private theorem Lined.marked_cons {token : Token} {tokens : List Token} (h : Lined tokens)
    (hmarked : Marked tokens) (htext : ∀ t, token ≠ .text t) (hmark : token ≠ .lineStart) :
    Marked (token :: tokens) := by
  have hends : ¬ token.EndsLine := fun ⟨t, ht, _⟩ => htext t ht
  refine hmarked.cons (fun t ht => absurd ht (htext t)) (iff_of_false h.head?_ne_lineStart hends)
    fun next _ => ?_
  cases token with
  | text t => exact absurd rfl (htext t)
  | lineStart => exact absurd rfl hmark
  | value | block | embed => trivial

theorem Lined.marked {tokens : List Token} (h : Lined tokens) : Marked tokens := by
  induction h with
  | nil => exact marked_nil
  | @line t rest ht h ih =>
    refine (h.marked_cons_lineStart ih).cons ?_ (iff_of_true rfl ⟨_, rfl, by simp⟩) (by simp [Apart])
    rintro s ⟨⟩
    simpa using ht
  | @text t rest hne ht hrest h ih =>
    have hends : ¬ (Token.text t).EndsLine := by
      rintro ⟨s, ⟨⟩, hs⟩
      exact ht (List.mem_of_getLast? hs)
    refine ih.cons ?_ (iff_of_false h.head?_ne_lineStart hends) fun next hnext => ?_
    · rintro s ⟨⟩
      exact ⟨hne, fun hmem => ht (List.dropLast_subset t hmem)⟩
    · cases next with
      | text s => exact absurd hnext (hrest s)
      | lineStart | value | block | embed => trivial
  | value h ih | block _ h _ ih | embed _ h ih => exact h.marked_cons ih (by simp) (by simp)

def body? : Token → Option (List Token)
  | .block _ _ body _ _ _ => some body
  | _ => none

/-- The bodies of all sections among some tokens, in the order in which the sections begin. -/
def bodies (tokens : List Token) : List (List Token) := (allNodes tokens).filterMap body?

theorem Lined.of_mem_bodies {tokens body : List Token} (h : Lined tokens)
    (hbody : body ∈ bodies tokens) : Lined body := by
  induction h with
  | nil => cases hbody
  | line _ _ ih | text _ _ _ _ ih | value _ ih | embed _ _ ih =>
    exact ih (by simpa [bodies, allNodes, nodes, body?] using hbody)
  | block h _ ihbody ih =>
    simp only [bodies, allNodes, nodes, List.cons_append, List.filterMap_cons, body?,
      List.filterMap_append, List.mem_cons, List.mem_append] at hbody
    rcases hbody with rfl | hbody | hbody
    · exact h
    · exact ihbody hbody
    · exact ih hbody

end Token

namespace Scope

variable {s after : Scope} {i : Instruction} {instructions : List Instruction}

theorem Pushes.eq_of_apart (h : s.Pushes i after) (hne : i ≠ .text [])
    (hapart : ∀ last ∈ s.instructions.getLast?, last.Apart i) :
    after = ⟨s.instructions ++ [i]⟩ := by
  cases h with
  | drops => exact absurd rfl hne
  | @joins front previous t _ hs =>
    have hmeet := hapart (.text previous) (by rw [hs]; exact List.getLast?_concat)
    exact hmeet.elim
  | repeats hs =>
    have hmeet := hapart .lineStart (by rw [hs]; exact List.getLast?_concat)
    exact hmeet.elim
  | appends => rfl

theorem tidy_cons : Tidy ⟨i :: instructions⟩ ↔
    i ≠ .text [] ∧ (∀ j ∈ instructions.head?, i.Apart j) ∧ Tidy ⟨instructions⟩ := by
  constructor
  · rintro ⟨hne, hapart⟩
    rw [List.mem_cons, not_or] at hne
    obtain ⟨hhead, hrest⟩ := List.isChain_cons.1 hapart
    exact ⟨Ne.symm hne.1, hhead, hne.2, hrest⟩
  · rintro ⟨hi, hhead, hne, hapart⟩
    exact ⟨List.not_mem_cons_of_ne_of_not_mem (Ne.symm hi) hne, List.isChain_cons.2 ⟨hhead, hapart⟩⟩

theorem Tidy.of_prefix {front : List Instruction} (h : Tidy ⟨instructions⟩)
    (hfront : front <+: instructions) : Tidy ⟨front⟩ :=
  ⟨fun hmem => h.ne_nil (hfront.subset hmem), h.apart.prefix hfront⟩

theorem ofInstructions_of_tidy (h : Tidy ⟨instructions⟩) :
    ofInstructions instructions = ⟨instructions⟩ := by
  induction instructions using List.reverseRecOn with
  | nil => rfl
  | append_singleton front i ih =>
    have hpush := pushes_push ⟨front⟩ i
    rw [ofInstructions, List.foldl_append, ← ofInstructions, ih (h.of_prefix (List.prefix_append _ _))]
    refine hpush.eq_of_apart (fun hi => h.ne_nil (by simp [hi])) fun last hlast => ?_
    exact (List.isChain_append.1 h.apart).2.2 last hlast i rfl

/-- A scope has one instruction for each of the given tokens, and no instruction was dropped or joined
with another one when it was added. -/
structure OneEach (tokens : List Token) (s : Scope) : Prop where
  each : List.Forall₂ (fun token i => ∃ next, i = (Token.compile next token).1) tokens s.instructions
  added : ∀ front i, front ++ [i] <+: s.instructions →
    (ofInstructions front).push i = ⟨(ofInstructions front).instructions ++ [i]⟩

end Scope

namespace Token

theorem forall₂_compileAll (tokens : List Token) (next : Nat) :
    List.Forall₂ (fun token i => ∃ index, i = (compile index token).1) tokens
      (compileAll next tokens).1 := by
  induction tokens generalizing next with
  | nil => exact .nil
  | cons token rest ih => exact .cons ⟨next, rfl⟩ (ih _)

theorem eq_text_of_compile {token : Token} {next : Nat} {t : List Char}
    (h : (token.compile next).1 = .text t) : token = .text t := by
  cases token with
  | text => exact congrArg Token.text (Instruction.text.inj h)
  | block path inverted => cases inverted <;> cases h
  | lineStart | value | embed => cases h

theorem Apart.compile {token token' : Token} (h : token.Apart token') (next next' : Nat) :
    (token.compile next).1.Apart (token'.compile next').1 := by
  cases token <;> cases token' <;>
    first | exact h | (simp only [Token.compile]; (repeat' split) <;> trivial)

/-- Tokens that stay apart are compiled to instructions that do. -/
theorem Marked.tidy_compileAll {tokens : List Token} (h : Marked tokens) (next : Nat) :
    Scope.Tidy ⟨(compileAll next tokens).1⟩ := by
  have hne : .text [] ∉ tokens := fun hmem => (h.text [] hmem).1 rfl
  have hapart := h.apart
  clear h
  induction tokens generalizing next with
  | nil => exact Scope.tidy_empty
  | cons token rest ih =>
    rw [List.mem_cons, not_or] at hne
    obtain ⟨hhead, hrest⟩ := List.isChain_cons.1 hapart
    refine Scope.tidy_cons.2 ⟨?_, fun i hi => ?_, ih _ hne.2 hrest⟩
    · exact fun htext => hne.1 (eq_text_of_compile htext).symm
    · cases rest with
      | nil => cases hi
      | cons token' rest =>
        obtain rfl := Option.some.inj hi
        exact (hhead token' rfl).compile _ _

mutual

private theorem forall₂_scopes_compile : ∀ (token : Token) (next : Nat),
    List.Forall₂ (fun body s => ∃ index, s = Scope.ofInstructions (compileAll index body).1)
      ((nodes token).filterMap body?) (compile next token).2
  | .block _ _ body _ _ _, next => .cons ⟨next + 1, rfl⟩ (forall₂_scopes_compileAll body (next + 1))
  | .text _, _ | .lineStart, _ | .value _ _, _ | .embed _ _, _ => .nil
termination_by structural token => token

private theorem forall₂_scopes_compileAll : ∀ (tokens : List Token) (next : Nat),
    List.Forall₂ (fun body s => ∃ index, s = Scope.ofInstructions (compileAll index body).1)
      (bodies tokens) (compileAll next tokens).2
  | [], _ => .nil
  | token :: rest, next => by
    rw [bodies, allNodes, List.filterMap_append]
    exact List.rel_append (forall₂_scopes_compile token next) (forall₂_scopes_compileAll rest _)
termination_by structural tokens => tokens

end

theorem forall₂_scopes (tokens : List Token) :
    List.Forall₂ (fun list s => ∃ index, s = Scope.ofInstructions (compileAll index list).1)
      (tokens :: bodies tokens) (scopes tokens) :=
  .cons ⟨1, rfl⟩ (forall₂_scopes_compileAll tokens 1)

theorem Marked.oneEach {tokens : List Token} (h : Marked tokens) (next : Nat) :
    Scope.OneEach tokens (Scope.ofInstructions (compileAll next tokens).1) := by
  have htidy := h.tidy_compileAll next
  have hscope := Scope.ofInstructions_of_tidy htidy
  rw [hscope]
  refine ⟨forall₂_compileAll tokens next, fun front i hfront => ?_⟩
  have hbefore := Scope.ofInstructions_of_tidy
    (htidy.of_prefix ((List.prefix_append front [i]).trans hfront))
  have hafter := Scope.ofInstructions_of_tidy (htidy.of_prefix hfront)
  rw [Scope.ofInstructions, List.foldl_append, ← Scope.ofInstructions] at hafter
  rw [hbefore] at hafter ⊢
  exact hafter

/-- In a tree that is read from a source the marks of lines stand behind the line feeds, in the tree and in
the bodies of its sections; the tree itself begins with one more. When such a tree is compiled, nothing is
joined or dropped: its scopes have one instruction for each token of the tree and of the bodies. -/
theorem marked_parse [Alphabet] {d : Delimiters} {source : List Char} {tokens : List Token}
    (h : parse d source = .ok tokens) :
    tokens.head? = some .lineStart ∧ Marked tokens ∧
      (∀ body ∈ bodies tokens, body.head? ≠ some .lineStart ∧ Marked body) ∧
      List.Forall₂ Scope.OneEach (tokens :: bodies tokens) (scopes tokens) := by
  obtain ⟨rest, rfl, hlined⟩ := exists_lined_of_parse h
  have htokens := hlined.marked_cons_lineStart hlined.marked
  have hbodies : ∀ body ∈ bodies (.lineStart :: rest), Lined body := fun body hbody =>
    hlined.of_mem_bodies (by simpa [bodies, allNodes, nodes, body?] using hbody)
  have hmarked : ∀ list ∈ (.lineStart :: rest) :: bodies (.lineStart :: rest), Marked list := by
    intro list hlist
    rcases List.mem_cons.1 hlist with rfl | hlist
    · exact htokens
    · exact (hbodies list hlist).marked
  refine ⟨rfl, htokens, fun body hbody => ⟨(hbodies body hbody).head?_ne_lineStart,
    (hbodies body hbody).marked⟩, ?_⟩
  refine ((List.forall₂_and_left _ _).2 ⟨hmarked, forall₂_scopes _⟩).imp ?_
  rintro list s ⟨hlist, index, rfl⟩
  exact hlist.oneEach index

/-- Sections on lines of their own and within a line. -/
theorem marked_parse_nested :
    let source := "a\n{{#s}}\n x\r\n{{^t}}\n{{/t}}y\n{{/s}}{{!c}}\n\nb".toList
    ∃ tokens, parse .braces source = .ok tokens ∧
      (tokens :: bodies tokens).map List.length = [9, 5, 0] ∧
      tokens.head? = some .lineStart ∧ Marked tokens ∧
      (∀ body ∈ bodies tokens, body.head? ≠ some .lineStart ∧ Marked body) ∧
      List.Forall₂ Scope.OneEach (tokens :: bodies tokens) (scopes tokens) := by
  intro source
  have hsome : (parse .braces source).toOption.map (fun tokens =>
      (tokens :: bodies tokens).map List.length) = some [9, 5, 0] := by decide +kernel
  obtain ⟨tokens, hparse, hlength⟩ := Option.map_eq_some_iff.1 hsome
  have hparse := eq_ok_of_toOption hparse
  exact ⟨tokens, hparse, hlength, marked_parse hparse⟩

end Token

end LogicLess
