import LogicLess.Render

/-!
# Compiled templates

What can be told of a template from its having been read from a text. Its instructions are those of its
tokens but for the text, which may be joined, and a section leads on to a scope with a larger index
only. So no scope of a template can run itself by way of its own sections.
-/

namespace LogicLess

theorem eq_ok_of_toOption {ε α : Type} {x : Except ε α} {a : α} (h : x.toOption = some a) :
    x = .ok a := by
  cases x with
  | error e => cases h
  | ok b => exact congrArg Except.ok (Option.some.inj h)

namespace Scope

variable {i j : Instruction}

theorem mem_of_push {s : Scope} (hi : ∀ t, i ≠ .text t) (h : i ∈ (s.push j).instructions) :
    i ∈ s.instructions ∨ i = j := by
  unfold push at h
  split at h
  · exact .inl h
  · rcases List.mem_append.1 h with h | h
    · exact .inl ((List.dropLast_prefix _).subset h)
    · exact absurd (List.mem_singleton.1 h) (hi _)
  · exact .inl h
  · rcases List.mem_append.1 h with h | h
    · exact .inl h
    · exact .inr (List.mem_singleton.1 h)

theorem mem_of_ofInstructions {instructions : List Instruction} (hi : ∀ t, i ≠ .text t)
    (h : i ∈ (ofInstructions instructions).instructions) : i ∈ instructions := by
  have hfold : ∀ s : Scope, i ∈ (instructions.foldl push s).instructions →
      i ∈ s.instructions ∨ i ∈ instructions := by
    clear h
    induction instructions with
    | nil => exact fun s h => .inl h
    | cons j rest ih =>
      intro s h
      rcases ih (s.push j) h with h | h
      · rcases mem_of_push hi h with h | rfl
        · exact .inl h
        · exact .inr List.mem_cons_self
      · exact .inr (List.mem_cons_of_mem j h)
  exact (hfold empty h).resolve_left (by simp [empty])

end Scope

/-- The index of the scope that a section runs. -/
def Instruction.body? : Instruction → Option Nat
  | block _ body _ _ | inverted _ body => some body
  | _ => none

theorem Instruction.ne_text_of_body? {i : Instruction} {body : Nat} (h : i.body? = some body)
    (t : List Char) : i ≠ .text t := by
  rintro rfl
  cases h

namespace Token

private theorem le_body_of_compile {token : Token} {next body : Nat}
    (h : (compile next token).1.body? = some body) : next ≤ body := by
  cases token with
  | block path inverted => cases inverted <;> exact Nat.le_of_eq (Option.some.inj h)
  | text | lineStart | value | embed => cases h

theorem le_body_of_compileAll {tokens : List Token} {next body : Nat} {i : Instruction}
    (hi : i ∈ (compileAll next tokens).1) (hbody : i.body? = some body) : next ≤ body := by
  induction tokens generalizing next with
  | nil => simp [compileAll] at hi
  | cons token rest ih =>
    simp only [compileAll, List.mem_cons] at hi
    rcases hi with rfl | hi
    · exact le_body_of_compile hbody
    · exact Nat.le_trans (Nat.le_add_right _ _) (ih hi)

mutual

private theorem lt_body_of_compile : ∀ (token : Token) (next n body : Nat) (s : Scope)
    (i : Instruction), (compile next token).2[n]? = some s → i ∈ s.instructions →
      i.body? = some body → next + n < body
  | .block _ _ tokens _ _ _, next, 0, body, s, i, hs, hi, hbody => by
    obtain rfl : Scope.ofInstructions (compileAll (next + 1) tokens).1 = s := Option.some.inj hs
    have hmem := Scope.mem_of_ofInstructions (Instruction.ne_text_of_body? hbody) hi
    exact le_body_of_compileAll hmem hbody
  | .block _ _ tokens _ _ _, next, n + 1, body, s, i, hs, hi, hbody => by
    have h := lt_body_of_compileAll tokens (next + 1) n body s i hs hi hbody
    omega
  | .text _, _, _, _, _, _, hs, _, _ | .lineStart, _, _, _, _, _, hs, _, _
  | .value _ _, _, _, _, _, _, hs, _, _ | .embed _ _, _, _, _, _, _, hs, _, _ => by
    simp [compile] at hs
termination_by structural token => token

theorem lt_body_of_compileAll : ∀ (tokens : List Token) (next n body : Nat) (s : Scope)
    (i : Instruction), (compileAll next tokens).2[n]? = some s → i ∈ s.instructions →
      i.body? = some body → next + n < body
  | [], _, _, _, _, _, hs, _, _ => by simp [compileAll] at hs
  | token :: rest, next, n, body, s, i, hs, hi, hbody => by
    simp only [compileAll, List.getElem?_append] at hs
    split at hs
    · exact lt_body_of_compile token next n body s i hs hi hbody
    · have h := lt_body_of_compileAll rest _ _ body s i hs hi hbody
      omega
termination_by structural tokens => tokens

end

theorem lt_body_of_scopes {tokens : List Token} {index body : Nat} {s : Scope} {i : Instruction}
    (hs : (scopes tokens)[index]? = some s) (hi : i ∈ s.instructions) (hbody : i.body? = some body) :
    index < body := by
  cases index with
  | zero =>
    obtain rfl : Scope.ofInstructions (compileAll 1 tokens).1 = s := Option.some.inj hs
    have hmem := Scope.mem_of_ofInstructions (Instruction.ne_text_of_body? hbody) hi
    exact le_body_of_compileAll hmem hbody
  | succ n =>
    have hlt := lt_body_of_compileAll tokens 1 n body s i hs hi hbody
    omega

end Token

namespace Template

def instructions (t : Template) : List Instruction := t.scopes.flatMap Scope.instructions

theorem mem_instructions {t : Template} {index : Nat} {s : Scope} {i : Instruction}
    (hs : t.scopes[index]? = some s) (hi : i ∈ s.instructions) : i ∈ t.instructions :=
  List.mem_flatMap.2 ⟨s, List.mem_of_getElem? hs, hi⟩

theorem exists_of_compile [Alphabet] {delimiters : Delimiters} {source : List Char}
    {name : Option String} {template : Template}
    (h : compile delimiters source name = .ok template) :
    ∃ tokens, Token.parse delimiters source = .ok tokens ∧
      template = ofTokens name delimiters tokens := by
  unfold compile at h
  split at h
  · next tokens hparse => exact ⟨tokens, hparse, (Except.ok.inj h).symm⟩
  · cases h

/-- In a template that was read from a text a section leads on to a later scope. -/
theorem lt_body_of_compile [Alphabet] {delimiters : Delimiters} {source : List Char}
    {name : Option String} {t : Template} (h : compile delimiters source name = .ok t)
    {index body : Nat} {s : Scope} {i : Instruction} (hs : t.scopes[index]? = some s)
    (hi : i ∈ s.instructions) (hbody : i.body? = some body) : index < body := by
  obtain ⟨tokens, -, rfl⟩ := exists_of_compile h
  exact Token.lt_body_of_scopes hs hi hbody

end Template

/-- Every template that is found by its name was read from a text. -/
def Environment.Compiled [Alphabet] (env : Environment) : Prop :=
  ∀ name template, env.partials name = some template →
    ∃ delimiters source label, Template.compile delimiters source label = .ok template

/-- The templates that a run of `template` may go through: the template itself and those that are found
by a name. -/
def Environment.Reaches (env : Environment) (template t : Template) : Prop :=
  t = template ∨ ∃ name, env.partials name = some t

namespace Environment

variable [Alphabet]

/-- Templates that are read from their texts, all with the same delimiters. -/
def ofSources (delimiters : Delimiters) (sources : List (String × String)) (lambdas : Lambdas) :
    Environment :=
  ⟨fun name => (sources.lookup name).bind fun source =>
    (Template.compile delimiters source.toList none).toOption, lambdas⟩

variable {delimiters : Delimiters} {sources : List (String × String)} {lambdas : Lambdas}
  {template t : Template} {name : String}

theorem exists_source_of_reaches
    (htemplate : (ofSources delimiters sources lambdas).partials name = some template)
    (h : (ofSources delimiters sources lambdas).Reaches template t) :
    ∃ entry ∈ sources, Template.compile delimiters entry.2.toList none = .ok t := by
  have hfound : ∃ name, (ofSources delimiters sources lambdas).partials name = some t := by
    rcases h with rfl | hfound
    · exact ⟨name, htemplate⟩
    · exact hfound
  obtain ⟨name, hfound⟩ := hfound
  obtain ⟨source, hsource, hcompile⟩ := Option.bind_eq_some_iff.1 hfound
  obtain ⟨before, after, rfl, -⟩ := List.lookup_eq_some_iff.1 hsource
  exact ⟨(name, source), by simp, eq_ok_of_toOption hcompile⟩

theorem forall_reaches_ofSources {p : Template → Bool}
    (hcheck : sources.all (fun entry =>
      (Template.compile delimiters entry.2.toList none).toOption.all p) = true)
    (htemplate : (ofSources delimiters sources lambdas).partials name = some template)
    (h : (ofSources delimiters sources lambdas).Reaches template t) : p t = true := by
  obtain ⟨entry, hentry, hcompile⟩ := exists_source_of_reaches htemplate h
  have hentry := List.all_eq_true.1 hcheck entry hentry
  rwa [hcompile] at hentry

end Environment

end LogicLess
