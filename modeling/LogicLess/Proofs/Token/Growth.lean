import LogicLess.Proofs.Lexeme.Reading
import LogicLess.Token

/-!
# How a tree grows

The ways in which a lexeme that is accepted changes a tree in the making, and what it takes for a list
of lexemes to give a tree.
-/

namespace LogicLess.Nesting

/-- A list of tokens, latest first, with a line added to the text that it ends in, if any. -/
def extendText : List Token → List Char → List Token
  | .text previous :: rest, line => .text (previous ++ line) :: rest
  | tokens, line => .text line :: tokens

theorem addLine_eq (tokens : List Token) (line : List Char) :
    addLine tokens line =
      if line.getLast? = some '\n' then .lineStart :: extendText tokens line
      else extendText tokens line := by
  unfold addLine
  cases tokens with
  | nil => rfl
  | cons token rest => cases token <;> rfl

private theorem addLine_cons {tokens : List Token} {c : Char} {line : List Char} (hc : c ≠ '\n')
    (hline : line ≠ []) : addLine tokens (c :: line) = addLine (addLine tokens [c]) line := by
  have hfirst : addLine tokens [c] = extendText tokens [c] := by
    rw [addLine_eq, if_neg (by simpa using hc)]
  have hextend : extendText (extendText tokens [c]) line = extendText tokens (c :: line) := by
    cases tokens with
    | nil => rfl
    | cons token rest => cases token <;> simp [extendText]
  have hlast : (c :: line).getLast? = line.getLast? := by
    rw [List.getLast?_cons, List.getLast?_eq_some_getLast hline]
    rfl
  rw [hfirst, addLine_eq, addLine_eq, hextend, hlast]

private theorem foldl_splitLines (text : List Char) (tokens : List Token) :
    (Text.splitLines text).foldl addLine tokens =
      text.foldl (fun tokens c => addLine tokens [c]) tokens := by
  induction text generalizing tokens with
  | nil => rfl
  | cons c text ih =>
    rw [List.foldl_cons, ← ih, Text.splitLines]
    split
    · next hc => rw [hc, List.foldl_cons]
    · next hc =>
      split
      · next hrest => rw [hrest, List.foldl_cons]
      · next line lines hrest =>
        have hmem : line ∈ Text.splitLines text := by simp [hrest]
        have hline := (Text.isLine_of_mem_splitLines hmem).ne_nil
        rw [hrest, List.foldl_cons, List.foldl_cons, addLine_cons hc hline]

theorem addText_append (n : Nesting) (s t : List Char) :
    n.addText (s ++ t) = (n.addText s).addText t := by
  simp only [addText, foldl_splitLines, List.foldl_append]

@[simp] theorem addText_nil (n : Nesting) : n.addText [] = n := rfl

theorem addText_of_isLine {n : Nesting} {text : List Char} (h : Text.IsLine text)
    (hhead : ∀ s, n.tokens.head? ≠ some (.text s)) :
    n.addText text =
      ⟨(if text.getLast? = some '\n' then [.lineStart, .text text] else [.text text]) ++ n.tokens,
        n.sections⟩ := by
  have hextend : extendText n.tokens text = .text text :: n.tokens := by
    unfold extendText
    split
    · next heq => exact absurd (by rw [heq]; rfl) (hhead _)
    · rfl
  rw [addText, Text.splitLines_of_isLine h, List.foldl_cons, List.foldl_nil, addLine_eq, hextend]
  split <;> rfl

/-- The section that a close tag ends, with the tokens of its body latest first. -/
def closedSection (source : List Char) (s : OpenSection) (body : List Token) (tag : Tag) : Token :=
  .block (.ofKey s.tag.content) (s.tag.sigil == .caret) body.reverse
    (Region.literal ⟨s.resume, tag.region.start⟩ source) tag.delimiters
    (s.tag.region.join tag.region)

/-- What the tag of a lexeme makes of a tree. -/
inductive Adds (source : List Char) (n : Nesting) (l : Lexeme) : Nesting → Prop
  | value (escaped : Bool) (h : l.tag.sigil.isValue = true)
    (he : escaped = (l.tag.sigil == .plain)) :
    Adds source n l (n.addToken (.value (.ofKey l.tag.content) escaped))
  | opens (h : l.tag.sigil = .pound ∨ l.tag.sigil = .caret) : Adds source n l (n.openSection l)
  | closes (s : OpenSection) (outer : List OpenSection) (h : l.tag.sigil = .slash)
    (hs : n.sections = s :: outer) (hkey : s.tag.content = l.tag.content) :
    Adds source n l ⟨closedSection source s n.tokens l.tag :: s.before, outer⟩
  | embed (h : l.tag.sigil = .angle) :
    Adds source n l (n.addToken (.embed (String.ofList l.tag.content) l.indent))
  | skips (h : l.tag.sigil = .equals ∨ l.tag.sigil = .bang) : Adds source n l n

theorem adds_of_addTag {source : List Char} {n after : Nesting} {l : Lexeme}
    (h : n.addTag source l = .ok after) : Adds source n l after := by
  unfold addTag at h
  cases hs : l.tag.sigil <;> rw [hs] at h
  case slash =>
    simp only [closeSection] at h
    split at h
    · simp at h
    · next s outer hsections =>
      split at h
      · next hkey =>
        rw [← Except.ok.inj h]
        exact .closes s outer hs hsections hkey
      · simp at h
  case plain | brace | ampersand =>
    rw [← Except.ok.inj h]
    exact .value _ (by rw [hs]; rfl) (by rw [hs]; rfl)
  case pound => rw [← Except.ok.inj h]; exact .opens (.inl hs)
  case caret => rw [← Except.ok.inj h]; exact .opens (.inr hs)
  case angle => rw [← Except.ok.inj h]; exact .embed hs
  case equals => rw [← Except.ok.inj h]; exact .skips (.inl hs)
  case bang => rw [← Except.ok.inj h]; exact .skips (.inr hs)

theorem adds_of_foldlM_cons {source : List Char} {l : Lexeme} {lexemes : List Lexeme}
    {n after : Nesting} (h : (l :: lexemes).foldlM (addLexeme source) n = .ok after) :
    ∃ middle, Adds source (n.addText l.text) l middle ∧
      lexemes.foldlM (addLexeme source) middle = .ok after := by
  rw [List.foldlM_cons] at h
  obtain ⟨middle, hl, hrest⟩ := bind_eq_ok h
  exact ⟨middle, adds_of_addTag hl, hrest⟩

/-- What every accepted lexeme keeps, a list of them keeps. -/
theorem invariant_foldlM {source : List Char} {P : Nesting → Prop} {lexemes : List Lexeme}
    (step : ∀ l ∈ lexemes, ∀ n after, P n → Adds source (n.addText l.text) l after → P after)
    {n after : Nesting} (hn : P n) (h : lexemes.foldlM (addLexeme source) n = .ok after) :
    P after := by
  induction lexemes generalizing n with
  | nil => rwa [← Except.ok.inj h]
  | cons l lexemes ih =>
    obtain ⟨middle, hadds, hrest⟩ := adds_of_foldlM_cons h
    have hmiddle := step l (by simp) n middle hn hadds
    exact ih (fun l hl => step l (by simp [hl])) hmiddle hrest

theorem exists_of_ofLexemes {source : List Char} {lexemes : List Lexeme} {ending : Ending}
    {tokens : List Token} (h : Token.ofLexemes source lexemes ending = .ok tokens) :
    ∃ n tail d, lexemes.foldlM (addLexeme source) empty = .ok n ∧ ending = .complete tail d ∧
      n.sections = [] ∧ tokens = (n.addText tail).tokens.reverse := by
  obtain ⟨n, hn, hend⟩ := bind_eq_ok h
  cases ending with
  | broken fault => simp [throw, throwThe, MonadExceptOf.throw] at hend
  | complete tail d =>
    refine ⟨n, tail, d, hn, rfl, ?_⟩
    simp only [finish, addText] at hend ⊢
    split at hend
    · next hs => exact ⟨hs, (Except.ok.inj hend).symm⟩
    · simp at hend

end LogicLess.Nesting
