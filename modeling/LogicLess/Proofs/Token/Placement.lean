import LogicLess.Program
import LogicLess.Proofs.Token.Sections

/-!
# Templates behind other text

Lines in front of a template move the regions in it and nothing else. The tree of the template is the
same apart from them, and it runs the same way.
-/

namespace LogicLess

theorem Text.splitAtByte?_append_add (front : List Char) (n : Nat) (s : List Char) :
    splitAtByte? (byteSize front + n) (front ++ s) =
      (splitAtByte? n s).map fun (before, after) => (front ++ before, after) := by
  induction front with
  | nil => simp [byteSize]
  | cons c front ih =>
    have hc := c.utf8Size_pos
    obtain ⟨m, hm⟩ : ∃ m, byteSize (c :: front) + n = m + 1 :=
      ⟨byteSize (c :: front) + n - 1, by simp only [byteSize]; omega⟩
    have hle : c.utf8Size ≤ m + 1 := by simp only [byteSize] at hm; omega
    have hrest : m + 1 - c.utf8Size = byteSize front + n := by simp only [byteSize] at hm; omega
    rw [hm, List.cons_append, splitAtByte?, if_pos hle, hrest, ih, Option.map_map]
    rfl

theorem Region.literal_shift (front source : List Char) (r : Region) :
    (r.shift (Text.byteSize front)).literal (front ++ source) = r.literal source := by
  simp only [literal, slice?, shift, Text.splitAtByte?_append_add, Nat.add_le_add_iff_left,
    Nat.add_sub_add_left]
  cases Text.splitAtByte? r.start source <;> rfl

def Lexeme.shift (n : Nat) (l : Lexeme) : Lexeme :=
  { l with tag := l.tag.shift n, resume := n + l.resume }

theorem Ending.shift_shift (m n : Nat) (e : Ending) : (e.shift m).shift n = e.shift (n + m) := by
  cases e with
  | complete text d => rfl
  | broken fault => cases fault <;> simp only [shift, Fault.shift, Region.shift, Nat.add_assoc]

theorem Lexeme.shift_shift (m n : Nat) (l : Lexeme) : (l.shift m).shift n = l.shift (n + m) := by
  simp only [shift, Tag.shift, Region.shift, Nat.add_assoc]

namespace Cursor

/-- From the cursor on, lines begin at the same places with the text `front` in front of the source. -/
def KeepsLines (front : List Char) (c : Cursor) : Prop :=
  front.getLast? = some '\n' ∨ c.seen ≠ []

variable {front : List Char} {c : Cursor}

theorem KeepsLines.passes {next : Cursor} {s : List Char} (h : c.KeepsLines front)
    (hpasses : Passes c s next) : next.KeepsLines front := by
  refine h.imp_right fun hseen hnext => hseen ?_
  rw [hpasses.seen_eq] at hnext
  exact (List.append_eq_nil_iff.1 hnext).2

theorem KeepsLines.advance (h : c.KeepsLines front) (n : Nat) : (c.advance n).KeepsLines front :=
  h.imp_right fun hseen hnext => hseen (List.append_eq_nil_iff.1 hnext).2

theorem atLineStart_behind (h : c.KeepsLines front) :
    (c.behind front).atLineStart = c.atLineStart := by
  simp only [atLineStart, behind]
  cases hseen : c.seen with
  | cons p seen => rfl
  | nil =>
    obtain ⟨line, rfl⟩ := List.getLast?_eq_some_iff.1 (h.resolve_right fun hne => hne hseen)
    simp

theorem lineEnd?_behind : (c.behind front).lineEnd? = c.lineEnd?.map (behind front) := by
  simp only [lineEnd?, skipWhile_behind, rest_behind, advance_behind]
  split <;> rfl

theorem afterLine?_behind {line : Cursor} (h : line.KeepsLines front) (close : Cursor)
    (sigil : Sigil) : (line.behind front).afterLine? (close.behind front) sigil =
      (line.afterLine? close sigil).map (behind front) := by
  rw [afterLine?, afterLine?, atLineStart_behind h, lineEnd?_behind]
  split <;> rfl

end Cursor

namespace Lexeme

variable [Alphabet] {front : List Char}

theorem read?_behind {c : Cursor} (h : c.KeepsLines front) :
    read? (c.behind front) =
      ((read? c).map (Option.map fun (l, next) =>
        (l.shift (Text.byteSize front), next.behind front))).mapError
          (Fault.shift (Text.byteSize front)) := by
  simp only [read?, Cursor.delimiters_behind, Cursor.rest_behind, Cursor.advance_behind,
    Tag.read_behind]
  split
  · rfl
  · next before _ _ =>
    rcases Tag.read _ with fault | ⟨tag, close⟩
    · rfl
    · have hsigil : (tag.shift (Text.byteSize front)).sigil = tag.sigil := rfl
      simp only [Except.map, Except.mapError, hsigil, Cursor.afterLine?_behind (h.advance _)]
      cases Cursor.afterLine? _ close tag.sigil with
      | none =>
        simp only [Option.map_none, Option.getD_none, Cursor.afterTag_behind]
        cases close.afterTag tag <;> rfl
      | some place =>
        simp only [Option.map_some, Option.getD_some, Cursor.afterTag_behind]
        cases place.afterTag tag <;> rfl

theorem readAll_behind (c : Cursor) (hc : c.Settled) (hlines : c.KeepsLines front) :
    readAll (c.behind front) = ((readAll c).1.map (shift (Text.byteSize front)),
      (readAll c).2.shift (Text.byteSize front)) := by
  induction c using readAll.induct with
  | case1 c fault h =>
    rw [readAll_of_error h, readAll_of_error (by rw [read?_behind hlines, h]; rfl)]
    rfl
  | case2 c h =>
    rw [readAll_of_none h, readAll_of_none (by rw [read?_behind hlines, h]; rfl)]
    rfl
  | case3 c l next h _ _ _ ih =>
    obtain ⟨_, _, _, _, hspans⟩ := exists_spans_of_read? hc h
    rw [readAll_of_some h, readAll_of_some (by rw [read?_behind hlines, h]; rfl),
      ih hspans.settled (hlines.passes hspans.passes)]
    rfl

end Lexeme

namespace Token

mutual

/-- The token with the regions of its sections `n` bytes further on. -/
def shift (n : Nat) : Token → Token
  | .block path inverted body raw delimiters region =>
    .block path inverted (shiftAll n body) raw delimiters (region.shift n)
  | token => token
termination_by structural token => token

def shiftAll (n : Nat) : List Token → List Token
  | [] => []
  | token :: rest => shift n token :: shiftAll n rest
termination_by structural tokens => tokens

end

theorem shiftAll_eq_map (n : Nat) (tokens : List Token) : shiftAll n tokens = tokens.map (shift n) := by
  induction tokens with
  | nil => rfl
  | cons token rest ih => rw [shiftAll, ih, List.map_cons]

mutual

private theorem compile_shift (n : Nat) : ∀ (token : Token) (next : Nat),
    compile next (shift n token) = compile next token
  | .block _ _ body _ _ _, next => by
    simp only [shift, compile, compileAll_shiftAll n body]
  | .text _, _ | .lineStart, _ | .value _ _, _ | .embed _ _, _ => rfl
termination_by structural token => token

private theorem compileAll_shiftAll (n : Nat) : ∀ (tokens : List Token) (next : Nat),
    compileAll next (shiftAll n tokens) = compileAll next tokens
  | [], _ => rfl
  | token :: rest, next => by
    simp only [shiftAll, compileAll, compile_shift n token, compileAll_shiftAll n rest]
termination_by structural tokens => tokens

end

theorem scopes_shiftAll (n : Nat) (tokens : List Token) : scopes (shiftAll n tokens) = scopes tokens := by
  simp only [scopes, compileAll_shiftAll]

end Token

def OpenSection.shift (n : Nat) (s : OpenSection) : OpenSection :=
  ⟨s.tag.shift n, n + s.resume, Token.shiftAll n s.before⟩

namespace Nesting

def shift (k : Nat) (n : Nesting) : Nesting :=
  ⟨Token.shiftAll k n.tokens, n.sections.map (OpenSection.shift k)⟩

theorem addText_shift (k : Nat) (n : Nesting) (text : List Char) :
    (n.shift k).addText text = (n.addText text).shift k := by
  have hlines := map_addLines (f := Token.shift k) (fun _ => rfl) rfl (fun token s h => by
    cases token <;> first | exact h | cases h) n.tokens text
  rw [← Token.shiftAll_eq_map, ← Token.shiftAll_eq_map] at hlines
  exact congrArg (Nesting.mk · _) hlines.symm

variable {front source : List Char}

theorem closedSection_shift (s : OpenSection) (body : List Token) (tag : Tag) :
    closedSection (front ++ source) (s.shift (Text.byteSize front))
        (Token.shiftAll (Text.byteSize front) body) (tag.shift (Text.byteSize front)) =
      (closedSection source s body tag).shift (Text.byteSize front) := by
  have hraw : (Region.mk (Text.byteSize front + s.resume)
      (tag.shift (Text.byteSize front)).region.start).literal (front ++ source) = _ :=
    Region.literal_shift front source ⟨s.resume, tag.region.start⟩
  have hregion : (s.shift (Text.byteSize front)).tag.region.join
      (tag.shift (Text.byteSize front)).region = _ := Region.join_shift _ s.tag.region tag.region
  simp only [closedSection, Token.shift, Token.shiftAll_eq_map, List.map_reverse, hregion]
  exact congrArg (Token.block _ _ _ · _ _) hraw

theorem closeSection_shift (n : Nesting) (tag : Tag) :
    closeSection (front ++ source) (n.shift (Text.byteSize front)) (tag.shift (Text.byteSize front)) =
      ((closeSection source n tag).map (shift (Text.byteSize front))).mapError
        (Fault.shift (Text.byteSize front)) := by
  obtain ⟨tokens, sections⟩ := n
  cases sections with
  | nil => rfl
  | cons s outer =>
    rw [shift, List.map_cons]
    by_cases hkey : tag.content = s.tag.content
    · have hshift : (tag.shift (Text.byteSize front)).content =
          (s.shift (Text.byteSize front)).tag.content := hkey
      rw [closeSection_eq_ok hkey, closeSection_eq_ok hshift, closedSection_shift]
      rfl
    · have hshift : (tag.shift (Text.byteSize front)).content ≠
          (s.shift (Text.byteSize front)).tag.content := hkey
      rw [closeSection_eq_error hkey, closeSection_eq_error hshift]
      rfl

theorem addLexeme_shift (n : Nesting) (l : Lexeme) :
    addLexeme (front ++ source) (n.shift (Text.byteSize front)) (l.shift (Text.byteSize front)) =
      ((addLexeme source n l).map (shift (Text.byteSize front))).mapError
        (Fault.shift (Text.byteSize front)) := by
  have htext : (l.shift (Text.byteSize front)).text = l.text := rfl
  have hsigil : (l.shift (Text.byteSize front)).tag.sigil = l.tag.sigil := rfl
  rw [addLexeme, addLexeme, htext, addText_shift, addTag, addTag, hsigil]
  cases l.tag.sigil with
  | slash => exact closeSection_shift _ _
  | _ => rfl

theorem foldlM_addLexeme_shift (ls : List Lexeme) (n : Nesting) :
    (ls.map (Lexeme.shift (Text.byteSize front))).foldlM (addLexeme (front ++ source))
        (n.shift (Text.byteSize front)) =
      ((ls.foldlM (addLexeme source) n).map (shift (Text.byteSize front))).mapError
        (Fault.shift (Text.byteSize front)) := by
  induction ls generalizing n with
  | nil => rfl
  | cons l ls ih =>
    rw [List.map_cons, List.foldlM_cons, List.foldlM_cons, addLexeme_shift]
    rcases addLexeme source n l with fault | middle
    · rfl
    · exact ih middle

theorem finish_shift (k : Nat) (n : Nesting) (d : Delimiters) :
    (n.shift k).finish d =
      ((n.finish d).map (Token.shiftAll k)).mapError (Fault.shift k) := by
  obtain ⟨tokens, sections⟩ := n
  cases sections with
  | nil => simp [finish, shift, Token.shiftAll_eq_map, Except.map, Except.mapError]
  | cons s outer => rfl

end Nesting

namespace Token

variable {front source : List Char}

theorem ofLexemes_shift (ls : List Lexeme) (ending : Ending) :
    ofLexemes (front ++ source) (ls.map (Lexeme.shift (Text.byteSize front)))
        (ending.shift (Text.byteSize front)) =
      ((ofLexemes source ls ending).map (shiftAll (Text.byteSize front))).mapError
        (Fault.shift (Text.byteSize front)) := by
  have hfold : (ls.map (Lexeme.shift (Text.byteSize front))).foldlM
      (Nesting.addLexeme (front ++ source)) Nesting.empty = _ :=
    Nesting.foldlM_addLexeme_shift ls Nesting.empty
  rw [ofLexemes, ofLexemes, hfold]
  rcases ls.foldlM (Nesting.addLexeme source) Nesting.empty with fault | n
  · rfl
  · cases ending with
    | broken fault => rfl
    | complete text d =>
      change ((n.shift (Text.byteSize front)).addText text).finish d = _
      rw [Nesting.addText_shift, Nesting.finish_shift]
      rfl

/-- A template is read behind other lines as it is read by itself, but for the regions in it. -/
theorem ofLexemes_readAll_behind [Alphabet] (hfront : front.getLast? = some '\n') (d : Delimiters) :
    let r := Lexeme.readAll ((Cursor.start d source).behind front)
    ofLexemes (front ++ source) r.1 r.2 =
      ((parse d source).map (shiftAll (Text.byteSize front))).mapError
        (Fault.shift (Text.byteSize front)) := by
  rw [Lexeme.readAll_behind _ (Cursor.settled_start d source) (.inl hfront)]
  exact ofLexemes_shift _ _

end Token

end LogicLess
