import LogicLess.Proofs.Tag.Nested
import LogicLess.Proofs.Token.Growth
import LogicLess.Proofs.Token.Nodes

/-!
# Growing a tree by sections

Lexemes whose tags are properly nested add to the innermost list of a tree alone. What they add is told
here section by section, without the stack that the tree is grown with.
-/

namespace LogicLess

namespace Lexeme

def token? (l : Lexeme) : Option Token :=
  match l.tag.sigil with
  | .plain => some (.value (.ofKey l.tag.content) true)
  | .brace | .ampersand => some (.value (.ofKey l.tag.content) false)
  | .angle => some (.embed (String.ofList l.tag.content) l.indent)
  | .pound | .caret | .slash | .equals | .bang => none

end Lexeme

namespace Nesting

def addLines (tokens : List Token) (text : List Char) : List Token :=
  (Text.splitLines text).foldl addLine tokens

theorem addLines_invariant {α : Type} {f : List Token → α}
    (h : ∀ tokens line, f (addLine tokens line) = f tokens) (tokens : List Token)
    (text : List Char) : f (addLines tokens text) = f tokens := by
  unfold addLines
  induction Text.splitLines text generalizing tokens with
  | nil => rfl
  | cons line lines ih => rw [List.foldl_cons, ih, h]

theorem map_addLines {f : Token → Token} (htext : ∀ s, f (.text s) = .text s)
    (hline : f .lineStart = .lineStart) (hother : ∀ token s, f token = .text s → token = .text s)
    (tokens : List Token) (text : List Char) :
    (addLines tokens text).map f = addLines (tokens.map f) text := by
  have hextend : ∀ (tokens : List Token) (line : List Char),
      (extendText tokens line).map f = extendText (tokens.map f) line := by
    intro tokens line
    cases tokens with
    | nil => simp [extendText, htext]
    | cons token rest =>
      rw [List.map_cons, extendText.eq_def, extendText.eq_def]
      split
      · next heq =>
        cases heq
        rw [htext, List.map_cons, htext]
      · next hnot =>
        split
        · next heq =>
          obtain ⟨htoken, rfl⟩ := List.cons.inj heq
          exact absurd (by rw [hother token _ htoken]) (hnot _ rest)
        · rw [List.map_cons, List.map_cons, htext]
  unfold addLines
  induction Text.splitLines text generalizing tokens with
  | nil => rfl
  | cons line lines ih =>
    have hadd : (addLine tokens line).map f = addLine (tokens.map f) line := by
      rw [addLine_eq, addLine_eq, ← hextend]
      split
      · rw [List.map_cons, hline]
      · rfl
    rw [List.foldl_cons, ih, hadd, List.foldl_cons]

/-- The lexemes take a list of tokens, latest first, to another one, with the sections among them
closed. -/
inductive Grows (source : List Char) : List Lexeme → List Token → List Token → Prop
  | nil {tokens} : Grows source [] tokens tokens
  | leaf {l rest tokens out} (hopen : l.tag.sigil.opensSection = false)
    (hclose : l.tag.sigil ≠ .slash)
    (h : Grows source rest (l.token?.toList ++ addLines tokens l.text) out) :
    Grows source (l :: rest) tokens out
  | block {first last : Lexeme} {body rest tokens inner out}
    (hopen : first.tag.sigil.opensSection = true) (hclose : last.tag.sigil = .slash)
    (hkey : last.tag.content = first.tag.content) (hbody : Grows source body [] inner)
    (h : Grows source rest
      (closedSection source ⟨first.tag, first.resume, addLines tokens first.text⟩
        (addLines inner last.text) last.tag :: addLines tokens first.text) out) :
    Grows source (first :: (body ++ last :: rest)) tokens out

variable {source : List Char} {l : Lexeme} {n after : Nesting}

theorem addLexeme_leaf (hopen : l.tag.sigil.opensSection = false) (hclose : l.tag.sigil ≠ .slash) :
    addLexeme source n l =
      .ok ⟨l.token?.toList ++ addLines n.tokens l.text, n.sections⟩ := by
  cases h : l.tag.sigil <;> simp [h, Sigil.opensSection] at hopen hclose <;>
    simp [addLexeme, addTag, h, Lexeme.token?, addToken, addText, addLines]

theorem addLexeme_open (hopen : l.tag.sigil.opensSection = true) :
    addLexeme source n l =
      .ok ⟨[], ⟨l.tag, l.resume, addLines n.tokens l.text⟩ :: n.sections⟩ := by
  cases h : l.tag.sigil <;> simp [h, Sigil.opensSection] at hopen <;>
    simp [addLexeme, addTag, h, openSection, addText, addLines]

theorem addLexeme_close (hclose : l.tag.sigil = .slash) :
    addLexeme source n l = closeSection source (n.addText l.text) l.tag := by
  simp [addLexeme, addTag, hclose]

theorem closeSection_eq_ok {s : OpenSection} {outer : List OpenSection} {tokens : List Token}
    {tag : Tag} (hkey : tag.content = s.tag.content) :
    closeSection source ⟨tokens, s :: outer⟩ tag =
      .ok ⟨closedSection source s tokens tag :: s.before, outer⟩ := by
  simp only [closeSection, if_pos hkey.symm]
  rfl

theorem closeSection_eq_error {s : OpenSection} {outer : List OpenSection} {tokens : List Token}
    {tag : Tag} (hkey : tag.content ≠ s.tag.content) :
    closeSection source ⟨tokens, s :: outer⟩ tag =
      .error (.mismatchedSection tag.region s.tag.content tag.delimiters) := by
  simp only [closeSection, if_neg (Ne.symm hkey)]

namespace Grows

variable {ls more : List Lexeme} {tokens middle out : List Token}

theorem append (h : Grows source ls tokens middle) (h' : Grows source more middle out) :
    Grows source (ls ++ more) tokens out := by
  induction h with
  | nil => exact h'
  | leaf hopen hclose _ ih => exact .leaf hopen hclose (ih h')
  | block hopen hclose hkey hbody _ _ ih =>
    rw [List.cons_append, List.append_assoc, List.cons_append]
    exact .block hopen hclose hkey hbody (ih h')

theorem foldlM_eq (h : Grows source ls tokens out) (sections : List OpenSection) :
    ls.foldlM (addLexeme source) ⟨tokens, sections⟩ = .ok ⟨out, sections⟩ := by
  -- A body grows from nothing on top of the section that its first tag opens.
  induction h generalizing sections with
  | nil => rfl
  | leaf hopen hclose _ ih =>
    rw [List.foldlM_cons, addLexeme_leaf hopen hclose]
    exact ih sections
  | @block first last body rest tokens inner out hopen hclose hkey _ _ ihbody ih =>
    have hlast : addLexeme source
        ⟨inner, ⟨first.tag, first.resume, addLines tokens first.text⟩ :: sections⟩ last = _ :=
      (addLexeme_close hclose).trans (closeSection_eq_ok hkey)
    rw [List.foldlM_cons, addLexeme_open hopen]
    change (body ++ last :: rest).foldlM (addLexeme source) _ = _
    rw [List.foldlM_append, ihbody]
    change (last :: rest).foldlM (addLexeme source) _ = _
    rw [List.foldlM_cons, hlast]
    exact ih sections

theorem nested (h : Grows source ls tokens out) : Tag.Nested (ls.map Lexeme.tag) := by
  induction h with
  | nil => exact .nil
  | leaf hopen hclose _ ih => exact .leaf hopen hclose ih
  | block hopen hclose hkey _ _ ihbody ih =>
    rw [List.map_cons, List.map_append, List.map_cons]
    exact .block hopen hclose hkey ihbody ih

end Grows

theorem exists_grows {tags : List Tag} (h : Tag.Nested tags) :
    ∀ (ls : List Lexeme) (tokens : List Token), ls.map Lexeme.tag = tags →
      ∃ out, Grows source ls tokens out := by
  induction h with
  | nil =>
    intro ls tokens hls
    rw [List.map_eq_nil_iff] at hls
    exact ⟨tokens, hls ▸ .nil⟩
  | leaf hopen hclose _ ih =>
    intro ls tokens hls
    obtain ⟨l, rest, rfl, rfl, hrest⟩ := List.map_eq_cons_iff.1 hls
    obtain ⟨out, hout⟩ := ih rest (l.token?.toList ++ addLines tokens l.text) hrest
    exact ⟨out, .leaf hopen hclose hout⟩
  | block hopen hclose hkey _ _ ihbody ih =>
    intro ls tokens hls
    obtain ⟨first, more, rfl, rfl, hmore⟩ := List.map_eq_cons_iff.1 hls
    obtain ⟨body, more, rfl, hbody, hmore⟩ := List.map_eq_append_iff.1 hmore
    obtain ⟨last, rest, rfl, rfl, hrest⟩ := List.map_eq_cons_iff.1 hmore
    obtain ⟨inner, hinner⟩ := ihbody body [] hbody
    obtain ⟨out, hout⟩ := ih rest (closedSection source
      ⟨first.tag, first.resume, addLines tokens first.text⟩ (addLines inner last.text) last.tag ::
        addLines tokens first.text) hrest
    exact ⟨out, .block hopen hclose hkey hinner hout⟩

/-- A tree in the making after some lexemes: in each list the tokens that were added since the section
around it was opened. -/
inductive Stacked (source : List Char) (start : List Token) : List Lexeme → Nesting → Prop
  | closed {ls out} (h : Grows source ls start out) : Stacked source start ls ⟨out, []⟩
  | opened {front l body n inner} (h : Stacked source start front n)
    (hopen : l.tag.sigil.opensSection = true) (hbody : Grows source body [] inner) :
    Stacked source start (front ++ l :: body)
      ⟨inner, ⟨l.tag, l.resume, addLines n.tokens l.text⟩ :: n.sections⟩

namespace Stacked

variable {start out : List Token} {ls more : List Lexeme}

theorem grow (h : Stacked source start ls n) (h' : Grows source more n.tokens out) :
    Stacked source start (ls ++ more) ⟨out, n.sections⟩ := by
  cases h with
  | closed h => exact .closed (h.append h')
  | opened h hopen hbody =>
    rw [List.append_assoc, List.cons_append]
    exact .opened h hopen (hbody.append h')

theorem addLexeme (h : Stacked source start ls n) (hl : addLexeme source n l = .ok after) :
    Stacked source start (ls ++ [l]) after := by
  cases hopen : l.tag.sigil.opensSection with
  | true =>
    rw [addLexeme_open hopen] at hl
    rw [← Except.ok.inj hl]
    exact .opened h hopen .nil
  | false =>
    by_cases hclose : l.tag.sigil = .slash
    · rw [addLexeme_close hclose] at hl
      cases h with
      | closed h => cases hl
      | @opened front first body n inner h hfirst hbody =>
        by_cases hkey : l.tag.content = first.tag.content
        · rw [addText, closeSection_eq_ok hkey] at hl
          rw [← Except.ok.inj hl, List.append_assoc, List.cons_append]
          exact h.grow (.block hfirst hclose hkey hbody .nil)
        · rw [addText, closeSection_eq_error hkey] at hl
          cases hl
    · rw [addLexeme_leaf hopen hclose] at hl
      rw [← Except.ok.inj hl]
      exact h.grow (.leaf hopen hclose .nil)

theorem of_foldlM (h : Stacked source start ls n)
    (hmore : more.foldlM (Nesting.addLexeme source) n = .ok after) :
    Stacked source start (ls ++ more) after := by
  induction more generalizing ls n with
  | nil =>
    rw [List.append_nil, ← Except.ok.inj hmore]
    exact h
  | cons l more ih =>
    rw [List.foldlM_cons] at hmore
    obtain ⟨middle, hl, hmore⟩ := bind_eq_ok hmore
    rw [List.append_cons]
    exact ih (h.addLexeme hl) hmore

theorem foldlM_eq (h : Stacked source start ls n) :
    ls.foldlM (Nesting.addLexeme source) ⟨start, []⟩ = .ok n := by
  induction h with
  | closed h => exact h.foldlM_eq []
  | opened _ hopen hbody ih =>
    rw [List.foldlM_append, ih]
    change (_ :: _).foldlM (Nesting.addLexeme source) _ = _
    rw [List.foldlM_cons, addLexeme_open hopen]
    exact hbody.foldlM_eq _

theorem pending (h : Stacked source start ls n) :
    Tag.Pending (ls.map Lexeme.tag) (n.sections.map OpenSection.tag) := by
  induction h with
  | closed h => exact .nested h.nested
  | opened _ hopen hbody ih =>
    rw [List.map_append, List.map_cons, List.map_cons]
    exact .opened ih hopen hbody.nested

end Stacked

/-- Lexemes are added without a fault as long as their tags can be completed to a properly nested
word. -/
theorem exists_stacked {tags opened : List Tag} (h : Tag.Pending tags opened) (start : List Token) :
    ∀ ls : List Lexeme, ls.map Lexeme.tag = tags →
      ∃ n, Stacked source start ls n ∧ n.sections.map OpenSection.tag = opened := by
  induction h with
  | nested h =>
    intro ls hls
    obtain ⟨out, hout⟩ := exists_grows h ls start hls
    exact ⟨_, .closed hout, rfl⟩
  | opened _ hopen hbody ih =>
    intro ls hls
    obtain ⟨front, more, rfl, hfront, hmore⟩ := List.map_eq_append_iff.1 hls
    obtain ⟨l, body, rfl, rfl, hrest⟩ := List.map_eq_cons_iff.1 hmore
    obtain ⟨n, hn, hsections⟩ := ih front hfront
    obtain ⟨inner, hinner⟩ := exists_grows hbody body [] hrest
    exact ⟨_, .opened hn hopen hinner, by rw [List.map_cons, hsections]⟩

theorem addLexeme_eq_error_iff {fault : Fault} :
    addLexeme source n l = .error fault ↔ l.tag.sigil = .slash ∧
      ((n.sections = [] ∧ fault = .unopenedSection l.tag.region l.tag.content) ∨
        ∃ s outer, n.sections = s :: outer ∧ l.tag.content ≠ s.tag.content ∧
          fault = .mismatchedSection l.tag.region s.tag.content l.tag.delimiters) := by
  obtain ⟨tokens, sections⟩ := n
  by_cases hclose : l.tag.sigil = .slash
  · rw [addLexeme_close hclose, addText]
    cases sections with
    | nil => simp [closeSection, hclose, eq_comm]
    | cons s outer =>
      by_cases hkey : l.tag.content = s.tag.content
      · rw [closeSection_eq_ok hkey]
        simp [hkey]
      · rw [closeSection_eq_error hkey]
        simpa [hclose, hkey] using eq_comm
  · refine iff_of_false ?_ fun h => hclose h.1
    cases hopen : l.tag.sigil.opensSection with
    | true => simp [addLexeme_open hopen]
    | false => simp [addLexeme_leaf hopen hclose]

theorem exists_of_foldlM_eq_error {ls : List Lexeme} {fault : Fault}
    (h : ls.foldlM (addLexeme source) n = .error fault) : ∃ front l rest middle,
      ls = front ++ l :: rest ∧ front.foldlM (addLexeme source) n = .ok middle ∧
        addLexeme source middle l = .error fault := by
  induction ls generalizing n with
  | nil => cases h
  | cons l ls ih =>
    rw [List.foldlM_cons] at h
    rcases hl : addLexeme source n l with fault' | middle
    · rw [hl] at h
      cases h
      exact ⟨[], l, ls, n, rfl, rfl, hl⟩
    · rw [hl] at h
      obtain ⟨front, l', rest, after, rfl, hfront, hl'⟩ := ih h
      refine ⟨l :: front, l', rest, after, rfl, ?_, hl'⟩
      rw [List.foldlM_cons, hl]
      exact hfront

end Nesting

/-- Lexemes give a tree just if they are read to the end of the source and every section among them is
closed. -/
theorem Token.ofLexemes_eq_ok_iff {source : List Char} {ls : List Lexeme} {ending : Ending}
    {tokens : List Token} : Token.ofLexemes source ls ending = .ok tokens ↔
      ∃ out text d, ending = .complete text d ∧ Nesting.Grows source ls [.lineStart] out ∧
        tokens = (Nesting.addLines out text).reverse := by
  constructor
  · intro h
    obtain ⟨n, text, d, hfold, hending, hsections, rfl⟩ := Nesting.exists_of_ofLexemes h
    have hstacked := (Nesting.Stacked.closed .nil).of_foldlM hfold
    cases hstacked with
    | closed hgrows => exact ⟨_, text, d, hending, hgrows, rfl⟩
    | opened => cases hsections
  · rintro ⟨out, text, d, rfl, hgrows, rfl⟩
    have hfold : ls.foldlM (Nesting.addLexeme source) Nesting.empty = .ok ⟨out, []⟩ :=
      hgrows.foldlM_eq []
    rw [ofLexemes, hfold]
    rfl

end LogicLess
