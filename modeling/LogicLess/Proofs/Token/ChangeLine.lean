import LogicLess.Proofs.Token.Placement
import LogicLess.Text.IdentifierTable

/-!
# A template that begins with a change of delimiters

A template whose first line only changes the delimiters is the template of the other lines, read with
the new delimiters from the start.
-/

namespace LogicLess

namespace Text

variable {p : Char → Bool} {s : List Char}

theorem splitOn_of_forall (h : ∀ x ∈ s, p x = false) : splitOn p s = [s] := by
  induction s with
  | nil => rfl
  | cons x s ih =>
    have hx := h x List.mem_cons_self
    rw [splitOn, ih fun y hy => h y (List.mem_cons_of_mem x hy)]
    simp [hx]

theorem splitOn_append_cons (h : ∀ x ∈ s, p x = false) {c : Char} (hc : p c = true)
    (rest : List Char) : splitOn p (s ++ c :: rest) = s :: splitOn p rest := by
  induction s with
  | nil => simp [splitOn, hc]
  | cons x s ih =>
    have hx := h x List.mem_cons_self
    rw [List.cons_append, splitOn, ih fun y hy => h y (List.mem_cons_of_mem x hy)]
    simp [hx]

theorem not_infix_append_cons {needle s t : List Char} {c : Char} (hs : ¬ needle <:+: s)
    (ht : ¬ needle <:+: t) (hc : c ∉ needle) : ¬ needle <:+: s ++ c :: t := by
  induction s with
  | nil =>
    rw [List.nil_append, List.infix_cons_iff, not_or]
    refine ⟨fun h => ?_, ht⟩
    have hprefix : needle <+: [] := prefix_of_prefix_append_cons hc h
    exact hs hprefix.isInfix
  | cons x s ih =>
    rw [List.infix_cons_iff, not_or] at hs
    rw [List.cons_append, List.infix_cons_iff, not_or]
    exact ⟨fun h => hs.1 (prefix_of_prefix_append_cons hc h), ih hs.2⟩

end Text

namespace Delimiters

/-- The content of a tag that puts the delimiters in force. -/
def named (d : Delimiters) : List Char := d.opening ++ ' ' :: d.closing

theorem ofContent_named (d : Delimiters) : ofContent d.named = .ok d := by
  have hwords : Text.words Text.isWhitespace d.named = [d.opening, d.closing] := by
    rw [Text.words, named, Text.splitOn_append_cons (fun x => not_isWhitespace_of_mem d.opening_ok)
      (by decide), Text.splitOn_of_forall fun x => not_isWhitespace_of_mem d.closing_ok]
    simp [d.opening_ne_nil, d.closing_ne_nil]
  simp only [ofContent, hwords, ofPair, d.opening_ok, d.closing_ok, dite_true]

theorem not_isBlank_named (d : Delimiters) (rest : List Char) (x : Char)
    (hx : (d.named ++ rest).head? = some x) : Text.isBlank x = false := by
  obtain ⟨y, s, hs⟩ := List.exists_cons_of_ne_nil d.opening_ne_nil
  rw [named, hs] at hx
  rw [← Option.some.inj hx]
  exact (not_isBlank_of_mem d.opening_ok (hs ▸ List.mem_cons_self)).1

/-- A text without the closing delimiter is no end of a tag, if a character follows that is not part of
the delimiter. -/
theorem untilClose_append_cons {d : Delimiters} {s : List Char} {c : Char}
    (hs : ¬ d.closing <:+: s) (hc : c ∉ d.closing) (rest : List Char) :
    d.untilClose (s ++ c :: rest) = s ++ d.untilClose (c :: rest) := by
  induction s with
  | nil => rfl
  | cons x s ih =>
    rw [List.infix_cons_iff, not_or] at hs
    have hnot : ∀ t : List Char, ¬ d.closing <+: t →
        ¬ d.closing.isPrefixOf (t ++ c :: rest) = true := by
      intro t ht hp
      rw [List.isPrefixOf_iff_prefix] at hp
      exact ht (Text.prefix_of_prefix_append_cons hc hp)
    have hmarker := hnot s fun hp => hs.2 hp.isInfix
    have hclosing : ¬ d.closing.isPrefixOf (x :: (s ++ c :: rest)) = true := hnot (x :: s) hs.1
    have hnone : d.closeLength? (x :: (s ++ c :: rest)) = none := by
      rw [closeLength?, if_neg fun h => hmarker (Bool.and_eq_true_iff.1 h).2,
        if_neg hclosing]
    rw [List.cons_append, untilClose, hnone, ih hs.2]
    rfl

theorem closeLength?_equals (d : Delimiters) (after : List Char) :
    d.closeLength? ('=' :: d.closing ++ after) = some (d.closing.length + 1) := by
  rw [List.cons_append, closeLength?, if_pos]
  simp [isMarker]

theorem untilClose_named {d d' : Delimiters} (hopening : ¬ d.closing <:+: d'.opening)
    (hclosing : ¬ d.closing <:+: d'.closing) (after : List Char) :
    d.untilClose (d'.named ++ ('=' :: d.closing ++ after)) = d'.named := by
  -- An earlier end would lie in one of the new delimiters, since neither the space nor the equals sign
  -- is part of the closing delimiter.
  have hequals : '=' ∉ d.closing := fun h => ne_equals_of_mem d.closing_ok h rfl
  have hspace : ' ' ∉ d.closing := fun h =>
    absurd (not_isBlank_of_mem d.closing_ok h).1 (by decide)
  have hstop : d.untilClose ('=' :: (d.closing ++ after)) = [] := by
    rw [untilClose, ← List.cons_append, closeLength?_equals]
    rfl
  have hnot : ¬ d.closing <:+: d'.named := Text.not_infix_append_cons hopening hclosing hspace
  rw [List.cons_append, untilClose_append_cons hnot hequals, hstop, List.append_nil]

def changeTag (d d' : Delimiters) : List Char := d.opening ++ '=' :: d'.named ++ '=' :: d.closing

def changeLine (d d' : Delimiters) : List Char := d.changeTag d' ++ ['\n']

end Delimiters

theorem Tag.read_changeTag [Alphabet] {c : Cursor} {d' : Delimiters} {after : List Char}
    (hopening : ¬ c.delimiters.closing <:+: d'.opening)
    (hclosing : ¬ c.delimiters.closing <:+: d'.closing)
    (hrest : c.rest = c.delimiters.changeTag d' ++ after) :
    ∃ tag, read c = .ok (tag, c.advance (c.delimiters.changeTag d').length) ∧
      tag.sigil = .equals ∧ tag.content = d'.named := by
  have hopened : c.rest = c.delimiters.opening ++
      (Sigil.equals.mark ++ (d'.named ++ ('=' :: c.delimiters.closing ++ after))) := by
    rw [hrest, Delimiters.changeTag]
    simp [Sigil.mark]
  have hmark := Cursor.rest_advance hopened
  have hcontent := Cursor.rest_advance hmark
  have hended := Cursor.rest_advance hcontent
  have hsigil := Cursor.takeSigil_mark hmark nofun
  have hclose := c.delimiters.closeLength?_equals after
  have hbegun := d'.not_isBlank_named ('=' :: c.delimiters.closing ++ after)
  have hstay : ∀ x, ('=' :: c.delimiters.closing ++ after).head? = some x →
      Text.isBlank x = false := by
    intro x hx
    rw [← Option.some.inj hx]
    rfl
  rw [← hcontent] at hbegun
  rw [← hended] at hstay
  replace hbegun := Cursor.skipWhile_eq_self hbegun
  replace hstay := Cursor.skipWhile_eq_self hstay
  have hcontentAt : contentAt .equals ((c.advance c.delimiters.opening.length).advance
      Sigil.equals.mark.length) = d'.named := by
    have hfree : Sigil.equals.isFreeText = true := rfl
    rw [contentAt, if_pos hfree, hcontent]
    exact Delimiters.untilClose_named hopening hclosing after
  have hlength : c.delimiters.opening.length + Sigil.equals.mark.length + d'.named.length +
      (c.delimiters.closing.length + 1) = (c.delimiters.changeTag d').length := by
    simp only [Delimiters.changeTag, Sigil.mark, List.length_append, List.length_cons,
      List.length_nil]
    omega
  refine ⟨⟨.equals, d'.named, ⟨c.offset, (c.advance (c.delimiters.changeTag d').length).offset⟩,
    c.delimiters⟩, ?_, rfl, rfl⟩
  simp only [Cursor.advance_advance] at hsigil hbegun hcontentAt hstay hended
  simp only [read, hsigil, hbegun, hcontentAt, Cursor.advance_advance, hstay, hended, hclose, hlength,
    Sigil.isFreeText, Bool.not_true, Bool.and_false, Bool.false_eq_true, if_false]

namespace Lexeme

private theorem exists_read?_changeLine [Alphabet] {c : Cursor} {d' : Delimiters} {rest : List Char}
    (hopening : ¬ c.delimiters.closing <:+: d'.opening)
    (hclosing : ¬ c.delimiters.closing <:+: d'.closing) (hseen : c.seen = [])
    (hrest : c.rest = c.delimiters.changeLine d' ++ rest) :
    ∃ l, read? c = .ok (some (l, (Cursor.start d' rest).behind (c.delimiters.changeLine d'))) ∧
      l.text = [] ∧ l.tag.sigil = .equals := by
  rw [Delimiters.changeLine, List.append_assoc] at hrest
  obtain ⟨inner, hinner⟩ : ∃ inner, c.rest = [] ++ c.delimiters.opening ++ inner :=
    ⟨_, by rw [hrest, Delimiters.changeTag, List.nil_append, List.append_assoc, List.append_assoc]⟩
  have hfirst : Text.OnlyAtEnd c.delimiters.opening [] := fun n hn => absurd hn (by simp)
  have hcut := Text.cutAt?_append c.delimiters.opening_ne_nil hfirst inner
  rw [← hinner] at hcut
  obtain ⟨tag, hread, hsigil, hcontent⟩ := Tag.read_changeTag hopening hclosing hrest
  have hclose := Cursor.rest_advance hrest
  have hpasses := (Cursor.passes_advance hrest).trans (Cursor.passes_advance hclose)
  have hend := Cursor.rest_advance hclose
  generalize c.advance (c.delimiters.changeTag d').length = close at hread hclose hpasses hend
  have htail : Text.blankLineEnd? close.rest = some ['\n'] := by
    rw [hclose]
    rfl
  have halone : (tag.sigil.mayStandAlone && Text.isAlone (c.seen.reverse ++ []) close.rest) = true := by
    rw [hsigil, hseen, hclose]
    rfl
  have hline := ofTag_of_alone halone (show Text.splitTrailing Text.isBlank [] = ([], []) from rfl)
    htail
  have hafter : (close.advance ['\n'].length).afterTag tag =
      .ok ((Cursor.start d' rest).behind (c.delimiters.changeLine d')) := by
    have hchange := d'.ofContent_named
    rw [← hcontent] at hchange
    have hplace : (close.advance ['\n'].length).afterTag tag =
        .ok { close.advance ['\n'].length with delimiters := d' } := by
      rw [Cursor.afterTag, if_pos hsigil, hchange]
    have hnext := (hpasses.trans (Cursor.passes_of_afterTag hplace)).eq_behind hseen
    rw [List.append_nil] at hnext
    rw [hplace, hnext, ← hend]
    rfl
  have hsettled : c.Settled := .inr (by simp [hseen])
  refine ⟨(ofTag c [] tag close).1, ?_, ?_, ?_⟩
  · rw [read?_eq hsettled hcut, List.length_nil, Cursor.advance_zero]
    simp only [hread, bind, Except.bind, hline, hafter, pure, Except.pure]
  · rw [hline]
  · rw [hline]
    exact hsigil

end Lexeme

namespace Token

/-- A template whose first line changes the delimiters is the template of the other lines under the new
delimiters, as far as these can be named under the old ones. -/
theorem parse_changeLine [Alphabet] {d d' : Delimiters} (hopening : ¬ d.closing <:+: d'.opening)
    (hclosing : ¬ d.closing <:+: d'.closing) (rest : List Char) :
    let line := d.changeLine d'
    let n := Text.byteSize line
    parse d (line ++ rest) = ((parse d' rest).map (shiftAll n)).mapError (Fault.shift n) ∧
      (parse d (line ++ rest)).toOption.map scopes = (parse d' rest).toOption.map scopes ∧
      ∀ fault, parse d' rest = .error fault → ∃ fault', parse d (line ++ rest) = .error fault' ∧
        fault'.kind = fault.kind ∧
          fault'.region = ⟨n + fault.region.start, n + fault.region.stop⟩ := by
  intro line n
  have hparse : parse d (line ++ rest) =
      ((parse d' rest).map (shiftAll n)).mapError (Fault.shift n) := by
    obtain ⟨l, hread, htext, hsigil⟩ := Lexeme.exists_read?_changeLine (c := .start d (line ++ rest))
      hopening hclosing rfl rfl
    have hfirst : Nesting.addLexeme (line ++ rest) Nesting.empty l = .ok Nesting.empty := by
      rw [Nesting.addLexeme, htext, Nesting.addText_nil, Nesting.addTag, hsigil]
    have hline : line.getLast? = some '\n' := by simp [line, Delimiters.changeLine]
    rw [parse, Lexeme.readAll_of_some hread, ← ofLexemes_readAll_behind hline]
    simp only [ofLexemes, List.foldlM_cons, hfirst]
    rfl
  refine ⟨hparse, ?_, fun fault h => ⟨fault.shift n, ?_, fault.kind_shift n, fault.region_shift n⟩⟩
  · rw [hparse]
    cases parse d' rest with
    | error fault => rfl
    | ok tokens => exact congrArg some (scopes_shiftAll n tokens)
  · rw [hparse, h]
    rfl

/-- The new closing delimiter can be a part of the old one. -/
theorem parse_changeLine_brace :
    let d' : Delimiters := ⟨['|'], ['}'], by decide, by decide⟩
    let rest := "|#a\x7d\n |>p\x7d\n|/a\x7d".toList
    ¬ Delimiters.braces.closing <:+: d'.opening ∧ ¬ Delimiters.braces.closing <:+: d'.closing ∧
      (parse d' rest).isOk = true ∧
      parse .braces (Delimiters.braces.changeLine d' ++ rest) =
        ((parse d' rest).map (shiftAll 10)).mapError (Fault.shift 10) := by
  intro d' rest
  have hopening : ¬ Delimiters.braces.closing <:+: d'.opening := by decide
  have hclosing : ¬ Delimiters.braces.closing <:+: d'.closing := by decide
  exact ⟨hopening, hclosing, by decide +kernel, (parse_changeLine hopening hclosing rest).1⟩

end Token

end LogicLess
