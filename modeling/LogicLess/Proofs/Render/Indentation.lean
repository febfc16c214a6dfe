import LogicLess.Proofs.Lexeme.Written
import LogicLess.Proofs.Program.Compiled
import LogicLess.Proofs.Render.Lockstep
import LogicLess.Proofs.Text.Indent
import LogicLess.Proofs.Token.Lines
import LogicLess.Text.IdentifierTable

/-!
# Indenting what a template writes

A template that is run under an indentation writes what it writes without it, with the indentation
before its lines. The indentation of a line waits for the first text on it, and the mark after every
line feed makes it wait there, so no line is passed over.
-/

namespace LogicLess

namespace Output

/-- The output `b` is the output `a` with lines indented by `lead`. In both, an indentation waits just
if a line has begun. -/
structure Indents (lead indent : List Char) (a b : Output) : Prop where
  text_eq : b.text = Text.indentLines lead a.text
  indent_left : a.indent = indent
  indent_right : b.indent = lead ++ indent
  start_eq : b.atLineStart = a.atLineStart
  pending_left : a.pending = a.atLineStart
  pending_right : b.pending = a.atLineStart

theorem atLineStart_eq (o : Output) : o.atLineStart = o.text.getLast?.elim true (· == '\n') := by
  unfold atLineStart text
  rw [List.getLast?_reverse]
  cases o.written <;> rfl

theorem text_write (o : Output) (c : Char) (s : List Char) :
    (o.write (c :: s)).text =
      o.text ++ ((if o.pending && !Text.isLineBreak c then o.indent else []) ++ c :: s) := by
  simp [write, text]

theorem atLineStart_write_of_not_mem (o : Output) {s : List Char} (hne : s ≠ []) (hs : '\n' ∉ s) :
    (o.write s).atLineStart = false := by
  obtain ⟨front, c, rfl⟩ := (List.eq_nil_or_concat s).resolve_left hne
  rw [List.concat_eq_append, write_append]
  exact beq_eq_false_iff_ne.2 fun hc => hs (by simp [hc])

theorem atLineStart_write_line (o : Output) (s : List Char) :
    (o.write (s ++ ['\n'])).atLineStart = true := by
  rw [write_append]
  rfl

theorem pending_write (o : Output) {s : List Char} (hs : s ≠ []) : (o.write s).pending = false := by
  obtain ⟨c, s, rfl⟩ := List.exists_cons_of_ne_nil hs
  rfl

theorem startLine_of_pending_eq {o : Output} (h : o.pending = o.atLineStart) : o.startLine = o := by
  unfold startLine
  split
  · next hstart => rw [← hstart, ← h]
  · rfl

theorem pending_startLine {o : Output} (h : o.atLineStart = true) : o.startLine.pending = true := by
  rw [startLine, if_pos h]

namespace Indents

variable {lead indent : List Char} {a b : Output}

theorem text_write (h : Indents lead indent a b) (hindent : ∀ c ∈ indent, Text.isBlank c = true)
    {s : List Char} (hs : Text.IsLine s) :
    (b.write s).text = Text.indentLines lead (a.write s).text := by
  obtain ⟨c, s, rfl⟩ := List.exists_cons_of_ne_nil hs.ne_nil
  have hstart := a.atLineStart_eq
  rw [Output.text_write, Output.text_write, h.pending_left, h.pending_right, h.indent_left,
    h.indent_right, h.text_eq, hstart]
  split
  · next hlead =>
    cases indent with
    | nil => simp [Text.indentLines_append hs, hlead]
    | cons d rest =>
      have hrest : '\n' ∉ d :: rest := fun hmem => absurd (hindent _ hmem) (by decide)
      have hbreak : Text.isLineBreak d = false := by
        rcases Text.isBlank_iff.1 (hindent d (by simp)) with rfl | rfl <;> rfl
      have hline : Text.IsLine (d :: (rest ++ c :: s)) := hs.append hrest
      change _ = Text.indentLines lead (a.text ++ d :: (rest ++ c :: s))
      rw [Text.indentLines_append hline, hbreak]
      simp [(Bool.and_eq_true_iff.1 hlead).1]
  · next hlead => simp [Text.indentLines_append hs, hlead]

theorem write (h : Indents lead indent a b) (hindent : ∀ c ∈ indent, Text.isBlank c = true)
    {s : List Char} (hs : '\n' ∉ s) : Indents lead indent (a.write s) (b.write s) := by
  by_cases hne : s = []
  · rw [hne]
    exact h
  have ha := a.atLineStart_write_of_not_mem hne hs
  have hb := b.atLineStart_write_of_not_mem hne hs
  exact {
    text_eq := h.text_write hindent (.inr ⟨hne, hs⟩)
    indent_left := by rw [indent_write, h.indent_left]
    indent_right := by rw [indent_write, h.indent_right]
    start_eq := by rw [ha, hb]
    pending_left := by rw [ha, pending_write a hne]
    pending_right := by rw [ha, pending_write b hne] }

theorem write_line (h : Indents lead indent a b) (hindent : ∀ c ∈ indent, Text.isBlank c = true)
    {s : List Char} (hs : '\n' ∉ s) :
    Indents lead indent (a.write (s ++ ['\n'])).startLine (b.write (s ++ ['\n'])).startLine := by
  have ha := a.atLineStart_write_line s
  have hb := b.atLineStart_write_line s
  have hstart := (atLineStart_startLine (a.write (s ++ ['\n']))).trans ha
  exact {
    text_eq := by
      rw [text_startLine, text_startLine]
      exact h.text_write hindent (.inl ⟨s, hs, rfl⟩)
    indent_left := by rw [indent_startLine, indent_write, h.indent_left]
    indent_right := by rw [indent_startLine, indent_write, h.indent_right]
    start_eq := by rw [hstart, atLineStart_startLine, hb]
    pending_left := by rw [hstart, pending_startLine ha]
    pending_right := by rw [hstart, pending_startLine hb] }

theorem startLine (h : Indents lead indent a b) : Indents lead indent a.startLine b.startLine := by
  rw [startLine_of_pending_eq h.pending_left,
    startLine_of_pending_eq (h.pending_right.trans h.start_eq.symm)]
  exact h

theorem pushIndent (h : Indents lead indent a b) (more : List Char) :
    Indents lead (indent ++ more) (a.pushIndent more) (b.pushIndent more) where
  text_eq := h.text_eq
  indent_left := by rw [Output.pushIndent, h.indent_left]
  indent_right := by rw [Output.pushIndent, h.indent_right, List.append_assoc]
  start_eq := h.start_eq
  pending_left := h.pending_left
  pending_right := h.pending_right

theorem popIndent {more : List Char} {a' b' : Output} (h : Indents lead indent a b)
    (h' : Indents lead (indent ++ more) a' b') :
    Indents lead indent (a'.popIndent a.indent.length) (b'.popIndent b.indent.length) where
  text_eq := h'.text_eq
  indent_left := by simp [Output.popIndent, h'.indent_left, h.indent_left]
  indent_right := by
    rw [Output.popIndent, h'.indent_right, h.indent_right, ← List.append_assoc]
    exact List.take_left
  start_eq := h'.start_eq
  pending_left := h'.pending_left
  pending_right := h'.pending_right

end Indents

end Output

namespace Value

variable {data v : Value}

theorem newline_not_mem_text (hdata : ∀ t ∈ data.texts, '\n' ∉ t) (hv : v ∈ data.parts) :
    '\n' ∉ v.text := by
  intro hmem
  rcases isNotation_of_mem_text v hmem with h | ⟨t, ht, h⟩
  · exact absurd h (by decide)
  · exact hdata t (texts_subset hv ht) h

end Value

/-- The states of two runs that have called the same lambdas, of which the second writes under the
further indentation `lead`. -/
def RunState.Indents (lead indent : List Char) (x y : RunState) : Prop :=
  x.output.Indents lead indent y.output ∧ x.history = y.history

namespace Token

open Run

variable {env : Environment} {data : Value} {lead : List Char}

theorem walk_lineStart_cons [Alphabet] (depth : Nat) (delimiters : Delimiters) (context : Context)
    (rest : List Token) :
    walk env (depth + 1) delimiters context (.lineStart :: rest) =
      (do onOutput Output.startLine; walk env (depth + 1) delimiters context rest) := by
  simp [walk, step]

private theorem lockstep_onOutput {indent : List Char} {f g : Output → Output}
    (h : ∀ a b, a.Indents lead indent b → (f a).Indents lead indent (g b)) :
    Lockstep (RunState.Indents lead indent) (onOutput f) (onOutput g) :=
  Run.lockstep_onOutput fun x y hxy => ⟨h x.output y.output hxy.1, hxy.2⟩

private theorem lockstep_writeValue {indent : List Char} (hdata : ∀ t ∈ data.texts, '\n' ∉ t)
    (hindent : ∀ c ∈ indent, Text.isBlank c = true) (escaped : Bool) :
    ∀ v ∈ data.parts, Lockstep (RunState.Indents lead indent)
      (onOutput (·.writeValue v escaped)) (onOutput (·.writeValue v escaped)) := by
  intro v hv
  refine lockstep_onOutput fun a b hab => ?_
  have htext := Value.newline_not_mem_text hdata hv
  rw [Output.writeValue_eq, Output.writeValue_eq]
  split
  · rw [Output.writeText_eq, Output.writeText_eq]
    refine hab.write hindent ?_
    split
    · exact Text.newline_not_mem_encode htext
    · exact htext
  · exact hab

private theorem lockstep_embed [Alphabet] {indent more : List Char} {context : Context}
    {name : String} {depth : Nat} (henv : env.Compiled)
    (h : ∀ delimiters tokens, Lined tokens →
      Lockstep (RunState.Indents lead (indent ++ more))
        (walk env depth delimiters context tokens) (walk env depth delimiters context tokens)) :
    Lockstep (RunState.Indents lead indent) (Run.embed env (scope env depth) context name more)
      (Run.embed env (scope env depth) context name more) := by
  unfold Run.embed
  cases htemplate : env.partials name with
  | none => exact lockstep_pure
  | some template =>
    obtain ⟨delimiters, source, label, hcompile⟩ := henv name template htemplate
    obtain ⟨tokens, hparse, rfl⟩ := Template.exists_of_compile hcompile
    obtain ⟨rest, rfl, hrest⟩ := exists_lined_of_parse hparse
    dsimp only
    rw [scope_eq_walk env depth _ 0 1 _ (compiled_scopes (.lineStart :: rest))]
    have hwalk : Lockstep (RunState.Indents lead (indent ++ more))
        (walk env depth delimiters context (.lineStart :: rest))
        (walk env depth delimiters context (.lineStart :: rest)) := by
      cases depth with
      | zero => exact lockstep_throw _
      | succ depth =>
        rw [walk_lineStart_cons]
        exact lockstep_bind (lockstep_onOutput fun a b hab => hab.startLine)
          (h delimiters rest hrest)
    exact lockstep_withIndent (fun x y hxy => ⟨hxy.1.pushIndent more, hxy.2⟩)
      (fun x y x' y' hxy hxy' => ⟨hxy.1.popIndent hxy'.1, hxy'.2⟩) hwalk

/-- Lines are indented by `lead` wherever a tree writes them. -/
theorem lockstep_walk [Alphabet] (henv : env.Compiled) (hfree : data.isLambdaFree = true)
    (hdata : ∀ t ∈ data.texts, '\n' ∉ t) (depth : Nat) :
    ∀ (delimiters : Delimiters) (context : Context) (indent : List Char) (tokens : List Token),
      context.Within data → (∀ c ∈ indent, Text.isBlank c = true) → Lined tokens →
      Lockstep (RunState.Indents lead indent) (walk env depth delimiters context tokens)
        (walk env depth delimiters context tokens) := by
  induction depth with
  | zero => exact fun _ _ _ _ _ _ _ => lockstep_throw _
  | succ depth ih =>
    intro delimiters context indent tokens hcontext hindent hlined
    rw [walk]
    induction hlined with
    | nil => exact lockstep_pure
    | @line t rest ht _ ihrest =>
      -- The text alone would leave a line begun without an indentation waiting.
      have hline : ∀ f : Token → Run Unit, (Token.text (t ++ ['\n']) :: .lineStart :: rest).forM f =
          (do (do f (.text (t ++ ['\n'])); f .lineStart); rest.forM f) := by
        intro f
        simp [bind_assoc]
      rw [hline]
      refine lockstep_bind ?_ ihrest
      exact lockstep_onOutput fun a b hab => hab.write_line hindent ht
    | text _ ht _ _ ihrest =>
      rw [List.forM_eq_forM, List.forM_cons, ← List.forM_eq_forM]
      exact lockstep_bind (lockstep_onOutput fun a b hab => hab.write hindent ht) ihrest
    | value _ ihrest =>
      rw [List.forM_eq_forM, List.forM_cons, ← List.forM_eq_forM]
      exact lockstep_bind (lockstep_value hfree hcontext (lockstep_writeValue hdata hindent _))
        ihrest
    | @block path inverted body raw closing region rest hbody _ _ ihrest =>
      rw [List.forM_eq_forM, List.forM_cons, ← List.forM_eq_forM]
      refine lockstep_bind ?_ ihrest
      cases inverted with
      | true => exact lockstep_inverted (ih delimiters context indent body hcontext hindent hbody)
      | false =>
        exact lockstep_block hfree hcontext fun c hc =>
          ih delimiters c indent body hc hindent hbody
    | embed hmore _ ihrest =>
      rw [List.forM_eq_forM, List.forM_cons, ← List.forM_eq_forM]
      refine lockstep_bind (lockstep_embed henv fun delimiters tokens htokens => ?_) ihrest
      refine ih delimiters context _ tokens hcontext (fun c hc => ?_) htokens
      exact (List.mem_append.1 hc).elim (hindent c) (hmore c)

theorem parse_embed [Alphabet] {name : String} (hne : name.toList ≠ [])
    (hname : name.toList.all Sigil.angle.isContentChar = true)
    (hlead : lead.all Text.isBlank = true) :
    parse .braces (lead ++ (['{', '{', '>'] ++ name.toList ++ ['}', '}'])) =
      .ok [.lineStart, .embed name lead] := by
  rw [List.all_eq_true] at hname hlead
  generalize hc : Cursor.start .braces (lead ++ (['{', '{', '>'] ++ name.toList ++ ['}', '}'])) = c
  have hd : c.delimiters = .braces := by rw [← hc]; rfl
  have hrest : c.rest = lead ++ (Tag.written c.delimiters .angle [] name.toList [] ++ []) := by
    rw [hd, ← hc]
    simp [Cursor.start, Tag.written, Delimiters.braces, Sigil.mark]
  have hlegible : Tag.Legible c.delimiters .angle [] name.toList [] [] := by
    rw [hd]
    refine ⟨rfl, by simp, hne, hname, by simp, fun x hx => ?_, by decide⟩
    rw [← Option.some.inj hx]
    rfl
  obtain ⟨close, hread, hpasses, -⟩ :=
    Tag.read_written (c := c.advance lead.length) hlegible (Cursor.rest_advance hrest)
  have hend : close.rest = [] := by
    have h := hpasses.rest_eq
    rw [Cursor.rest_advance hrest] at h
    exact (List.append_cancel_left h).symm
  have hsettled : c.Settled := hc ▸ Cursor.settled_start _ _
  have hcut : Text.OnlyAtEnd c.delimiters.opening lead := by
    rw [hd]
    exact Text.onlyAtEnd_of_not_mem fun hmem => absurd (hlead _ hmem) (by decide)
  have hopening : c.rest = lead ++ c.delimiters.opening ++ (['>'] ++ (name.toList ++ ['}', '}'])) := by
    rw [hrest, hd]
    simp [Tag.written, Delimiters.braces, Sigil.mark]
  have halone : (Sigil.angle.mayStandAlone &&
      Text.isAlone (c.seen.reverse ++ lead) close.rest) = true := by
    rw [← hc, hend]
    exact Text.isAlone_of_blank hlead
  have htail : Text.blankLineEnd? close.rest = some [] := by rw [hend]; rfl
  have hlexeme := Lexeme.read?_of_tag hsettled hopening hcut hread (by simp)
  rw [Lexeme.ofTag_of_alone halone (Text.splitTrailing_of_forall hlead) htail, List.length_nil,
    Cursor.advance_zero] at hlexeme
  have hlast : ¬ close.delimiters.opening <:+: close.rest := by
    rw [hend, List.infix_nil]
    exact close.delimiters.opening_ne_nil
  rw [parse, hc, Lexeme.readAll_of_last hlexeme hlast, hend]
  simp [ofLexemes, Nesting.addLexeme, Nesting.addText, Nesting.addTag, Nesting.addToken,
    Nesting.empty, Nesting.finish, Text.splitLines, bind, Except.bind, pure, Except.pure]

end Token

namespace Template

/-- Output that begins a line inside the tag, against output that begins the line itself. -/
private theorem indents_start (lead : List Char) :
    Output.empty.startLine.Indents lead []
      ((Output.empty.startLine.pushIndent lead).startLine) where
  text_eq := rfl
  indent_left := rfl
  indent_right := by simp [Output.startLine, Output.pushIndent, Output.atLineStart, Output.empty]
  start_eq := rfl
  pending_left := rfl
  pending_right := rfl

/-- A template writes the same lines from the beginning of an output, and indented from the beginning
of a line under an indentation. -/
private theorem walk_indented [Alphabet] {env : Environment} {data : Value} (henv : env.Compiled)
    (hfree : data.isLambdaFree = true) (hdata : ∀ t ∈ data.texts, '\n' ∉ t) {rest : List Token}
    (hrest : Token.Lined rest) (lead : List Char) (delimiters : Delimiters) (depth : Nat)
    (history : History) :
    let act := Token.walk env depth delimiters (.ofRoot data) (.lineStart :: rest)
    let x := act.run ⟨.empty, history⟩
    let y := act.run ⟨Output.empty.startLine.pushIndent lead, history⟩
    x.1 = y.1 ∧ (x.1 = .ok () → y.2.output.text = Text.indentLines lead x.2.output.text) := by
  cases depth with
  | zero => exact ⟨rfl, fun h => by cases h⟩
  | succ depth =>
    have hlock : Run.Lockstep (RunState.Indents lead []) _ _ :=
      Token.lockstep_walk henv hfree hdata (depth + 1) delimiters (.ofRoot data) [] rest
        (Context.within_ofRoot data) (by simp) hrest
    rw [Token.walk_lineStart_cons]
    obtain ⟨hstop, hafter⟩ := hlock ⟨_, history⟩ ⟨_, history⟩ ⟨indents_start lead, rfl⟩
    exact ⟨hstop, fun hok => (hafter hok).1.text_eq⟩

/-- A tag for another template, behind blanks and with nothing else in its template, writes what the
other template writes, with the blanks before its lines. -/
theorem render_embed [Alphabet] {env : Environment} {data : Value} {template : Template}
    {name : String} {lead : List Char} (henv : env.Compiled)
    (hfound : env.partials name = some template) (hne : name.toList ≠ [])
    (hname : name.toList.all Sigil.angle.isContentChar = true)
    (hlead : lead.all Text.isBlank = true) (hfree : data.isLambdaFree = true)
    (hdata : ∀ t ∈ data.texts, '\n' ∉ t) (label : Option String) :
    ∃ outer, compile .braces (lead ++ (['{', '{', '>'] ++ name.toList ++ ['}', '}'])) label =
        .ok outer ∧
      ∀ depth history, (outer.render env (depth + 1) data history).1 =
        (template.render env depth data history).1.map (Text.indentLines lead) := by
  refine ⟨ofTokens label .braces [.lineStart, .embed name lead], ?_, fun depth history => ?_⟩
  · rw [compile, Token.parse_embed hne hname hlead]
  obtain ⟨delimiters, source, own, hcompile⟩ := henv name template hfound
  obtain ⟨tokens, hparse, rfl⟩ := exists_of_compile hcompile
  obtain ⟨rest, rfl, hrest⟩ := Token.exists_lined_of_parse hparse
  have hscope : ∀ depth label delimiters tokens,
      Run.scope env depth (ofTokens label delimiters tokens) 0 (.ofRoot data) =
        Token.walk env depth delimiters (.ofRoot data) tokens :=
    fun depth label delimiters tokens =>
      Token.scope_eq_walk env depth (ofTokens label delimiters tokens) 0 1 tokens
        (Token.compiled_scopes tokens) (.ofRoot data)
  have hembed : Token.walk env (depth + 1) .braces (.ofRoot data) [.lineStart, .embed name lead] =
      (do Run.onOutput Output.startLine
          Run.withIndent lead
            (Token.walk env depth delimiters (.ofRoot data) (.lineStart :: rest))) := by
    simp [Token.walk, Token.step, Run.embed, hfound, hscope]
  obtain ⟨hstop, htext⟩ := walk_indented henv hfree hdata hrest lead delimiters depth history
  rw [render, render, hscope, hscope, hembed]
  generalize Token.walk env depth delimiters (.ofRoot data) (.lineStart :: rest) = act at hstop htext ⊢
  change Except.map (fun _ => (Output.popIndent _ _).text)
    (act.run ⟨Output.empty.startLine.pushIndent lead, history⟩).1 = _
  rw [← hstop]
  rcases hact : act.run ⟨.empty, history⟩ with ⟨stop | _, after⟩
  · rfl
  · rw [hact] at htext
    exact congrArg Except.ok (htext rfl)

/-- A list, an empty line and a template that indents another one, all behind two blanks. -/
theorem render_embed_nested :
    let d : Delimiters := ⟨['<', '%'], ['%', '>'], by decide, by decide⟩
    let sources : List (String × String) :=
      [("t", "a\n\n<%#xs%>\n <%>u%>\n<%/xs%>\n<%y%>"), ("u", "<%.%>\n\rc\n")]
    let env : Environment :=
      ⟨fun name => (sources.lookup name).bind fun s => (compile d s.toList none).toOption,
        fun _ _ _ => .returns .null⟩
    let data : Value := .map [("xs", .list [.string "<", .string "b"]), ("y", .null)]
    ∃ outer, compile .braces [' ', ' ', '{', '{', '>', 't', '}', '}'] none = .ok outer ∧
      (outer.render env 4 data []).1.toOption = some "  a\n\n   &lt;\n\rc\n   b\n\rc\n".toList := by
  intro d sources env data
  have henv : env.Compiled := by
    intro name template h
    obtain ⟨s, -, hs⟩ := Option.bind_eq_some_iff.1 h
    refine ⟨d, s.toList, none, ?_⟩
    cases hc : compile d s.toList none with
    | ok _ => rw [hc] at hs; exact congrArg Except.ok (Option.some.inj hs)
    | error _ => rw [hc] at hs; cases hs
  cases htemplate : env.partials "t" with
  | none =>
    have hsome : (env.partials "t").isSome = true := by decide +kernel
    rw [htemplate] at hsome
    cases hsome
  | some template =>
    obtain ⟨outer, hcompile, hrender⟩ := render_embed henv htemplate (by decide) (by decide +kernel)
      (show [' ', ' '].all Text.isBlank = true by decide)
      (show data.isLambdaFree = true by decide +kernel) (by decide +kernel) none
    have halone : ((env.partials "t").bind fun t => (t.render env 3 data []).1.toOption) =
        some "a\n\n &lt;\n\rc\n b\n\rc\n".toList := by decide +kernel
    rw [htemplate] at halone
    refine ⟨outer, hcompile, ?_⟩
    rw [hrender 3 []]
    cases hresult : (template.render env 3 data []).1 with
    | error stop =>
      rw [Option.bind_some, hresult] at halone
      cases halone
    | ok text =>
      rw [Option.bind_some, hresult] at halone
      rw [Option.some.inj halone]
      decide +kernel

end Template

end LogicLess
