import LogicLess.Proofs.Render.Indentation
import LogicLess.Proofs.Token.Nodes
import LogicLess.Text.IdentifierTable

/-!
# Escaped templates

If all values that a template shows are escaped, the characters that mean something in markup reach an
output from the text of templates only: the data writes an ampersand as the beginning of an entity, and
the other three not at all.
-/

namespace LogicLess

namespace Text

def entities : List (List Char) :=
  ["&amp;".toList, "&quot;".toList, "&lt;".toList, "&gt;".toList]

def AmpersandsBeginEntities (s : List Char) : Prop :=
  ∀ before after, s = before ++ '&' :: after → ∃ e ∈ entities, e <+: '&' :: after

/-- A property of texts that an output does not lose by writing escaped values and indentations. -/
structure Escaped (Safe : List Char → Prop) : Prop where
  append : ∀ s t, Safe s → Safe t → Safe (s ++ t)
  of_blank : ∀ s, (∀ c ∈ s, isBlank c = true) → Safe s
  encode : ∀ s, Safe (encode s)

theorem not_mem_entity? {c d : Char} (hc : c = '<' ∨ c = '>' ∨ c = '"') :
    c ∉ (entity? d).getD [d] := by
  unfold entity?
  split
  case h_5 h1 h2 h3 h4 =>
    rw [Option.getD_none, List.mem_singleton]
    rintro rfl
    rcases hc with rfl | rfl | rfl
    · exact h3 rfl
    · exact h4 rfl
    · exact h2 rfl
  all_goals rcases hc with rfl | rfl | rfl <;> decide

theorem escaped_not_mem {c : Char} (hc : c = '<' ∨ c = '>' ∨ c = '"') :
    Escaped fun s => c ∉ s where
  append s t hs ht h := (List.mem_append.1 h).elim hs ht
  of_blank s hs h := by
    have hblank := hs c h
    rcases hc with rfl | rfl | rfl <;> exact absurd hblank (by decide)
  encode s h := by
    obtain ⟨d, -, hd⟩ := List.mem_flatMap.1 h
    exact not_mem_entity? hc hd

theorem ampersandsBeginEntities_of_not_mem {s : List Char} (h : '&' ∉ s) :
    AmpersandsBeginEntities s := by
  rintro before after rfl
  exact absurd (by simp) h

theorem AmpersandsBeginEntities.append {s t : List Char} (hs : AmpersandsBeginEntities s)
    (ht : AmpersandsBeginEntities t) : AmpersandsBeginEntities (s ++ t) := by
  intro before after h
  rcases List.append_eq_append_iff.1 h with ⟨rest, rfl, hrest⟩ | ⟨rest, hrest, htail⟩
  · exact ht rest after hrest
  · cases rest with
    | nil => exact ht [] after (by simpa using htail.symm)
    | cons c rest =>
      obtain ⟨rfl, rfl⟩ := List.cons.inj htail
      obtain ⟨e, he, hprefix⟩ := hs before rest hrest
      exact ⟨e, he, hprefix.trans ⟨t, rfl⟩⟩

theorem ampersandsBeginEntities_entity? (c : Char) :
    AmpersandsBeginEntities ((entity? c).getD [c]) := by
  have htail : ∀ e ∈ entities, '&' ∉ e.tail := by decide
  have hentity : ∀ e ∈ entities, AmpersandsBeginEntities e := by
    intro e he before after h
    cases before with
    | nil => exact ⟨e, he, by rw [h]; exact List.prefix_refl _⟩
    | cons d before =>
      have hnot := htail e he
      rw [h] at hnot
      exact absurd (by simp) hnot
  unfold entity?
  split
  case h_5 hc _ _ _ =>
    refine ampersandsBeginEntities_of_not_mem ?_
    rw [Option.getD_none, List.mem_singleton]
    exact Ne.symm hc
  all_goals exact hentity _ (by decide)

theorem escaped_ampersandsBeginEntities : Escaped AmpersandsBeginEntities where
  append _ _ hs ht := hs.append ht
  of_blank s hs := ampersandsBeginEntities_of_not_mem fun h => absurd (hs _ h) (by decide)
  encode s := by
    induction s with
    | nil => exact ampersandsBeginEntities_of_not_mem (by simp [Text.encode])
    | cons c s ih => exact (ampersandsBeginEntities_entity? c).append ih

end Text

namespace Template

theorem isBlank_of_compile [Alphabet] {delimiters : Delimiters} {source : List Char}
    {label : Option String} {t : Template} (h : compile delimiters source label = .ok t)
    {name : String} {indent : List Char} (hmem : .embed name indent ∈ t.instructions) :
    ∀ c ∈ indent, Text.isBlank c = true := by
  obtain ⟨tokens, hparse, rfl⟩ := exists_of_compile h
  obtain ⟨rest, rfl, hrest⟩ := Token.exists_lined_of_parse hparse
  obtain ⟨node, hnode, index, hcompile⟩ := exists_node_of_mem (by simp) hmem
  obtain rfl : .embed name indent = node := by
    cases node with
    | embed => simpa [Token.compile] using hcompile
    | block path inverted => cases inverted <;> cases hcompile
    | text | lineStart | value => cases hcompile
  exact hrest.isBlank_of_embed (by simpa [Token.allNodes, Token.nodes] using hnode)

end Template

namespace Run

/-- A part of a run that ends in a state with the property `P` if it begins in one. -/
def Keeps (P : RunState → Prop) (act : Run Unit) : Prop :=
  Lockstep (fun x y => x = y ∧ P x) act act

/-- The output holds a text with the property `Safe`, and lines are indented by blanks. -/
def SafeOutput (Safe : List Char → Prop) (x : RunState) : Prop :=
  Safe x.output.text ∧ ∀ c ∈ x.output.indent, Text.isBlank c = true

variable {Safe : List Char → Prop} {env : Environment} {data : Value}

private theorem keeps_onOutput {f : Output → Output}
    (h : ∀ x, SafeOutput Safe x → SafeOutput Safe { x with output := f x.output }) :
    Keeps (SafeOutput Safe) (onOutput f) := by
  refine lockstep_onOutput ?_
  rintro x _ ⟨rfl, hx⟩
  exact ⟨rfl, h x hx⟩

private theorem SafeOutput.write (hsafe : Text.Escaped Safe) {x : RunState} (h : SafeOutput Safe x)
    {s : List Char} (hs : Safe s) :
    SafeOutput Safe { x with output := x.output.write s } := by
  cases s with
  | nil => exact h
  | cons c s =>
    refine ⟨?_, by simpa using h.2⟩
    change Safe (x.output.write (c :: s)).text
    rw [Output.text_write]
    refine hsafe.append _ _ h.1 (hsafe.append _ _ (hsafe.of_blank _ ?_) hs)
    split
    · exact h.2
    · simp

private theorem keeps_writeValue (hsafe : Text.Escaped Safe) (v : Value) :
    Keeps (SafeOutput Safe) (onOutput (·.writeValue v true)) := by
  refine keeps_onOutput fun x hx => ?_
  rw [Output.writeValue_eq]
  split
  · rw [Output.writeText_eq]
    exact hx.write hsafe (hsafe.encode _)
  · exact hx

private theorem keeps_startLine : Keeps (SafeOutput Safe) (onOutput Output.startLine) :=
  keeps_onOutput fun x hx => ⟨by simpa using hx.1, by simpa using hx.2⟩

private theorem keeps_withIndent {indent : List Char} {act : Run Unit}
    (hindent : ∀ c ∈ indent, Text.isBlank c = true) (h : Keeps (SafeOutput Safe) act) :
    Keeps (SafeOutput Safe) (withIndent indent act) := by
  refine lockstep_withIndent ?_ ?_ h
  · rintro x _ ⟨rfl, hx⟩
    refine ⟨rfl, hx.1, fun c hc => ?_⟩
    exact (List.mem_append.1 hc).elim (hx.2 c) (hindent c)
  · rintro x _ x' _ ⟨rfl, -⟩ ⟨rfl, hx'⟩
    exact ⟨rfl, hx'.1, fun c hc => hx'.2 c (List.mem_of_mem_take hc)⟩

/-- A run through templates that escape their values, with texts that are safe, leaves a safe text. -/
theorem keeps_scope [Alphabet] (hsafe : Text.Escaped Safe) {first : Template}
    (hfree : data.isLambdaFree = true)
    (hvalue : ∀ t, env.Reaches first t → ∀ path, .value path false ∉ t.instructions)
    (hindent : ∀ t, env.Reaches first t → ∀ name indent, .embed name indent ∈ t.instructions →
      ∀ c ∈ indent, Text.isBlank c = true)
    (htext : ∀ t, env.Reaches first t → ∀ s, .text s ∈ t.instructions → Safe s) (depth : Nat) :
    ∀ (template : Template) (index : Nat) (context : Context), env.Reaches first template →
      context.Within data → Keeps (SafeOutput Safe) (scope env depth template index context) := by
  -- The partials may be recursive, so it is the bound on the depth that the induction goes over.
  induction depth with
  | zero => exact fun _ _ _ _ _ => lockstep_throw _
  | succ depth ih =>
    intro template index context htemplate hcontext
    rw [scope]
    cases hscope : template.scopes[index]? with
    | none => exact lockstep_pure
    | some s =>
      refine lockstep_forM fun i hi => ?_
      have hmem := Template.mem_instructions hscope hi
      cases i with
      | text t => exact keeps_onOutput fun x hx => hx.write hsafe (htext template htemplate t hmem)
      | lineStart => exact keeps_startLine
      | value path escaped =>
        cases escaped with
        | false => exact absurd hmem (hvalue template htemplate path)
        | true => exact lockstep_value hfree hcontext fun v _ => keeps_writeValue hsafe v
      | block path body raw delimiters =>
        exact lockstep_block hfree hcontext fun c hc => ih template body c htemplate hc
      | inverted path body => exact lockstep_inverted (ih template body context htemplate hcontext)
      | embed name indent =>
        rw [step, embed]
        cases hfound : env.partials name with
        | none => exact lockstep_pure
        | some t =>
          exact keeps_withIndent (hindent template htemplate name indent hmem)
            (ih t 0 context (.inr ⟨name, hfound⟩) hcontext)

end Run

/-- Whether the instruction shows values escaped only and no text with an angle bracket that opens or an
ampersand. -/
def Instruction.isHarmless : Instruction → Bool
  | .value _ escaped => escaped
  | .text s => !s.contains '<' && !s.contains '&'
  | _ => true

namespace Template

theorem safe_of_render [Alphabet] {Safe : List Char → Prop} (hsafe : Text.Escaped Safe)
    {env : Environment} {template : Template} {data : Value} {depth : Nat} {history : History}
    {out : List Char} (hcompiled : ∀ t, env.Reaches template t →
      ∃ delimiters source label, compile delimiters source label = .ok t)
    (hvalue : ∀ t, env.Reaches template t → ∀ path, .value path false ∉ t.instructions)
    (htext : ∀ t, env.Reaches template t → ∀ s, .text s ∈ t.instructions → Safe s)
    (hfree : data.isLambdaFree = true)
    (hrender : (template.render env depth data history).1 = .ok out) : Safe out := by
  have hindent : ∀ t, env.Reaches template t → ∀ name indent,
      .embed name indent ∈ t.instructions → ∀ c ∈ indent, Text.isBlank c = true := by
    intro t ht name indent hmem
    obtain ⟨delimiters, source, label, hcompile⟩ := hcompiled t ht
    exact isBlank_of_compile hcompile hmem
  have hrun := Run.keeps_scope hsafe hfree hvalue hindent htext depth template 0 (.ofRoot data)
    (.inl rfl) (Context.within_ofRoot data)
  have hstart : Run.SafeOutput Safe ⟨.empty, history⟩ := ⟨hsafe.of_blank [] (by simp), by
    simp [Output.empty]⟩
  obtain ⟨-, hafter⟩ := hrun ⟨.empty, history⟩ _ ⟨rfl, hstart⟩
  unfold render at hrender
  rcases hresult : (Run.scope env depth template 0 (.ofRoot data)).run ⟨.empty, history⟩ with
    ⟨stop | _, after⟩
  · rw [hresult] at hrender
    cases hrender
  · rw [hresult] at hrender hafter
    rw [← Except.ok.inj hrender]
    exact (hafter rfl).2.1

/-- A character that begins or ends a tag or a quotation in markup comes from the text of a template if
all values are escaped, and an ampersand that does not begins an entity. -/
theorem markup_of_render [Alphabet] {env : Environment} {template : Template} {data : Value}
    {depth : Nat} {history : History} {out : List Char}
    (hcompiled : ∀ t, env.Reaches template t →
      ∃ delimiters source label, compile delimiters source label = .ok t)
    (hvalue : ∀ t, env.Reaches template t → ∀ path, .value path false ∉ t.instructions)
    (hfree : data.isLambdaFree = true)
    (hrender : (template.render env depth data history).1 = .ok out) :
    (∀ c, c = '<' ∨ c = '>' ∨ c = '"' →
      (∀ t, env.Reaches template t → ∀ s, .text s ∈ t.instructions → c ∉ s) → c ∉ out) ∧
    ((∀ t, env.Reaches template t → ∀ s, .text s ∈ t.instructions → '&' ∉ s) →
      Text.AmpersandsBeginEntities out) := by
  refine ⟨fun c hc htext => ?_, fun htext => ?_⟩
  · exact safe_of_render (Text.escaped_not_mem hc) hcompiled hvalue htext hfree hrender
  · refine safe_of_render Text.escaped_ampersandsBeginEntities hcompiled hvalue ?_ hfree hrender
    exact fun t ht s hs => Text.ampersandsBeginEntities_of_not_mem (htext t ht s hs)

/-- A page with a list of links, each shown by another template, and data full of markup. -/
theorem markup_of_render_page :
    let d : Delimiters := ⟨['[', '['], [']', ']'], by decide, by decide⟩
    let sources : List (String × String) :=
      [("page", "[[#links]]\n  [[>link]]\n[[/links]]\n[[^none]][[all]][[/none]]"),
        ("link", "* [[.]]\n")]
    let env : Environment :=
      ⟨fun name => (sources.lookup name).bind fun s => (compile d s.toList none).toOption,
        fun _ _ _ => .returns .null⟩
    let data : Value :=
      .map [("links", .list [.string "<a href=\"x\">", .number (.integer 7)]),
        ("all", .map [("&", .list [.bool true, .string ">"])])]
    let out := "  * &lt;a href=&quot;x&quot;&gt;\n  * 7\n\x7b&amp;: true,&gt;\x7d".toList
    ∃ page, env.partials "page" = some page ∧ (page.render env 4 data []).1 = .ok out ∧
      '<' ∉ out ∧ Text.AmpersandsBeginEntities out := by
  intro d sources env data out
  have hcheck : ∀ entry ∈ sources, ((compile d entry.2.toList none).toOption.all fun t =>
      t.instructions.all Instruction.isHarmless) = true := by decide +kernel
  have hsource : ∀ {name : String} {t : Template}, env.partials name = some t → ∃ entry ∈ sources,
      compile d entry.2.toList none = .ok t := by
    intro name t h
    obtain ⟨s, hs, ht⟩ := Option.bind_eq_some_iff.1 h
    obtain ⟨before, after, hsources, -⟩ := List.lookup_eq_some_iff.1 hs
    exact ⟨(name, s), by rw [hsources]; simp, eq_ok_of_toOption ht⟩
  have hsome : (env.partials "page").isSome = true := by decide +kernel
  obtain ⟨page, hpage⟩ := Option.isSome_iff_exists.1 hsome
  have hreaches : ∀ t, env.Reaches page t → ∃ entry ∈ sources,
      compile d entry.2.toList none = .ok t := by
    rintro t (rfl | ⟨name, ht⟩)
    · exact hsource hpage
    · exact hsource ht
  have hharmless : ∀ t, env.Reaches page t → ∀ i ∈ t.instructions, i.isHarmless = true := by
    intro t ht
    obtain ⟨entry, hentry, hcompile⟩ := hreaches t ht
    have h := hcheck entry hentry
    rw [hcompile] at h
    exact List.all_eq_true.1 h
  have hout : ((env.partials "page").bind fun t => (t.render env 4 data []).1.toOption) = some out := by
    decide +kernel
  rw [hpage] at hout
  have hrender : (page.render env 4 data []).1 = .ok out := eq_ok_of_toOption hout
  have hcompiled : ∀ t, env.Reaches page t →
      ∃ delimiters source label, compile delimiters source label = .ok t := by
    intro t ht
    obtain ⟨entry, -, hcompile⟩ := hreaches t ht
    exact ⟨d, entry.2.toList, none, hcompile⟩
  have hvalue : ∀ t, env.Reaches page t → ∀ path, .value path false ∉ t.instructions := by
    intro t ht path hmem
    cases hharmless t ht _ hmem
  have hfree : data.isLambdaFree = true := by decide +kernel
  obtain ⟨hbracket, hampersand⟩ := markup_of_render hcompiled hvalue hfree hrender
  refine ⟨page, hpage, hrender, hbracket '<' (.inl rfl) fun t ht s hs hmem => ?_,
    hampersand fun t ht s hs hmem => ?_⟩
  all_goals simpa [Instruction.isHarmless, hmem] using hharmless t ht _ hs

end Template

end LogicLess
