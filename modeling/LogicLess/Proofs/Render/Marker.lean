import LogicLess.Proofs.Render.TextLines
import LogicLess.Proofs.Token.LiteralText
import LogicLess.Proofs.Token.LoneValue
import LogicLess.Proofs.Token.Structure
import LogicLess.Text.IdentifierTable

/-!
# Markers of closing delimiters

A tag takes in one marker in front of its closing delimiter, whatever its sigil. So a value in double
braces is followed by the text behind it, less a brace at the beginning of that text: the last three
braces close the tag, the first of them as a marker.
-/

namespace LogicLess

theorem Delimiters.closeLength?_braces (text : List Char) :
    Delimiters.braces.closeLength? (['}', '}'] ++ text) =
      some (if text.head? = some '}' then 3 else 2) := by
  cases text with
  | nil => decide
  | cons c text =>
    by_cases hc : c = '}'
    · simp [closeLength?, braces, isMarker, hc]
    · simp [closeLength?, braces, isMarker, hc, Ne.symm hc]

namespace Token

theorem parse_braces [Alphabet] {key : List Char} (hne : key ≠ [])
    (hkey : ∀ c ∈ key, isKeyChar c = true) {text : List Char} (htext : ¬ ['{', '{'] <:+: text) :
    parse .braces (['{', '{'] ++ key ++ ['}', '}'] ++ text) =
      .ok (Nesting.addLines [.value (.ofKey key) true, .lineStart]
        (if text.head? = some '}' then text.tail else text)).reverse := by
  have hkeyed : Tag.Keyed .plain [] key [] (['}', '}'] ++ text) := by
    simp only [← Sigil.isContentChar_of_isValue (show Sigil.plain.isValue = true from rfl)] at hkey
    refine ⟨rfl, by simp, hne, hkey, by simp, fun x hx => ?_, fun x hx => ?_⟩
    · rw [← Option.some.inj hx]
      rfl
    · rw [← Option.some.inj hx]
      rfl
  have hdrop : (['}', '}'] ++ text).drop (if text.head? = some '}' then 3 else 2) =
      if text.head? = some '}' then text.tail else text := by
    split <;> simp
  have hafter : ¬ ['{', '{'] <:+: if text.head? = some '}' then text.tail else text := by
    split
    · exact fun h => htext (h.trans (List.tail_suffix text).isInfix)
    · exact htext
  have hparse := parse_value rfl hkeyed (Delimiters.closeLength?_braces text) (hdrop ▸ hafter)
  rw [hdrop] at hparse
  simpa [Delimiters.braces, Sigil.mark] using hparse

end Token

namespace Template

theorem render_ofTokens [Alphabet] (env : Environment) (depth : Nat) (name : Option String)
    (delimiters : Delimiters) (tokens : List Token) (data : Value) (history : History) :
    (ofTokens name delimiters tokens).render env (depth + 1) data history =
      let (result, after) := (tokens.forM (Token.step env (Run.scope env depth)
        (Token.walk env depth) delimiters (.ofRoot data))).run ⟨.empty, history⟩
      (result.map fun _ => after.output.text, after.history) := by
  rw [render, Token.scope_eq_walk env (depth + 1) _ 0 1 tokens (Token.compiled_scopes tokens)]
  rfl

theorem exists_render_addLines [Alphabet] (env : Environment) (depth : Nat)
    (delimiters : Delimiters) (path : Path) (escaped : Bool) {data : Value}
    (hfree : data.isLambdaFree = true) (history : History) : ∃ out, ∀ text,
      (ofTokens none delimiters
        (Nesting.addLines [.value path escaped, .lineStart] text).reverse).render env (depth + 1)
          data history = (.ok (out ++ text), history) := by
  have hcompletes : Run.Completes ([.lineStart, .value path escaped].forM
      (Token.step env (Run.scope env depth) (Token.walk env depth) delimiters (.ofRoot data))) := by
    refine .forM fun token htoken => ?_
    rcases List.mem_pair.1 htoken with rfl | rfl
    · exact Run.completes_onOutput Output.indent_startLine
    · exact Run.completes_value hfree (Context.within_ofRoot data)
  -- The output after the value does not depend on the text, and no indentation is left to it.
  obtain ⟨o, hrun, hindent⟩ := hcompletes ⟨.empty, history⟩
  refine ⟨o.text, fun text => ?_⟩
  rw [render_ofTokens, Run.forM_addLines, Run.run_bind, List.reverse_cons, List.reverse_singleton]
  rw [List.singleton_append, hrun, ← Output.text_writeLines hindent]
  rfl

/-- A tag of any kind takes in one marker of any kind in front of its closing delimiter. So it takes in
none but its own just if no other stands there. A value in double braces is followed by the text behind it,
without a brace that the tag has taken in. -/
theorem takes_one_marker [Alphabet] (d : Delimiters) (source key text : List Char) (hne : key ≠ [])
    (hkey : ∀ c ∈ key, isKeyChar c = true) (htext : ¬ ['{', '{'] <:+: text) :
    (∀ tag ∈ Token.tags d source, ∃ before lead trail marker after,
      tag.Spelled source before lead trail marker after ∧
      ((∀ m ∈ marker, tag.sigil.marker? = some m) ↔ ∀ m, isMarker m = true →
        m :: tag.delimiters.closing <+: marker ++ tag.delimiters.closing ++ after →
          tag.sigil.marker? = some m)) ∧
    ∃ alone whole,
      compile .braces (['{', '{'] ++ key ++ ['}', '}']) none = .ok alone ∧
      compile .braces (['{', '{'] ++ key ++ ['}', '}'] ++ text) none = .ok whole ∧
      ∀ (env : Environment) (depth : Nat) (data : Value) (history : History),
        data.isLambdaFree = true → ∃ out,
          alone.render env (depth + 1) data history = (.ok out, history) ∧
          whole.render env (depth + 1) data history =
            (.ok (out ++ if text.head? = some '}' then text.tail else text), history) := by
  constructor
  · intro tag htag
    rw [Token.tags, (Token.map_tag_readAll d source).1] at htag
    obtain ⟨p, hp, rfl⟩ := List.mem_map.1 htag
    obtain ⟨before, lead, trail, marker, after, hspelled⟩ :=
      Tag.exists_spelled_of_mem_scan (Cursor.source_start d source) hp
    exact ⟨before, lead, trail, marker, after, hspelled, hspelled.takesIn.forall_mem_iff _⟩
  · have halone := Token.parse_braces hne hkey (show ¬ ['{', '{'] <:+: [] by decide)
    have hwhole := Token.parse_braces hne hkey htext
    rw [List.append_nil] at halone
    refine ⟨_, _, by rw [compile, halone], by rw [compile, hwhole],
      fun env depth data history hfree => ?_⟩
    obtain ⟨out, hout⟩ := exists_render_addLines env depth .braces (.ofKey key) true hfree history
    exact ⟨out, by simpa using hout [], hout _⟩

theorem takes_one_marker_brace :
    let env : Environment := .ofTemplates [] fun _ _ _ => .returns .null
    let data : Value := .map [("a", .string "x")]
    ∃ alone whole,
      compile .braces ['{', '{', 'a', '}', '}'] none = .ok alone ∧
      compile .braces ['{', '{', 'a', '}', '}', '}', '\n'] none = .ok whole ∧
      ∃ out, alone.render env 1 data [] = (.ok out, []) ∧
        whole.render env 1 data [] = (.ok (out ++ ['\n']), []) := by
  intro env data
  obtain ⟨-, alone, whole, halone, hwhole, hrender⟩ :=
    takes_one_marker .braces ['{', '{', 'a', '}', '}', '}', '\n'] ['a'] ['}', '\n'] (by decide)
      (List.all_eq_true.1 (by decide +kernel)) (by decide)
  exact ⟨alone, whole, halone, hwhole, hrender env 0 data [] (by decide +kernel)⟩

/-- The brace at the beginning of a text is lost behind a value. -/
theorem not_forall_render_append : ¬ ∀ key text : List Char,
    key ≠ [] → (∀ c ∈ key, isKeyChar c = true) → ¬ ['{', '{'] <:+: text → ∀ alone whole,
      compile .braces (['{', '{'] ++ key ++ ['}', '}']) none = .ok alone →
      compile .braces (['{', '{'] ++ key ++ ['}', '}'] ++ text) none = .ok whole →
      ∀ (env : Environment) (depth : Nat) (data : Value) (history : History) (out : List Char),
        data.isLambdaFree = true →
        (alone.render env depth data history).1.toOption = some out →
        (whole.render env depth data history).1.toOption = some (out ++ text) := by
  intro h
  let env : Environment := .ofTemplates [] fun _ _ _ => .returns .null
  let data : Value := .map [("a", .string "x")]
  have hout : ((compile .braces ['{', '{', 'a', '}', '}'] none).toOption.bind fun alone =>
      (compile .braces ['{', '{', 'a', '}', '}', '}'] none).toOption.bind fun whole =>
        (alone.render env 1 data []).1.toOption.bind fun out =>
          (whole.render env 1 data []).1.toOption.map fun text => (out, text)) =
      some (['x'], ['x']) := by decide +kernel
  obtain ⟨alone, halone, hout⟩ := Option.bind_eq_some_iff.1 hout
  obtain ⟨whole, hwhole, hout⟩ := Option.bind_eq_some_iff.1 hout
  obtain ⟨out, hrender, hout⟩ := Option.bind_eq_some_iff.1 hout
  obtain ⟨text, htext, hpair⟩ := Option.map_eq_some_iff.1 hout
  obtain ⟨rfl, rfl⟩ := Prod.mk.inj hpair
  have hbrace := h ['a'] ['}'] (by decide) (List.all_eq_true.1 (by decide +kernel)) (by decide)
    alone whole (eq_ok_of_toOption halone) (eq_ok_of_toOption hwhole) env 1 data [] ['x']
    (by decide +kernel) hrender
  exact absurd (htext.symm.trans hbrace) (by decide)

end Template

end LogicLess
