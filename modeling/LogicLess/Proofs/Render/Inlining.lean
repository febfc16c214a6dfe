import LogicLess.Proofs.Program.Meaning
import LogicLess.Proofs.Render.Discipline
import LogicLess.Text.IdentifierTable

/-!
# Templates written in place

A tag that refers to another template runs like the tokens of that template in its place, at any depth
of a tree, as long as the tag is not indented. Only how deep scopes are nested differs between the two,
so each run ends just if the other does.
-/

namespace LogicLess

theorem Output.popIndent_of_continues {o o' : Output} (h : o.Continues o') :
    o'.popIndent o.indent.length = o' := by
  rw [popIndent, ← h.indent_eq, List.take_length]

/-- A run leaves the indentation of lines as it was, so there is nothing to undo after it if there was
nothing to add before it. -/
theorem Run.withIndent_nil {act : Run Unit} (h : Continues act) : withIndent [] act = act := by
  funext s
  have hpush : s.output.pushIndent [] = s.output := by rw [Output.pushIndent, List.append_nil]
  change (withIndent [] act).run s = act.run s
  rw [run_withIndent, hpush]
  have hpop := Output.popIndent_of_continues (h s)
  rcases hrun : act.run s with ⟨result, after⟩
  rw [hrun] at hpop
  simp only [hpop]

namespace Token

variable {env : Environment} {d : Delimiters}

theorem walk_append [Alphabet] (env : Environment) (depth : Nat) (d : Delimiters)
    (context : Context) (xs ys : List Token) : walk env depth d context (xs ++ ys) =
      (do walk env depth d context xs; walk env depth d context ys) := by
  cases depth with
  | zero => rfl
  | succ depth => simp [walk]

theorem walk_cons [Alphabet] (env : Environment) (depth : Nat) (d : Delimiters) (context : Context)
    (token : Token) (rest : List Token) : walk env (depth + 1) d context (token :: rest) =
      (do step env (Run.scope env depth) (walk env depth) d context token
          walk env (depth + 1) d context rest) := by
  simp [walk]

theorem walk_singleton [Alphabet] (env : Environment) (depth : Nat) (d : Delimiters)
    (context : Context) (token : Token) : walk env (depth + 1) d context [token] =
      step env (Run.scope env depth) (walk env depth) d context token := by
  simp [walk]

theorem extends_walk [Alphabet] {depth depth' : Nat} (h : depth ≤ depth') (context : Context)
    (tokens : List Token) :
    Run.Extends (walk env depth d context tokens) (walk env depth' d context tokens) := by
  have hscope := Run.extends_scope h env (.ofTokens none d tokens) 0 context
  simpa only [scope_zero_eq_walk] using hscope

theorem extends_step [Alphabet] {depth depth' : Nat} (h : depth ≤ depth') (context : Context)
    (token : Token) :
    Run.Extends (step env (Run.scope env depth) (walk env depth) d context token)
      (step env (Run.scope env depth') (walk env depth') d context token) := by
  rw [← walk_singleton, ← walk_singleton]
  exact extends_walk (Nat.succ_le_succ h) context [token]

theorem extends_source [Alphabet] {depth depth' : Nat} (h : depth ≤ depth') (d : Delimiters)
    (context : Context) (text : List Char) :
    Run.Extends (source (walk env depth) d context text) (source (walk env depth') d context text) := by
  unfold source
  cases parse d text with
  | ok tokens => exact extends_walk h context tokens
  | error fault => exact .refl _

/-- A tag for another template runs like the tokens of that template, one level further in. -/
theorem walk_embed [Alphabet] {name : String} {label : Option String} {inner : List Token}
    (h : env.partials name = some (.ofTokens label d inner)) (depth : Nat) (context : Context) :
    walk env (depth + 1) d context [.embed name []] = walk env depth d context inner := by
  rw [walk_singleton, step, Run.embed, h]
  change Run.withIndent [] (Run.scope env depth _ 0 context) = _
  rw [Run.withIndent_nil (Run.continues_scope env depth _ 0 context), scope_zero_eq_walk]

/-- The second tree is the first one with the tokens `new` in place of the tokens `old` at one place, at
any depth. What a section tells of its source stays as it was. -/
inductive Replaces (old new : List Token) : List Token → List Token → Prop
  | here (rest) : Replaces old new (old ++ rest) (new ++ rest)
  | later (token) {rest rest'} (h : Replaces old new rest rest') :
    Replaces old new (token :: rest) (token :: rest')
  | within (path inverted raw closing region rest) {body body'} (h : Replaces old new body body') :
    Replaces old new (.block path inverted body raw closing region :: rest)
      (.block path inverted body' raw closing region :: rest)

namespace Replaces

variable {old new tokens tokens' : List Token}

theorem symm (h : Replaces old new tokens tokens') : Replaces new old tokens' tokens := by
  induction h with
  | here rest => exact .here rest
  | later token _ ih => exact .later token ih
  | within path inverted raw closing region rest _ ih =>
    exact .within path inverted raw closing region rest ih

/-- Trees that differ in one place run alike if what stands there does, up to `k` further levels. -/
theorem extends_walk [Alphabet] {k : Nat}
    (h : ∀ depth context,
      Run.Extends (walk env depth d context old) (walk env (depth + k) d context new))
    (hreplaces : Replaces old new tokens tokens') (depth : Nat) (context : Context) :
    Run.Extends (walk env depth d context tokens) (walk env (depth + k) d context tokens') := by
  -- The bodies of sections run one level further in, so the bound is outside the tree.
  induction depth generalizing tokens tokens' context with
  | zero => exact .throw_exhausted _
  | succ depth ih =>
    have hle : depth ≤ depth + k := Nat.le_add_right depth k
    induction hreplaces with
    | here rest =>
      rw [walk_append, walk_append]
      apply (h (depth + 1) context).bind
      intro _
      exact Token.extends_walk (Nat.le_add_right _ k) context rest
    | later token _ ihrest =>
      rw [Nat.add_right_comm] at ihrest ⊢
      rw [walk_cons, walk_cons]
      apply (extends_step hle context token).bind
      intro _
      exact ihrest
    | @within path inverted raw closing region rest body body' hbody =>
      have hrun : ∀ c, Run.Extends (walk env depth d c body) (walk env (depth + k) d c body') :=
        ih hbody
      have hrest : Run.Extends (walk env (depth + 1) d context rest)
          (walk env (depth + k + 1) d context rest) :=
        Token.extends_walk (Nat.succ_le_succ hle) context rest
      rw [Nat.add_right_comm, walk_cons, walk_cons]
      refine Run.Extends.bind ?_ fun _ => hrest
      cases inverted with
      | true => exact Run.extends_inverted hrun context path
      | false => exact Run.extends_block (extends_source hle) hrun context path raw closing

end Replaces

/-- Another template may be written out where a tag refers to it without indentation. Whatever comes of
a run of the one tree, with its output and history, comes of a run of the other from the same state. -/
theorem exists_scope_written_out_iff [Alphabet] {name : String} {label : Option String}
    {inner tokens tokens' : List Token} {context : Context} {s : RunState}
    {result : Except Stop Unit × RunState} (first second : Option String)
    (hname : env.partials name = some (.ofTokens label d inner))
    (hreplaces : Replaces [.embed name []] inner tokens tokens')
    (hresult : result.1 ≠ .error .exhausted) :
    (∃ depth, (Run.scope env depth (.ofTokens first d tokens) 0 context).run s = result) ↔
      ∃ depth, (Run.scope env depth (.ofTokens second d tokens') 0 context).run s = result := by
  have hout : ∀ depth context, Run.Extends (walk env depth d context [.embed name []])
      (walk env (depth + 0) d context inner) := by
    intro depth context
    cases depth with
    | zero => exact .throw_exhausted _
    | succ depth =>
      rw [walk_embed hname]
      exact extends_walk (Nat.le_succ depth) context inner
  have hin : ∀ depth context, Run.Extends (walk env depth d context inner)
      (walk env (depth + 1) d context [.embed name []]) := by
    intro depth context
    rw [walk_embed hname]
    exact .refl _
  simp only [scope_zero_eq_walk]
  constructor
  · rintro ⟨depth, rfl⟩
    exact ⟨depth, hreplaces.extends_walk hout depth context s hresult⟩
  · rintro ⟨depth, rfl⟩
    exact ⟨depth + 1, hreplaces.symm.extends_walk hin depth context s hresult⟩

/-- A template that refers to itself, written out inside a section. -/
theorem exists_scope_written_out_recursive :
    let key := fun name : String => Path.keys [name]
    let inner : List Token := [.lineStart, .text ['<'], .value (key "x") true,
      .block (key "n") false [.embed "p" []] [] .braces ⟨0, 0⟩, .text ['>', '\n'], .lineStart]
    let around := fun body : List Token => [.lineStart,
      .block (key "s") false (.text ['a'] :: body) "a\x7b\x7b>p\x7d\x7db".toList .braces ⟨0, 21⟩]
    let tokens := around [.embed "p" [], .text ['b']]
    let tokens' := around (inner ++ [.text ['b']])
    let env : Environment := ⟨fun name =>
      if name = "p" then some (.ofTokens none .braces inner) else none, fun _ _ _ => .returns .null⟩
    let data : Value := .map [("s", .map [("x", .string "1"),
      ("n", .map [("x", .string "2"), ("n", .list [])])])]
    let s : RunState := ⟨⟨['\n', 'q'], [' '], false⟩, []⟩
    env.partials "p" = some (.ofTokens none .braces inner) ∧
      Replaces [.embed "p" []] inner tokens tokens' ∧
      ∃ depth,
        let result := (Run.scope env depth (.ofTokens none .braces tokens') 0 (.ofRoot data)).run s
        result.1 ≠ .error .exhausted ∧ result.2.output.text = "q\n a<1<2>\n >\n b".toList := by
  intro key inner around tokens tokens' env data s
  have hname : env.partials "p" = some (.ofTokens none .braces inner) := rfl
  have hreplaces : Replaces [.embed "p" []] inner tokens tokens' :=
    .later _ (.within _ _ _ _ _ _ (.later _ (.here [.text ['b']])))
  have hrun : (let result :=
      (Run.scope env 6 (.ofTokens none .braces tokens) 0 (.ofRoot data)).run s
    result.1.isOk && result.2.output.text == "q\n a<1<2>\n >\n b".toList) = true := by decide +kernel
  obtain ⟨hok, htext⟩ := Bool.and_eq_true_iff.1 hrun
  have hresult : ((Run.scope env 6 (.ofTokens none .braces tokens) 0 (.ofRoot data)).run s).1 ≠
      .error .exhausted := by
    intro h
    rw [h] at hok
    cases hok
  obtain ⟨depth, hdepth⟩ :=
    (exists_scope_written_out_iff none none hname hreplaces hresult).1 ⟨6, rfl⟩
  refine ⟨hname, hreplaces, depth, ?_⟩
  rw [hdepth]
  exact ⟨hresult, beq_iff_eq.1 htext⟩

end Token

end LogicLess
