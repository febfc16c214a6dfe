import LogicLess.Proofs.Lexeme.Reading
import LogicLess.Proofs.Token.Growth

/-!
# Lines in a tree

In a tree that is read from a source, text is cut at line feeds, and a mark for the start of the next
line follows each of them. No two texts stand side by side.
-/

namespace LogicLess

namespace Token

/-- Text holds a line feed at its end only, the mark of the next line follows it there, and there are
no other marks. -/
inductive Lined : List Token → Prop
  | nil : Lined []
  | line {t rest} (ht : '\n' ∉ t) (h : Lined rest) :
    Lined (.text (t ++ ['\n']) :: .lineStart :: rest)
  | text {t rest} (hne : t ≠ []) (ht : '\n' ∉ t) (hrest : ∀ s, rest.head? ≠ some (.text s))
    (h : Lined rest) : Lined (.text t :: rest)
  | value {path escaped rest} (h : Lined rest) : Lined (.value path escaped :: rest)
  | block {path inverted body raw delimiters region rest} (hbody : Lined body) (h : Lined rest) :
    Lined (.block path inverted body raw delimiters region :: rest)
  | embed {name indent rest} (hindent : ∀ c ∈ indent, Text.isBlank c = true) (h : Lined rest) :
    Lined (.embed name indent :: rest)

namespace Lined

theorem append {xs ys : List Token} (h : Lined xs) (h' : Lined ys)
    (hjoin : ∀ s t, xs.getLast? = some (.text s) → ys.head? ≠ some (.text t)) :
    Lined (xs ++ ys) := by
  have htail : ∀ {x : Token} {rest : List Token},
      (∀ s t, (x :: rest).getLast? = some (.text s) → ys.head? ≠ some (.text t)) →
      ∀ s t, rest.getLast? = some (.text s) → ys.head? ≠ some (.text t) := by
    intro x rest hj s t hs
    exact hj s t (by rw [List.getLast?_cons, hs]; rfl)
  induction h with
  | nil => exact h'
  | line ht _ ih => exact .line ht (ih (htail (htail hjoin)))
  | @text t rest hne ht hrest _ ih =>
    refine .text hne ht ?_ (ih (htail hjoin))
    cases rest with
    | nil => exact fun s => hjoin t s rfl
    | cons y rest => exact hrest
  | value _ ih => exact .value (ih (htail hjoin))
  | block hbody _ _ ih => exact .block hbody (ih (htail hjoin))
  | embed hindent _ ih => exact .embed hindent (ih (htail hjoin))

private theorem getLast?_cons_ne {x : Token} {xs : List Token}
    (hx : xs = [] → ∀ s, x ≠ .text s) (h : ∀ s, xs.getLast? ≠ some (.text s)) (s : List Char) :
    (x :: xs).getLast? ≠ some (.text s) := by
  cases xs with
  | nil => simpa using hx rfl s
  | cons y xs => simpa using h s

theorem of_concat_text {xs : List Token} {p : List Char} (h : Lined (xs ++ [.text p])) :
    Lined xs ∧ p ≠ [] ∧ '\n' ∉ p ∧ ∀ s, xs.getLast? ≠ some (.text s) := by
  generalize hzs : xs ++ [Token.text p] = zs at h
  induction h generalizing xs with
  | nil => simp at hzs
  | line ht hrest ih =>
    match xs, hzs with
    | [_], hzs => simp at hzs
    | x :: y :: xs, hzs =>
      simp only [List.cons_append, List.cons.injEq] at hzs
      obtain ⟨rfl, rfl, hzs⟩ := hzs
      obtain ⟨hxs, hp, hp', hlast⟩ := ih hzs
      refine ⟨.line ht hxs, hp, hp', ?_⟩
      exact getLast?_cons_ne (by simp) (getLast?_cons_ne (by simp) hlast)
  | text hne ht hhead _ ih =>
    cases xs with
    | nil =>
      simp only [List.nil_append, List.cons.injEq, Token.text.injEq] at hzs
      obtain ⟨rfl, -⟩ := hzs
      exact ⟨.nil, hne, ht, by simp⟩
    | cons x xs =>
      simp only [List.cons_append, List.cons.injEq] at hzs
      obtain ⟨rfl, hzs⟩ := hzs
      obtain ⟨hxs, hp, hp', hlast⟩ := ih hzs
      rw [← hzs] at hhead
      cases xs with
      | nil => exact absurd rfl (hhead p)
      | cons y xs => exact ⟨.text hne ht hhead hxs, hp, hp', getLast?_cons_ne (by simp) hlast⟩
  | value _ ih =>
    cases xs with
    | nil => simp at hzs
    | cons x xs =>
      simp only [List.cons_append, List.cons.injEq] at hzs
      obtain ⟨rfl, hzs⟩ := hzs
      obtain ⟨hxs, hp, hp', hlast⟩ := ih hzs
      exact ⟨.value hxs, hp, hp', getLast?_cons_ne (by simp) hlast⟩
  | block hbody _ _ ih =>
    cases xs with
    | nil => simp at hzs
    | cons x xs =>
      simp only [List.cons_append, List.cons.injEq] at hzs
      obtain ⟨rfl, hzs⟩ := hzs
      obtain ⟨hxs, hp, hp', hlast⟩ := ih hzs
      exact ⟨.block hbody hxs, hp, hp', getLast?_cons_ne (by simp) hlast⟩
  | embed hindent _ ih =>
    cases xs with
    | nil => simp at hzs
    | cons x xs =>
      simp only [List.cons_append, List.cons.injEq] at hzs
      obtain ⟨rfl, hzs⟩ := hzs
      obtain ⟨hxs, hp, hp', hlast⟩ := ih hzs
      exact ⟨.embed hindent hxs, hp, hp', getLast?_cons_ne (by simp) hlast⟩

theorem of_line {line : List Char} (h : Text.IsLine line) :
    Lined (if line.getLast? = some '\n' then [.text line, .lineStart] else [.text line]) := by
  rcases h with ⟨t, ht, rfl⟩ | ⟨hne, ht⟩
  · rw [if_pos (by simp)]
    exact .line ht .nil
  · rw [if_neg fun hlast => ht (List.mem_of_getLast? hlast)]
    exact .text hne ht (by simp) .nil

end Lined

end Token

namespace Nesting

private theorem reverse_addLine {tokens front : List Token} {line s : List Char}
    (h : extendText tokens line = .text s :: front) (hlast : line.getLast? = s.getLast?) :
    (addLine tokens line).reverse =
      front.reverse ++ if s.getLast? = some '\n' then [.text s, .lineStart] else [.text s] := by
  rw [addLine_eq, h, hlast]
  split <;> simp

theorem lined_addLine {tokens : List Token} {line : List Char} (h : Token.Lined tokens.reverse)
    (hline : Text.IsLine line) : Token.Lined (addLine tokens line).reverse := by
  by_cases htext : ∃ p front, tokens = .text p :: front
  · obtain ⟨p, front, rfl⟩ := htext
    rw [List.reverse_cons] at h
    obtain ⟨hfront, -, hp, hlast⟩ := h.of_concat_text
    have hend : line.getLast? = (p ++ line).getLast? := by
      simp [List.getLast?_eq_some_getLast hline.ne_nil]
    rw [reverse_addLine rfl hend]
    refine hfront.append (.of_line (hline.append hp)) fun s t hs => ?_
    exact absurd hs (hlast s)
  · have hextend : extendText tokens line = .text line :: tokens := by
      unfold extendText
      split
      · exact absurd ⟨_, _, rfl⟩ htext
      · rfl
    rw [reverse_addLine hextend rfl]
    refine h.append (.of_line hline) fun s t hs => ?_
    rw [List.getLast?_reverse] at hs
    obtain ⟨front, hfront⟩ := List.head?_eq_some_iff.1 hs
    exact absurd ⟨s, front, hfront⟩ htext

private theorem lined_foldl_addLine {lines : List (List Char)} {tokens : List Token}
    (hlines : ∀ line ∈ lines, Text.IsLine line) (h : Token.Lined tokens.reverse) :
    Token.Lined (lines.foldl addLine tokens).reverse := by
  induction lines generalizing tokens with
  | nil => exact h
  | cons line lines ih =>
    exact ih (fun l hl => hlines l (by simp [hl])) (lined_addLine h (hlines line (by simp)))

/-- The lists of a tree in the making are lined, the outermost one after the mark that it begins
with. -/
def LinedStack : List Token → List OpenSection → Prop
  | tokens, [] => ∃ inner, tokens = inner ++ [.lineStart] ∧ Token.Lined inner.reverse
  | tokens, s :: outer => Token.Lined tokens.reverse ∧ LinedStack s.before outer

theorem LinedStack.update {f : List Token → List Token} {tokens : List Token}
    {sections : List OpenSection} (h : LinedStack tokens sections)
    (hf : ∀ ts, Token.Lined ts.reverse → Token.Lined (f ts).reverse)
    (hbase : ∀ ts, f (ts ++ [.lineStart]) = f ts ++ [.lineStart]) :
    LinedStack (f tokens) sections := by
  cases sections with
  | nil =>
    obtain ⟨inner, rfl, hinner⟩ := h
    exact ⟨f inner, hbase inner, hf inner hinner⟩
  | cons s outer => exact ⟨hf tokens h.1, h.2⟩

private theorem foldl_addLine_concat (lines : List (List Char)) (tokens : List Token) :
    lines.foldl addLine (tokens ++ [.lineStart]) =
      lines.foldl addLine tokens ++ [.lineStart] := by
  induction lines generalizing tokens with
  | nil => rfl
  | cons line lines ih =>
    have hline : addLine (tokens ++ [.lineStart]) line = addLine tokens line ++ [.lineStart] := by
      rw [addLine_eq, addLine_eq]
      match tokens with
      | [] => split <;> rfl
      | token :: rest => cases token <;> split <;> rfl
    rw [List.foldl_cons, hline, ih, List.foldl_cons]

theorem LinedStack.addText {n : Nesting} (h : LinedStack n.tokens n.sections) (text : List Char) :
    LinedStack (n.addText text).tokens n.sections :=
  h.update (fun _ hts => lined_foldl_addLine (fun _ => Text.isLine_of_mem_splitLines) hts)
    (foldl_addLine_concat _)

private theorem LinedStack.addToken {n : Nesting} {token : Token}
    (h : LinedStack n.tokens n.sections) (htoken : Token.Lined [token])
    (hnot : ∀ t, token ≠ .text t) : LinedStack (token :: n.tokens) n.sections := by
  refine h.update (fun ts hts => ?_) (fun ts => rfl)
  rw [List.reverse_cons]
  exact hts.append htoken fun _ t _ hj => hnot t (by simpa using hj)

theorem LinedStack.adds {source : List Char} {n after : Nesting} {l : Lexeme}
    (h : LinedStack n.tokens n.sections) (hadds : Adds source n l after)
    (hindent : ∀ c ∈ l.indent, Text.isBlank c = true) :
    LinedStack after.tokens after.sections := by
  cases hadds with
  | value => exact h.addToken (.value .nil) (by simp)
  | opens => exact ⟨.nil, h⟩
  | closes s outer _ hs =>
    rw [hs] at h
    exact LinedStack.addToken (n := ⟨s.before, outer⟩) h.2 (.block h.1 .nil) (by simp [closedSection])
  | embed => exact h.addToken (.embed hindent .nil) (by simp)
  | skips => exact h

end Nesting

namespace Token

/-- A tree that is read from a source begins with a mark, and is lined after it. -/
theorem exists_lined_of_parse [Alphabet] {d : Delimiters} {source : List Char} {tokens : List Token}
    (h : parse d source = .ok tokens) : ∃ rest, tokens = .lineStart :: rest ∧ Lined rest := by
  obtain ⟨n, tail, closing, hn, -, hs, rfl⟩ := Nesting.exists_of_ofLexemes h
  have hblank := Lexeme.forall_readAll (P := fun l => ∀ c ∈ l.indent, Text.isBlank c = true)
    (fun _ _ _ _ _ _ _ _ hl => hl.isBlank_indent) _ (Cursor.settled_start d source)
    (Cursor.source_start d source)
  have hstart : Nesting.LinedStack Nesting.empty.tokens Nesting.empty.sections := ⟨[], rfl, .nil⟩
  have hlined := Nesting.invariant_foldlM (P := fun n => Nesting.LinedStack n.tokens n.sections)
    (fun l hl n after hstack hadds => (hstack.addText l.text).adds hadds (hblank l hl)) hstart hn
  have htail := hlined.addText tail
  rw [hs] at htail
  obtain ⟨inner, hinner, hl⟩ := htail
  exact ⟨inner.reverse, by simp [hinner], hl⟩

end Token

end LogicLess
