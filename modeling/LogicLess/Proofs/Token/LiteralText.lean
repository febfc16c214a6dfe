import LogicLess.Proofs.Lexeme.Reading
import LogicLess.Proofs.Region
import LogicLess.Proofs.Token.Growth
import LogicLess.Text.IdentifierTable

/-!
# The literal text of a template

The text tokens of a tree, in the order of the template, hold the source without its tags: of each tag
a region is removed, which is the tag, or the whole of its line if it is no value tag and alone there.
Nothing else is lost, and nothing is moved or written twice.
-/

namespace LogicLess

namespace Tag

/-- The region of the source that a tag keeps out of the text of a template. -/
def removed (source : List Char) (tag : Tag) : Region :=
  match Text.splitAtByte? tag.region.start source, Text.splitAtByte? tag.region.stop source with
  | some (before, _), some (_, after) =>
    if tag.sigil.mayStandAlone && Text.isAlone before after then
      ⟨tag.region.start - Text.byteSize (Text.lastLine before),
        tag.region.stop + Text.byteSize ((Text.blankLineEnd? after).getD [])⟩
    else tag.region
  | _, _ => tag.region

end Tag

namespace Token

mutual

/-- The text in a token. That of a section is the text in its body. -/
def literal : Token → List Char
  | .text t => t
  | .block _ _ body _ _ _ => literalAll body
  | .lineStart | .value _ _ | .embed _ _ => []
termination_by structural token => token

def literalAll : List Token → List Char
  | [] => []
  | token :: rest => literal token ++ literalAll rest
termination_by structural tokens => tokens

end

/-- The tags that a source is scanned into. -/
def tags [Alphabet] (delimiters : Delimiters) (source : List Char) : List Tag :=
  (Lexeme.readAll (.start delimiters source)).1.map Lexeme.tag

@[simp] theorem literalAll_append (xs ys : List Token) :
    literalAll (xs ++ ys) = literalAll xs ++ literalAll ys := by
  induction xs with
  | nil => rfl
  | cons x xs ih => simp [literalAll, ih]

end Token

namespace Nesting

/-- The text that a tree in the making holds before its innermost list. -/
def outerLiteral : List OpenSection → List Char
  | [] => []
  | s :: outer => outerLiteral outer ++ Token.literalAll s.before.reverse

def literal (n : Nesting) : List Char :=
  outerLiteral n.sections ++ Token.literalAll n.tokens.reverse

private theorem literalAll_addLine (tokens : List Token) (line : List Char) :
    Token.literalAll (addLine tokens line).reverse = Token.literalAll tokens.reverse ++ line := by
  have h : Token.literalAll (extendText tokens line).reverse =
      Token.literalAll tokens.reverse ++ line := by
    unfold extendText
    split <;> simp [Token.literalAll, Token.literal]
  rw [addLine_eq]
  split
  · simpa [Token.literalAll, Token.literal] using h
  · exact h

theorem literal_addText (n : Nesting) (text : List Char) :
    (n.addText text).literal = n.literal ++ text := by
  have h : ∀ (lines : List (List Char)) (tokens : List Token),
      Token.literalAll (lines.foldl addLine tokens).reverse =
        Token.literalAll tokens.reverse ++ lines.flatten := by
    intro lines
    induction lines with
    | nil => simp
    | cons line lines ih =>
      intro tokens
      rw [List.foldl_cons, ih, literalAll_addLine, List.flatten_cons, List.append_assoc]
  simp only [literal, addText, h, Text.flatten_splitLines, List.append_assoc]

theorem Adds.literal_eq {source : List Char} {n after : Nesting} {l : Lexeme}
    (h : Adds source n l after) : after.literal = n.literal := by
  cases h with
  | value | embed => simp [literal, addToken, Token.literalAll, Token.literal]
  | opens => simp [literal, openSection, outerLiteral, Token.literalAll]
  | closes s outer _ hs =>
    simp [literal, hs, outerLiteral, closedSection, Token.literalAll, Token.literal]
  | skips => rfl

theorem literal_foldlM {source : List Char} {lexemes : List Lexeme} {n after : Nesting}
    (h : lexemes.foldlM (addLexeme source) n = .ok after) :
    after.literal = n.literal ++ lexemes.flatMap Lexeme.text := by
  induction lexemes generalizing n with
  | nil => simp [Except.ok.inj h]
  | cons l lexemes ih =>
    obtain ⟨middle, hadds, hrest⟩ := adds_of_foldlM_cons h
    rw [ih hrest, hadds.literal_eq, literal_addText]
    simp

end Nesting

namespace Token

theorem literalAll_of_ofLexemes {source : List Char} {lexemes : List Lexeme} {ending : Ending}
    {tokens : List Token} (h : ofLexemes source lexemes ending = .ok tokens) :
    ∃ tail d, ending = .complete tail d ∧
      literalAll tokens = lexemes.flatMap Lexeme.text ++ tail := by
  obtain ⟨n, tail, d, hn, hending, hs, rfl⟩ := Nesting.exists_of_ofLexemes h
  refine ⟨tail, d, hending, ?_⟩
  have htail := n.literal_addText tail
  rw [Nesting.literal_foldlM hn] at htail
  simpa [Nesting.literal, Nesting.addText, hs, Nesting.outerLiteral, Nesting.empty, literalAll,
    literal] using htail

end Token

namespace Lexeme

variable {l : Lexeme} {c next : Cursor} {before tagText tail after source : List Char}

private theorem Spans.split_source (h : l.Spans c next before tagText tail after)
    (hsource : c.source = source) :
    source = (c.seen.reverse ++ before) ++ (tagText ++ after) ∧
      c.offset + Text.byteSize before = Text.byteSize (c.seen.reverse ++ before) := by
  refine ⟨by rw [← hsource, Cursor.source, h.rest_eq, List.append_assoc], ?_⟩
  rw [c.offset_eq]
  simp

theorem Spans.removed_eq (h : l.Spans c next before tagText tail after)
    (hsource : c.source = source) :
    l.tag.removed source = ⟨c.offset + Text.byteSize l.text, next.offset⟩ := by
  obtain ⟨hsplit, hsize⟩ := h.split_source hsource
  have hstart : Text.splitAtByte? l.tag.region.start source =
      some (c.seen.reverse ++ before, tagText ++ after) := by
    rw [h.region_eq, hsize, hsplit, Text.splitAtByte?_append]
  have hstop : Text.splitAtByte? l.tag.region.stop source =
      some (c.seen.reverse ++ before ++ tagText, after) := by
    rw [h.region_eq, hsize, ← Text.byteSize_append, hsplit, ← List.append_assoc,
      Text.splitAtByte?_append]
  have hline := h.line
  have hoffset := h.passes.offset_eq
  have hbefore := congrArg Text.byteSize h.before_eq
  simp only [Text.byteSize_append] at hoffset hbefore
  simp only [Tag.removed, hstart, hstop]
  split at hline
  · next halone =>
    rw [if_pos halone, ← hline.2, hline.1, h.region_eq, Region.mk.injEq]
    simp only [Option.getD_some]
    omega
  · next halone =>
    rw [if_neg halone, h.region_eq, Region.mk.injEq]
    rw [hline.2] at hbefore
    rw [hline.1] at hoffset
    simp only [Text.byteSize] at hbefore hoffset
    omega

private theorem Spans.outside_eq (h : l.Spans c next before tagText tail after)
    {regions : List Region} (hlater : ∀ r ∈ regions, next.offset ≤ r.start) :
    Region.outside (⟨c.offset + Text.byteSize l.text, next.offset⟩ :: regions) c.offset c.rest =
      l.text ++ Region.outside regions next.offset next.rest := by
  have hrest : c.rest = l.text ++ ((l.indent ++ (tagText ++ tail)) ++ next.rest) := by
    rw [h.passes.rest_eq, h.before_eq]
    simp
  have hbefore : ∀ r ∈ (⟨c.offset + Text.byteSize l.text, next.offset⟩ : Region) :: regions,
      c.offset + Text.byteSize l.text ≤ r.start := by
    intro r hr
    rcases List.mem_cons.1 hr with rfl | hr
    · exact Nat.le_refl _
    · exact Nat.le_trans (Nat.le_of_lt h.offset_lt) (hlater r hr)
  rw [hrest, Region.outside_append, Region.outside_of_before hbefore, Region.outside_append,
    Region.outside_of_covered List.mem_cons_self (Nat.le_refl _) (Nat.le_of_eq h.offset_eq.symm),
    ← h.offset_eq, Region.outside_cons_of_after (Nat.le_refl _), List.nil_append]

/-- The text of the lexemes from a cursor on, and of what follows them, is what the regions of their
tags leave of the source. These regions follow one another. -/
theorem outside_readAll [Alphabet] {d : Delimiters} (c : Cursor) (hc : c.Settled)
    (hsource : c.source = source) (hend : (readAll c).2 = .complete tail d) :
    let regions := (readAll c).1.map fun l => l.tag.removed source
    (readAll c).1.flatMap text ++ tail = Region.outside regions c.offset c.rest ∧
      regions.Pairwise (fun r s => r.stop ≤ s.start) ∧
      ∀ r ∈ regions, c.offset ≤ r.start ∧ r.start < r.stop ∧ r.stop ≤ Text.byteSize source := by
  induction c using readAll.induct with
  | case1 c fault h =>
    rw [readAll_of_error h] at hend
    simp at hend
  | case2 c h =>
    rw [readAll_of_none h] at hend ⊢
    simp only [Ending.complete.injEq] at hend
    simp [← hend.1, Region.outside_of_before]
  | case3 c l next h _ _ _ ih =>
    obtain ⟨before, tagText, rest, after, hspans⟩ := exists_spans_of_read? hc h
    have hnext : next.source = source := hspans.passes.source_eq.trans hsource
    rw [readAll_of_some h] at hend ⊢
    obtain ⟨htext, hpairwise, hbounds⟩ := ih hspans.settled hnext hend
    have hlater := fun r hr => (hbounds r hr).1
    have hle := Cursor.offset_le_of_source_eq hnext
    have hlt := hspans.offset_lt
    simp only [List.map_cons, hspans.removed_eq hsource, List.flatMap_cons, List.append_assoc]
    refine ⟨?_, List.pairwise_cons.2 ⟨hlater, hpairwise⟩, ?_⟩
    · rw [hspans.outside_eq hlater, htext]
    · intro r hr
      rcases List.mem_cons.1 hr with rfl | hr
      · exact ⟨Nat.le_add_right _ _, hlt, hle⟩
      · have := hbounds r hr
        omega

private theorem Spans.slice?_eq (h : l.Spans c next before tagText tail after)
    (hsource : c.source = source) : ∃ inner, l.tag.region.slice? source =
      some (l.tag.delimiters.opening ++ inner ++ l.tag.delimiters.closing) := by
  obtain ⟨inner, hinner⟩ := h.tag_eq
  obtain ⟨hsplit, hsize⟩ := h.split_source hsource
  refine ⟨inner, ?_⟩
  rw [h.region_eq, hsize, h.delimiters_eq, ← hinner, hsplit, Region.slice?_append]

end Lexeme

namespace Token

/-- The text tokens of a template hold its source except for one region for each tag: the tag, from
its opening through its closing delimiter, or its line. The regions do not overlap. -/
theorem literalAll_parse [Alphabet] {d : Delimiters} {source : List Char} {tokens : List Token}
    (h : parse d source = .ok tokens) :
    let regions := (tags d source).map (Tag.removed source)
    literalAll tokens = Region.outside regions 0 source ∧
      regions.Pairwise (fun r s => r.stop ≤ s.start) ∧
      (∀ r ∈ regions, r.start < r.stop ∧ r.stop ≤ Text.byteSize source) ∧
      ∀ tag ∈ tags d source, ∃ inner,
        tag.region.slice? source = some (tag.delimiters.opening ++ inner ++ tag.delimiters.closing) := by
  obtain ⟨tail, closing, hend, htext⟩ := literalAll_of_ofLexemes h
  have hstart := Cursor.settled_start d source
  obtain ⟨houtside, hpairwise, hbounds⟩ :=
    Lexeme.outside_readAll (.start d source) hstart (Cursor.source_start d source) hend
  have hregions : (tags d source).map (Tag.removed source) =
      (Lexeme.readAll (.start d source)).1.map fun l => l.tag.removed source := by
    rw [tags, List.map_map]
    rfl
  rw [hregions]
  refine ⟨htext.trans houtside, hpairwise, fun r hr => (hbounds r hr).2, ?_⟩
  intro tag htag
  obtain ⟨l, hl, rfl⟩ := List.mem_map.1 htag
  exact Lexeme.forall_readAll (fun _ _ _ _ _ _ _ hsource h => h.slice?_eq hsource) _ hstart
    (Cursor.source_start d source) l hl

/-- A template with lines that tags remove, a comment over two lines and a change of delimiters. -/
theorem literalAll_parse_lines :
    let d : Delimiters := ⟨['<', '%'], ['%', '>'], by decide, by decide⟩
    let source := "a\n <%#s%> \r\n b <%!x\ny%>\n<%/s%>\n<%=| |=%>c |d|".toList
    ∃ tokens, parse d source = .ok tokens ∧ literalAll tokens = "a\n b \nc ".toList := by
  intro d source
  have hok : (parse d source).isOk = true := by decide +kernel
  cases h : parse d source with
  | error fault =>
    rw [h] at hok
    simp [Except.isOk, Except.toBool] at hok
  | ok tokens => exact ⟨tokens, rfl, (literalAll_parse h).1.trans (by decide +kernel)⟩

end Token

end LogicLess
