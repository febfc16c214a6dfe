import LogicLess.Proofs.Token.LiteralText
import LogicLess.Proofs.Token.SectionParts
import LogicLess.Proofs.Token.Structure
import LogicLess.Text.IdentifierTable

/-!
# The raw text of a section

A section keeps the source between its tags, so that it can be parsed again by itself. Cut out of its
template, that source gives the body of the section again, up to white space.
-/

namespace LogicLess

namespace Token

mutual

/-- A token in front of a list of tokens, with white space in its texts, marks of lines, and all that
tells of its place in a source left out. -/
def condenseOnto : Token → List Token → List Token
  | .text s, rest => joinText (Text.dense s) rest
  | .lineStart, rest => rest
  | .value path escaped, rest => .value path escaped :: rest
  | .block path inverted body _ delimiters _, rest =>
    .block path inverted (condenseAll body) [] delimiters ⟨0, 0⟩ :: rest
  | .embed name _, rest => .embed name [] :: rest
termination_by structural token => token

/-- The tokens without white space in their texts, without marks of lines, and without what tells of
their place in a source. Texts that meet become one, and empty ones are left out. -/
def condenseAll : List Token → List Token
  | [] => []
  | token :: rest => condenseOnto token (condenseAll rest)
termination_by structural tokens => tokens

end

theorem condenseAll_eq_foldr (tokens : List Token) :
    condenseAll tokens = tokens.foldr condenseOnto [] := by
  induction tokens with
  | nil => rfl
  | cons token rest ih => rw [condenseAll, ih, List.foldr_cons]

end Token

namespace Nesting

open Token (condenseOnto condenseAll joinText)

variable {source source' : List Char}

def condense (tokens rest : List Token) : List Token :=
  tokens.foldl (fun rest token => condenseOnto token rest) rest

theorem condenseAll_reverse (tokens : List Token) :
    condenseAll tokens.reverse = condense tokens [] := by
  rw [Token.condenseAll_eq_foldr, List.foldr_reverse, condense]

theorem condense_append (tokens more rest : List Token) :
    condense (tokens ++ more) rest = condense more (condense tokens rest) := List.foldl_append ..

theorem condense_addLines (tokens : List Token) (text : List Char) (rest : List Token) :
    condense (addLines tokens text) rest = condense tokens (joinText (Text.dense text) rest) := by
  have hline : ∀ (tokens : List Token) (line : List Char) (rest : List Token),
      condense (addLine tokens line) rest = condense tokens (joinText (Text.dense line) rest) := by
    intro tokens line rest
    have hextend : condense (extendText tokens line) rest =
        condense tokens (joinText (Text.dense line) rest) := by
      unfold extendText
      split
      · simp only [condense, List.foldl_cons, condenseOnto, Text.dense_append,
          Token.joinText_append]
      · rfl
    rw [addLine_eq]
    split <;> exact hextend
  have hlines : ∀ (lines : List (List Char)) (tokens : List Token),
      condense (lines.foldl addLine tokens) rest =
        condense tokens (joinText (Text.dense lines.flatten) rest) := by
    intro lines
    induction lines with
    | nil => exact fun tokens => rfl
    | cons line lines ih =>
      intro tokens
      rw [List.foldl_cons, ih, hline, List.flatten_cons, Text.dense_append, Token.joinText_append]
  rw [addLines, hlines, Text.flatten_splitLines]

variable {l l' : Lexeme} {tokens tokens' : List Token} {n : Nat}

private theorem condense_token? (htag : l.tag = l'.tag.shift n) (rest : List Token) :
    condense l.token?.toList rest = condense l'.token?.toList rest := by
  have hsigil : (l'.tag.shift n).sigil = l'.tag.sigil := rfl
  have hcontent : (l'.tag.shift n).content = l'.tag.content := rfl
  simp only [Lexeme.token?, htag, hsigil, hcontent]
  cases l'.tag.sigil <;> rfl

private theorem condense_cons_closedSection (s : OpenSection) (body : List Token) (tag : Tag)
    (tokens rest : List Token) :
    condense (closedSection source s body tag :: tokens) rest =
      condense tokens (.block (.ofKey s.tag.content) (s.tag.sigil == .caret) (condense body []) []
        tag.delimiters ⟨0, 0⟩ :: rest) := by
  rw [condense, List.foldl_cons, closedSection, condenseOnto, condenseAll_reverse]
  rfl

/-- Lexemes with the same tags, but for their place, and the same text, but for white space, grow trees
that are condensed to the same one. -/
theorem Grows.exists_condense_eq {ls ls' : List Lexeme} {out : List Token}
    (h : Grows source ls tokens out)
    (hls : ls.map (fun l => (Text.dense l.text, l.tag)) =
      ls'.map fun l => (Text.dense l.text, l.tag.shift n))
    (htokens : condense tokens = condense tokens') :
    ∃ out', Grows source' ls' tokens' out' ∧ condense out = condense out' := by
  have hadd : ∀ {l l' : Lexeme} {tokens tokens' : List Token},
      Text.dense l.text = Text.dense l'.text → condense tokens = condense tokens' →
        condense (addLines tokens l.text) = condense (addLines tokens' l'.text) := by
    intro l l' tokens tokens' htext htokens
    funext rest
    rw [condense_addLines, condense_addLines, htext, htokens]
  -- The second growth is built along the first: of a lexeme only its tag and its text matter to it.
  induction h generalizing ls' tokens' with
  | nil =>
    rw [eq_comm, List.map_nil, List.map_eq_nil_iff] at hls
    exact ⟨tokens', hls ▸ .nil, htokens⟩
  | @leaf l rest tokens out hopen hclose _ ih =>
    obtain ⟨l', rest', rfl, hl, hrest⟩ := List.map_eq_cons_iff.1 hls.symm
    obtain ⟨htext, htag⟩ := Prod.mk.inj hl.symm
    have hleaf : condense (l.token?.toList ++ addLines tokens l.text) =
        condense (l'.token?.toList ++ addLines tokens' l'.text) := by
      funext rest
      rw [condense_append, condense_append, condense_token? htag, hadd htext htokens]
    obtain ⟨out', hout, hcondense⟩ := ih hrest.symm hleaf
    rw [htag] at hopen hclose
    exact ⟨out', .leaf hopen hclose hout, hcondense⟩
  | @block first last body rest tokens inner out hopen hclose hkey _ _ ihbody ih =>
    rw [List.map_cons, List.map_append, List.map_cons] at hls
    obtain ⟨first', more, rfl, hfirst, hmore⟩ := List.map_eq_cons_iff.1 hls.symm
    obtain ⟨body', more, rfl, hbody, hmore⟩ := List.map_eq_append_iff.1 hmore
    obtain ⟨last', rest', rfl, hlast, hrest⟩ := List.map_eq_cons_iff.1 hmore
    obtain ⟨hfirst, htag⟩ := Prod.mk.inj hfirst.symm
    obtain ⟨hlast, htag'⟩ := Prod.mk.inj hlast.symm
    obtain ⟨inner', hinner, hsame⟩ := ihbody hbody.symm (show condense [] = condense [] from rfl)
    have hblock : condense (closedSection source
          ⟨first.tag, first.resume, addLines tokens first.text⟩ (addLines inner last.text) last.tag ::
            addLines tokens first.text) =
        condense (closedSection source'
          ⟨first'.tag, first'.resume, addLines tokens' first'.text⟩ (addLines inner' last'.text)
            last'.tag :: addLines tokens' first'.text) := by
      funext rest
      rw [condense_cons_closedSection, condense_cons_closedSection, hadd hfirst htokens,
        hadd hlast hsame, htag, htag']
      rfl
    obtain ⟨out', hout, hcondense⟩ := ih hrest.symm hblock
    rw [htag] at hopen hkey
    rw [htag'] at hclose hkey
    exact ⟨out', .block hopen hclose hkey hinner hout, hcondense⟩

end Nesting

namespace Token

/-- The raw text of a section in which the delimiters do not change gives the body of the section, up to
white space. -/
theorem exists_parse_raw [Alphabet] {d closing : Delimiters} {source raw : List Char}
    {tokens body : List Token} {path : Path} {inverted : Bool} {region : Region}
    (h : parse d source = .ok tokens)
    (hmem : .block path inverted body raw closing region ∈ allNodes tokens)
    (hfixed : ∀ tag ∈ tags d source, tag.sigil = .equals →
      ¬ (region.start ≤ tag.region.start ∧ tag.region.stop ≤ region.stop)) :
    ∃ inner, parse closing raw = .ok inner ∧ condenseAll inner = condenseAll body := by
  have hordered := ordered_tags d source
  rw [← (map_tag_readAll d source).1] at hordered
  have hsettled := Cursor.settled_start d source
  rcases hread : Lexeme.readAll (.start d source) with ⟨ls, ending⟩
  rw [parse, hread] at h
  rw [tags, hread] at hfixed
  rw [hread] at hordered
  obtain ⟨out, text, d', -, hgrows, rfl⟩ := ofLexemes_eq_ok_iff.1 h
  rw [mem_allNodes_reverse, Nesting.block_mem_allNodes_addLines] at hmem
  rcases hgrows.isSection_of_mem hmem with hmem | hsection
  · simp [allNodes, nodes] at hmem
  generalize htoken : Token.block path inverted body raw closing region = token at hsection
  cases hsection with
  | @intro front before first last inside rest inner hinside =>
    rw [Nesting.closedSection, Token.block.injEq] at htoken
    obtain ⟨-, -, rfl, hraw, rfl, hregion⟩ := htoken
    rw [List.map_append, List.map_cons, List.map_append, List.map_cons] at hordered
    obtain ⟨hjoin, hbetween⟩ := (hordered.sublist (List.sublist_append_right _ _)).join_eq
    have hsame : ∀ l ∈ inside, l.tag.sigil ≠ .equals := by
      intro l hl hsigil
      have hmem : l.tag ∈ (front ++ first :: (inside ++ last :: rest)).map Lexeme.tag :=
        List.mem_map_of_mem (by simp [hl])
      refine hfixed l.tag hmem hsigil ?_
      rw [hregion, hjoin]
      exact hbetween l.tag (List.mem_map_of_mem hl)
    obtain ⟨n, ls, text', hpiece, htext, hview⟩ :=
      Lexeme.exists_readAll_between hsettled hread hsame
    rw [Cursor.source_start] at hpiece
    obtain ⟨inner', hinner, hcondense⟩ := hinside.exists_condense_eq hview
      (show Nesting.condense [] = Nesting.condense [.lineStart] from rfl)
    refine ⟨(Nesting.addLines inner' text').reverse, ?_, ?_⟩
    · rw [parse, hraw, hpiece]
      exact ofLexemes_eq_ok_iff.2 ⟨inner', text', _, rfl, hinner, rfl⟩
    · rw [Nesting.condenseAll_reverse, Nesting.condenseAll_reverse, Nesting.condense_addLines,
        Nesting.condense_addLines, htext, hcondense]

def isSectionAt (region : Region) (raw : List Char) : Token → Bool
  | .block _ _ _ raw' _ region' => region' == region && raw' == raw
  | _ => false

/-- Sections on lines of their own, after a change of delimiters. -/
theorem exists_parse_raw_nested :
    let d : Delimiters := ⟨['<', '%'], ['%', '>'], by decide, by decide⟩
    let source := "<%=[[ ]]=%>\n[[#a]]\n [[^b]] x\n [[>p]]\n[[/b]]\t[[/a]]\n".toList
    ∃ tokens path inverted body raw closing region, parse d source = .ok tokens ∧
      .block path inverted body raw closing region ∈ allNodes tokens ∧
      (∀ tag ∈ tags d source, tag.sigil = .equals →
        ¬ (region.start ≤ tag.region.start ∧ tag.region.stop ≤ region.stop)) ∧
      raw = " [[^b]] x\n [[>p]]\n[[/b]]\t".toList ∧
      ∃ inner, parse closing raw = .ok inner ∧ condenseAll inner = condenseAll body := by
  intro d source
  have hfind : (parse d source).toOption.any (fun tokens => (allNodes tokens).any
      (isSectionAt ⟨12, 50⟩ " [[^b]] x\n [[>p]]\n[[/b]]\t".toList)) = true := by decide +kernel
  cases h : parse d source with
  | error fault =>
    rw [h] at hfind
    cases hfind
  | ok tokens =>
    rw [h] at hfind
    obtain ⟨token, hmem, htoken⟩ := List.any_eq_true.1 hfind
    cases token with
    | block path inverted body raw closing region =>
      simp only [isSectionAt, Bool.and_eq_true, beq_iff_eq] at htoken
      obtain ⟨rfl, rfl⟩ := htoken
      have hfixed : ∀ tag ∈ tags d source, tag.sigil = .equals →
          ¬ (12 ≤ tag.region.start ∧ tag.region.stop ≤ 50) := by decide +kernel
      exact ⟨tokens, path, inverted, body, _, closing, _, rfl, hmem, hfixed, rfl,
        exists_parse_raw h hmem hfixed⟩
    | _ => cases htoken

end Token

end LogicLess
