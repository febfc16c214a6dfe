import LogicLess.Proofs.Lexeme.Outline
import LogicLess.Proofs.Token.Sections

/-!
# The structure of a template

A source is a template just if its tags can be read and are properly nested. The tree then has the values,
the other templates and the sections that the tags tell of, in their order. Otherwise the fault that comes
first in the source is reported.
-/

namespace LogicLess

/-- What a tag contributes to the structure of a template. -/
inductive Mark
  | value (path : Path) (escaped : Bool)
  | embed (name : String)
  /-- The beginning of a section, whose open tag begins at `start`. -/
  | opens (path : Path) (inverted : Bool) (start : Nat)
  /-- The end of a section, whose close tag ends at `stop`. -/
  | closes (path : Path) (stop : Nat)

/-- The mark of a tag. Comments and changes of delimiters leave none. -/
def Tag.mark? (tag : Tag) : Option Mark :=
  match tag.sigil with
  | .plain => some (.value (.ofKey tag.content) true)
  | .brace | .ampersand => some (.value (.ofKey tag.content) false)
  | .angle => some (.embed (String.ofList tag.content))
  | .pound => some (.opens (.ofKey tag.content) false tag.region.start)
  | .caret => some (.opens (.ofKey tag.content) true tag.region.start)
  | .slash => some (.closes (.ofKey tag.content) tag.region.stop)
  | .equals | .bang => none

namespace Token

mutual

/-- The marks of a token. Those of a section stand around those of its body. -/
def marks : Token → List Mark
  | .text _ | .lineStart => []
  | .value path escaped => [.value path escaped]
  | .block path inverted body _ _ region =>
    .opens path inverted region.start :: allMarks body ++ [.closes path region.stop]
  | .embed name _ => [.embed name]
termination_by structural token => token

def allMarks : List Token → List Mark
  | [] => []
  | token :: rest => marks token ++ allMarks rest
termination_by structural tokens => tokens

end

@[simp] theorem allMarks_append (xs ys : List Token) :
    allMarks (xs ++ ys) = allMarks xs ++ allMarks ys := by
  induction xs with
  | nil => rfl
  | cons x xs ih => simp [allMarks, ih]

end Token

namespace Nesting

variable {source : List Char}

theorem allMarks_addLines (tokens : List Token) (text : List Char) :
    Token.allMarks (addLines tokens text).reverse = Token.allMarks tokens.reverse := by
  refine addLines_invariant (f := fun tokens => Token.allMarks tokens.reverse) ?_ tokens text
  intro tokens line
  rw [addLine_eq, extendText.eq_def]
  split <;> split <;> simp [Token.allMarks, Token.marks]

theorem allMarks_token? {l : Lexeme} (hopen : l.tag.sigil.opensSection = false)
    (hclose : l.tag.sigil ≠ .slash) :
    Token.allMarks l.token?.toList.reverse = l.tag.mark?.toList := by
  cases h : l.tag.sigil <;> simp [h, Sigil.opensSection] at hopen hclose <;>
    simp [Lexeme.token?, Tag.mark?, h, Token.allMarks, Token.marks]

theorem Grows.allMarks_eq {ls : List Lexeme} {tokens out : List Token}
    (h : Grows source ls tokens out) (hordered : Tag.Ordered (ls.map Lexeme.tag)) :
    Token.allMarks out.reverse =
      Token.allMarks tokens.reverse ++ (ls.map Lexeme.tag).filterMap Tag.mark? := by
  induction h with
  | nil => simp
  | @leaf l rest tokens out hopen hclose _ ih =>
    rw [ih (hordered.sublist (by simp)), List.reverse_append, Token.allMarks_append,
      allMarks_addLines, allMarks_token? hopen hclose, List.append_assoc, List.map_cons,
      List.filterMap_cons]
    cases l.tag.mark? <;> rfl
  | @block first last body rest tokens inner out hopen hclose hkey _ _ ihbody ih =>
    rw [List.map_cons, List.map_append, List.map_cons] at hordered
    have hbody := ihbody hordered.inside
    have hrest := ih (hordered.behind.sublist (List.sublist_cons_self _ _))
    have hfirst : first.tag.mark? = some (.opens (.ofKey first.tag.content)
        (first.tag.sigil == .caret) first.tag.region.start) := by
      cases hs : first.tag.sigil <;> simp [hs, Sigil.opensSection] at hopen <;> simp [Tag.mark?, hs]
    have hlast : last.tag.mark? =
        some (.closes (.ofKey first.tag.content) last.tag.region.stop) := by
      simp [Tag.mark?, hclose, hkey]
    rw [hrest, List.reverse_cons, Token.allMarks_append, allMarks_addLines]
    simp only [closedSection, Token.allMarks, Token.marks, hordered.join_eq.1, allMarks_addLines,
      hbody, List.map_cons, List.map_append, List.filterMap_cons, List.filterMap_append, hfirst,
      hlast]
    simp [Token.allMarks]

end Nesting

namespace Token

variable {d : Delimiters} {source : List Char}

private theorem ofLexemes_eq_error_of_addLexeme {front rest : List Lexeme} {l : Lexeme} {n : Nesting}
    {ending : Ending} {fault : Fault}
    (hfront : front.foldlM (Nesting.addLexeme source) Nesting.empty = .ok n)
    (hl : Nesting.addLexeme source n l = .error fault) :
    ofLexemes source (front ++ l :: rest) ending = .error fault := by
  rw [ofLexemes, List.foldlM_append, hfront]
  change ((l :: rest).foldlM (Nesting.addLexeme source) n >>= _) = _
  rw [List.foldlM_cons, hl]
  rfl

theorem ofLexemes_eq_error_iff {ls : List Lexeme} {ending : Ending} {fault : Fault} :
    ofLexemes source ls ending = .error fault ↔
      Tag.FirstFault (ls.map Lexeme.tag) ending fault := by
  constructor
  · intro h
    rcases hfold : ls.foldlM (Nesting.addLexeme source) Nesting.empty with fault' | n
    · rw [ofLexemes, hfold] at h
      cases h
      obtain ⟨front, l, rest, middle, rfl, hfront, hl⟩ := Nesting.exists_of_foldlM_eq_error hfold
      have hpending := ((Nesting.Stacked.closed .nil).of_foldlM hfront).pending
      obtain ⟨hclose, hcause⟩ := Nesting.addLexeme_eq_error_iff.1 hl
      rw [List.map_append, List.map_cons]
      rcases hcause with ⟨hsections, rfl⟩ | ⟨s, outer, hsections, hkey, rfl⟩
      · rw [hsections] at hpending
        exact .unopened hpending.nested_of_nil hclose
      · rw [hsections] at hpending
        exact .mismatched hpending hclose hkey
    · have hpending := ((Nesting.Stacked.closed .nil).of_foldlM hfold).pending
      rw [ofLexemes, hfold] at h
      cases ending with
      | broken fault' =>
        cases h
        exact .unreadable hpending
      | complete text d =>
        obtain ⟨tokens, sections⟩ := n
        cases sections with
        | nil => cases h
        | cons s outer =>
          cases h
          exact .unclosed hpending
  · intro h
    generalize htags : ls.map Lexeme.tag = tags at h
    cases h with
    | @unopened front tag rest _ hnested hclose =>
      obtain ⟨ls, more, rfl, hls, hmore⟩ := List.map_eq_append_iff.1 htags
      obtain ⟨l, more, rfl, rfl, -⟩ := List.map_eq_cons_iff.1 hmore
      obtain ⟨out, hout⟩ := Nesting.exists_grows hnested ls Nesting.empty.tokens hls
      exact ofLexemes_eq_error_of_addLexeme (hout.foldlM_eq [])
        (Nesting.addLexeme_eq_error_iff.2 ⟨hclose, .inl ⟨rfl, rfl⟩⟩)
    | @mismatched front first outer tag rest _ hpending hclose hkey =>
      obtain ⟨ls, more, rfl, hls, hmore⟩ := List.map_eq_append_iff.1 htags
      obtain ⟨l, more, rfl, rfl, -⟩ := List.map_eq_cons_iff.1 hmore
      obtain ⟨n, hn, hsections⟩ := Nesting.exists_stacked hpending Nesting.empty.tokens ls hls
      obtain ⟨s, outer, hs, rfl, -⟩ := List.map_eq_cons_iff.1 hsections
      exact ofLexemes_eq_error_of_addLexeme hn.foldlM_eq
        (Nesting.addLexeme_eq_error_iff.2 ⟨hclose, .inr ⟨s, outer, hs, hkey, rfl⟩⟩)
    | unreadable hpending =>
      obtain ⟨n, hn, -⟩ := Nesting.exists_stacked hpending Nesting.empty.tokens ls htags
      have hfold : ls.foldlM (Nesting.addLexeme source) Nesting.empty = .ok n := hn.foldlM_eq
      rw [ofLexemes, hfold]
      rfl
    | unclosed hpending =>
      obtain ⟨⟨tokens, sections⟩, hn, hsections⟩ :=
        Nesting.exists_stacked hpending Nesting.empty.tokens ls htags
      obtain ⟨s, outer, rfl, rfl, -⟩ := List.map_eq_cons_iff.1 hsections
      have hfold : ls.foldlM (Nesting.addLexeme source) Nesting.empty = .ok ⟨tokens, s :: outer⟩ :=
        hn.foldlM_eq
      rw [ofLexemes, hfold]
      rfl

theorem exists_ofLexemes_iff {ls : List Lexeme} {ending : Ending} :
    (∃ tokens, ofLexemes source ls ending = .ok tokens) ↔
      (∃ text d, ending = .complete text d) ∧ Tag.Nested (ls.map Lexeme.tag) := by
  constructor
  · rintro ⟨tokens, h⟩
    obtain ⟨out, text, d, hending, hgrows, -⟩ := ofLexemes_eq_ok_iff.1 h
    exact ⟨⟨text, d, hending⟩, hgrows.nested⟩
  · rintro ⟨⟨text, d, hending⟩, hnested⟩
    obtain ⟨out, hgrows⟩ := Nesting.exists_grows hnested ls [.lineStart] rfl
    exact ⟨_, ofLexemes_eq_ok_iff.2 ⟨out, text, d, hending, hgrows, rfl⟩⟩

theorem allMarks_ofLexemes {ls : List Lexeme} {ending : Ending} {tokens : List Token}
    (h : ofLexemes source ls ending = .ok tokens) (hordered : Tag.Ordered (ls.map Lexeme.tag)) :
    allMarks tokens = (ls.map Lexeme.tag).filterMap Tag.mark? := by
  obtain ⟨out, text, d, -, hgrows, rfl⟩ := ofLexemes_eq_ok_iff.1 h
  exact (Nesting.allMarks_addLines out text).trans (hgrows.allMarks_eq hordered)

theorem map_tag_readAll [Alphabet] (d : Delimiters) (source : List Char) :
    (Lexeme.readAll (.start d source)).1.map Lexeme.tag =
        (Tag.scan (.start d source)).1.map Prod.snd ∧
      (Lexeme.readAll (.start d source)).2.dense = (Tag.scan (.start d source)).2.dense := by
  have houtline := Lexeme.outline_readAll (.start d source) (Cursor.settled_start d source)
  rw [Lexeme.outline, Tag.outline, Prod.mk.injEq] at houtline
  refine ⟨?_, houtline.2⟩
  simpa [Function.comp_def] using congrArg (List.map Prod.snd) houtline.1

theorem ordered_tags [Alphabet] (d : Delimiters) (source : List Char) :
    Tag.Ordered ((Tag.scan (.start d source)).1.map Prod.snd) := by
  obtain ⟨hstart, hpairwise⟩ := Tag.pairwise_scan (.start d source)
  refine ⟨fun tag htag => ?_, List.pairwise_map.2 hpairwise⟩
  obtain ⟨p, hp, rfl⟩ := List.mem_map.1 htag
  exact (hstart p hp).2

/-- Just the sources whose tags can be read and are properly nested give a tree. The marks of the tree are
those of the tags, in the order of the source. Any other source is refused for its first fault. -/
theorem parse_structure [Alphabet] (d : Delimiters) (source : List Char) :
    let stream := Tag.scan (.start d source)
    let tags := stream.1.map Prod.snd
    ((∃ tokens, parse d source = .ok tokens) ↔
        (∃ text closing, stream.2 = .complete text closing) ∧ Tag.Nested tags) ∧
      (∀ tokens, parse d source = .ok tokens → allMarks tokens = tags.filterMap Tag.mark?) ∧
      ∀ fault, parse d source = .error fault ↔ Tag.FirstFault tags stream.2 fault := by
  intro stream tags
  obtain ⟨htags, hending⟩ := map_tag_readAll d source
  have hordered := ordered_tags d source
  rw [← htags] at hordered
  have hcomplete : ∀ {e e' : Ending}, e.dense = e'.dense → (∃ text d, e = .complete text d) →
      ∃ text d, e' = .complete text d := by
    rintro _ (⟨text, d⟩ | _) h ⟨_, _, rfl⟩
    · exact ⟨text, d, rfl⟩
    · cases h
  refine ⟨?_, fun tokens h => ?_, fun fault => ?_⟩
  · refine exists_ofLexemes_iff.trans (and_congr ⟨hcomplete hending, hcomplete hending.symm⟩ ?_)
    rw [htags]
  · exact (allMarks_ofLexemes h hordered).trans (congrArg _ htags)
  · refine ofLexemes_eq_error_iff.trans ?_
    rw [← Tag.firstFault_dense_iff, htags, hending, Tag.firstFault_dense_iff]

end Token

end LogicLess
