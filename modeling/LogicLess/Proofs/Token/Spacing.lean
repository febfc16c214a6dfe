import LogicLess.Proofs.Lexeme.Spacing
import LogicLess.Proofs.Region
import LogicLess.Proofs.Slice
import LogicLess.Proofs.Token.Structure
import LogicLess.Text.IdentifierTable

/-!
# Blanks inside of a tag

Blanks behind the opening delimiter of a tag without a sigil change the raw text of the sections around it
and the places of what follows, and nothing else. In front of a sigil they are not allowed for: the tag cannot
be read with them.
-/

namespace LogicLess

namespace Region

variable {r : Region} {gap n : Nat} {front back text : List Char}

theorem join_spread (gap n : Nat) (r s : Region) :
    (r.spread gap n).join (s.spread gap n) = (r.join s).spread gap n := by
  have hmin : ∀ a b, min (spreadPlace gap n a) (spreadPlace gap n b) = spreadPlace gap n (min a b) := by
    intro a b
    unfold spreadPlace
    split <;> split <;> split <;> omega
  have hmax : ∀ a b, max (spreadPlace gap n a) (spreadPlace gap n b) = spreadPlace gap n (max a b) := by
    intro a b
    unfold spreadPlace
    split <;> split <;> split <;> omega
  simp only [join, spread, hmin, hmax]

theorem spreadPlace_le_iff {place : Nat} (h : place ≠ gap) :
    spreadPlace gap n place ≤ gap ↔ place ≤ gap := by
  unfold spreadPlace
  split <;> omega

theorem lt_spreadPlace_iff {place : Nat} (h : place ≠ gap) :
    gap < spreadPlace gap n place ↔ gap < place := by
  unfold spreadPlace
  split <;> omega

theorem covers_spread (hstart : r.start ≠ gap) (hstop : r.stop ≠ gap) :
    (r.spread gap n).covers gap = r.covers gap := by
  simp only [covers, spread, spreadPlace_le_iff hstart, lt_spreadPlace_iff hstop]

theorem slice?_spread (blanks : List Char) (h : r.slice? (front ++ back) = some text)
    (hr : r.stop < Text.byteSize front ∨ Text.byteSize front ≤ r.start) :
    (r.spread (Text.byteSize front) (Text.byteSize blanks)).slice? (front ++ (blanks ++ back)) =
      some text := by
  obtain ⟨before, after, hsource, rfl⟩ := slice?_eq_some_iff.1 h
  dsimp only at hr
  rcases hr with hr | hr
  · obtain ⟨middle, rfl⟩ := Text.exists_append_of_byteSize_le
      ((List.append_assoc ..).trans hsource.symm) (by rw [Text.byteSize_append]; omega)
    refine slice?_eq_some_iff.2 ⟨before, middle ++ (blanks ++ back), by simp, ?_⟩
    have hstart := Nat.lt_of_le_of_lt (Nat.le_add_right (Text.byteSize before) (Text.byteSize text)) hr
    rw [spread, spreadPlace, spreadPlace, if_pos hstart, if_pos hr]
  · obtain ⟨middle, rfl⟩ := Text.exists_append_of_byteSize_le hsource hr
    rw [List.append_assoc, List.append_cancel_left_eq] at hsource
    refine slice?_eq_some_iff.2 ⟨front ++ (blanks ++ middle), after, by simp [hsource], ?_⟩
    have hstop := Nat.le_trans hr (Nat.le_add_right _ (Text.byteSize text))
    rw [spread, spreadPlace, spreadPlace, if_neg (Nat.not_lt.2 hr), if_neg (Nat.not_lt.2 hstop)]
    simp only [Text.byteSize_append, Region.mk.injEq]
    omega

end Region

namespace Token

mutual

/-- A token without the regions of its sections, and without the raw text of those that a place lies in. -/
def blur (place : Nat) : Token → Token
  | .block path inverted body raw delimiters region =>
    .block path inverted (blurAll place body) (if region.covers place then [] else raw) delimiters ⟨0, 0⟩
  | token => token
termination_by structural token => token

def blurAll (place : Nat) : List Token → List Token
  | [] => []
  | token :: rest => blur place token :: blurAll place rest
termination_by structural tokens => tokens

end

theorem blurAll_eq_map (place : Nat) (tokens : List Token) :
    blurAll place tokens = tokens.map (blur place) := by
  induction tokens with
  | nil => rfl
  | cons token rest ih => rw [blurAll, ih, List.map_cons]

theorem blurAll_reverse (place : Nat) (tokens : List Token) :
    blurAll place tokens.reverse = (blurAll place tokens).reverse := by
  rw [blurAll_eq_map, blurAll_eq_map, List.map_reverse]

end Token

namespace Lexeme

variable {d : Delimiters} {front back blanks : List Char} {first last : Lexeme} {inside : List Lexeme}

theorem Standing.literal_spread [Alphabet]
    (h : Standing d (front ++ back) (first :: (inside ++ [last])))
    (houtside : (first.tag.region.join last.tag.region).covers (Text.byteSize front) = false)
    (hlast : last.tag.region.stop ≠ Text.byteSize front) :
    Region.literal
        ⟨(first.spread (Text.byteSize front) (Text.byteSize blanks)).resume,
          (last.spread (Text.byteSize front) (Text.byteSize blanks)).tag.region.start⟩
        (front ++ (blanks ++ back)) =
      Region.literal ⟨first.resume, last.tag.region.start⟩ (front ++ back) := by
  obtain ⟨raw, hraw⟩ := h.exists_raw
  have hordered := h.ordered
  rw [List.map_cons, List.map_append, List.map_singleton] at hordered
  have hfirst := h.ordered.start_le first.tag (by simp)
  have hresume := h.stop_le_resume (l := first) (by simp)
  have hle := h.ordered.start_le last.tag (by simp)
  rw [hordered.join_eq.1, Region.covers, Bool.and_eq_false_iff, decide_eq_false_iff_not,
    decide_eq_false_iff_not] at houtside
  dsimp only at houtside
  have hspread := Region.slice?_spread blanks hraw (by dsimp only; omega)
  rw [Region.literal, Region.literal, hraw]
  exact congrArg (Option.getD · []) hspread

end Lexeme

namespace Nesting

open Token (blur blurAll)

variable {d : Delimiters} {front back blanks : List Char} {ls inside : List Lexeme}
  {first last : Lexeme} {tokens tokens' before before' body body' out : List Token}

theorem blurAll_addLines (place : Nat) (tokens : List Token) (text : List Char) :
    blurAll place (addLines tokens text) = addLines (blurAll place tokens) text := by
  rw [Token.blurAll_eq_map, Token.blurAll_eq_map]
  refine map_addLines (fun _ => rfl) rfl (fun token s h => ?_) tokens text
  cases token <;> first | exact h | cases h

theorem blurAll_closedSection [Alphabet] (blanks : List Char)
    (hs : Lexeme.Standing d (front ++ back) (first :: (inside ++ [last])))
    (hfirst : first.tag.region.start ≠ Text.byteSize front)
    (hlast : last.tag.region.stop ≠ Text.byteSize front)
    (hbefore : blurAll (Text.byteSize front) before = blurAll (Text.byteSize front) before')
    (hbody : blurAll (Text.byteSize front) body = blurAll (Text.byteSize front) body') :
    let first' := first.spread (Text.byteSize front) (Text.byteSize blanks)
    let last' := last.spread (Text.byteSize front) (Text.byteSize blanks)
    blurAll (Text.byteSize front)
        (closedSection (front ++ back) ⟨first.tag, first.resume, before⟩ body last.tag :: before) =
      blurAll (Text.byteSize front) (closedSection (front ++ (blanks ++ back))
        ⟨first'.tag, first'.resume, before'⟩ body' last'.tag :: before') := by
  intro first' last'
  have hordered := hs.ordered
  rw [List.map_cons, List.map_append, List.map_singleton] at hordered
  have hregion : first'.tag.region.join last'.tag.region = _ :=
    Region.join_spread _ _ first.tag.region last.tag.region
  have hcovers : (first'.tag.region.join last'.tag.region).covers (Text.byteSize front) =
      (first.tag.region.join last.tag.region).covers (Text.byteSize front) := by
    rw [hregion]
    refine Region.covers_spread ?_ ?_ <;> rwa [hordered.join_eq.1]
  simp only [blurAll, closedSection, blur, Token.blurAll_reverse, hbefore, hbody, hcovers]
  cases houtside : (first.tag.region.join last.tag.region).covers (Text.byteSize front) with
  | true => rfl
  | false =>
    have hraw : Region.literal ⟨first'.resume, last'.tag.region.start⟩ (front ++ (blanks ++ back)) = _ :=
      hs.literal_spread houtside hlast
    simp only [Bool.false_eq_true, if_false, hraw]
    rfl

/-- A text that is put in at a place where no tag begins or ends changes the tree that grows only in the
places of its sections and in the raw texts around it. -/
theorem Grows.exists_blurAll_eq [Alphabet] (blanks : List Char)
    (h : Grows (front ++ back) ls tokens out) (hs : Lexeme.Standing d (front ++ back) ls)
    (hapart : ∀ l ∈ ls, l.tag.region.start ≠ Text.byteSize front ∧
      l.tag.region.stop ≠ Text.byteSize front)
    (htokens : blurAll (Text.byteSize front) tokens = blurAll (Text.byteSize front) tokens') :
    ∃ out', Grows (front ++ (blanks ++ back))
        (ls.map (Lexeme.spread (Text.byteSize front) (Text.byteSize blanks))) tokens' out' ∧
      blurAll (Text.byteSize front) out = blurAll (Text.byteSize front) out' := by
  have hadd : ∀ {tokens tokens' : List Token} (text : List Char),
      blurAll (Text.byteSize front) tokens = blurAll (Text.byteSize front) tokens' →
        blurAll (Text.byteSize front) (addLines tokens text) =
          blurAll (Text.byteSize front) (addLines tokens' text) := by
    intro tokens tokens' text htokens
    rw [blurAll_addLines, blurAll_addLines, htokens]
  induction h generalizing tokens' with
  | nil => exact ⟨tokens', .nil, htokens⟩
  | @leaf l rest tokens out hopen hclose _ ih =>
    have hleaf : blurAll (Text.byteSize front) (l.token?.toList ++ addLines tokens l.text) =
        blurAll (Text.byteSize front) (l.token?.toList ++ addLines tokens' l.text) := by
      have htext := hadd l.text htokens
      rw [Token.blurAll_eq_map, Token.blurAll_eq_map] at htext ⊢
      rw [List.map_append, List.map_append, htext]
    obtain ⟨out', hout, hblur⟩ := ih (hs.sublist (List.sublist_cons_self _ _))
      (fun l hl => hapart l (List.mem_cons_of_mem _ hl)) hleaf
    exact ⟨out', .leaf hopen hclose hout, hblur⟩
  | @block first last body rest tokens inner out hopen hclose hkey _ _ ihbody ih =>
    have hparts : first :: (body ++ last :: rest) = (first :: (body ++ [last])) ++ rest := by simp
    rw [hparts] at hs
    have hsection := hs.sublist (List.sublist_append_left _ _)
    obtain ⟨inner', hinner, hsame⟩ := ihbody
      (hsection.sublist ((List.sublist_append_left _ _).trans (List.sublist_cons_self _ _)))
      (fun l hl => hapart l (by simp [hl])) (show blurAll _ [] = blurAll _ [] from rfl)
    have hblock := blurAll_closedSection blanks hsection (hapart first (by simp)).1
      (hapart last (by simp)).2 (hadd first.text htokens) (hadd last.text hsame)
    obtain ⟨out', hout, hblur⟩ := ih (hs.sublist (List.sublist_append_right _ _))
      (fun l hl => hapart l (by simp [hl])) hblock
    rw [List.map_cons, List.map_append, List.map_cons]
    exact ⟨out', .block hopen hclose hkey hinner hout, hblur⟩

end Nesting

namespace Token

variable {d : Delimiters} {source front back blanks : List Char} {tokens : List Token} {tag : Tag}

/-- Blanks behind the opening delimiter of a tag. If the tag has no sigil, the tree stays the same but for
places and for the raw texts around the tag. If it has one, the tag can no longer be read: behind the blanks
there has to be a key. -/
theorem parse_spaced [Alphabet] (h : parse d source = .ok tokens) (htag : tag ∈ tags d source)
    (hsource : source = front ++ back)
    (hfront : Text.byteSize front = tag.region.start + Text.byteSize tag.delimiters.opening)
    (hblank : ∀ c ∈ blanks, Text.isBlank c = true) :
    (tag.sigil = .plain → ∃ tokens', parse d (front ++ (blanks ++ back)) = .ok tokens' ∧
      blurAll (Text.byteSize front) tokens' = blurAll (Text.byteSize front) tokens) ∧
    (tag.sigil ≠ .plain → blanks ≠ [] → ∃ fault,
      parse d (front ++ (blanks ++ back)) = .error fault ∧
        (fault = .unclosedTag ⟨tag.region.start, Text.byteSize (front ++ blanks)⟩ tag.delimiters.closing ∨
          ∃ stop, fault = .emptyTag ⟨tag.region.start, stop⟩)) := by
  subst hsource
  have hstanding := Lexeme.standing_readAll d (front ++ back)
  rcases hread : Lexeme.readAll (.start d (front ++ back)) with ⟨ls, ending⟩
  rw [parse, hread] at h
  rw [tags, hread] at htag
  rw [hread] at hstanding
  obtain ⟨l, hl, rfl⟩ := List.mem_map.1 htag
  obtain ⟨before, more, rfl⟩ := List.append_of_mem hl
  refine ⟨fun hplain => ?_, fun hsigil hne => ?_⟩
  · have hopening := Text.byteSize_pos l.tag.delimiters.opening_ne_nil
    have hstop := hstanding.opening_lt hl
    obtain ⟨out, text, d', rfl, hgrows, rfl⟩ := ofLexemes_eq_ok_iff.1 h
    obtain ⟨out', hout, hblur⟩ := hgrows.exists_blurAll_eq blanks hstanding
      (hstanding.apart (by omega) (by omega)) rfl
    refine ⟨(Nesting.addLines out' text).reverse, ?_, ?_⟩
    · rw [parse, Lexeme.readAll_spaced hread hfront.symm hplain hblank]
      exact ofLexemes_eq_ok_iff.2 ⟨out', text, d', rfl, hout, rfl⟩
    · rw [blurAll_reverse, blurAll_reverse, Nesting.blurAll_addLines, Nesting.blurAll_addLines, hblur]
  · obtain ⟨fault, hspaced, hfault⟩ := Lexeme.readAll_hidden hread hfront.symm hsigil hne hblank
    refine ⟨fault, ?_, hfault⟩
    obtain ⟨n, text, d', hfold, -⟩ := Nesting.exists_of_ofLexemes h
    rw [List.foldlM_append] at hfold
    obtain ⟨middle, hbefore, -⟩ := bind_eq_ok hfold
    rw [parse, hspaced]
    exact ofLexemes_eq_error_iff.2
      (.unreadable ((Nesting.Stacked.closed .nil).of_foldlM hbefore).pending)

/-- A value in a section, and the tag that opens the section. -/
theorem parse_spaced_section :
    let d : Delimiters := ⟨['<', '%'], ['%', '>'], by decide, by decide⟩
    let source := "<%#a%>\n <%b%>é<%/a%>\n".toList
    ∃ tokens tokens' fault, parse d source = .ok tokens ∧
      parse d "<%#a%>\n <% \tb%>é<%/a%>\n".toList = .ok tokens' ∧
      blurAll 10 tokens' = blurAll 10 tokens ∧
      parse d "<% #a%>\n <%b%>é<%/a%>\n".toList = .error fault ∧
      (fault = .unclosedTag ⟨0, 3⟩ ['%', '>'] ∨ ∃ stop, fault = .emptyTag ⟨0, stop⟩) := by
  intro d source
  have htags : ((tags d source).map fun tag =>
      (tag.sigil, tag.region.start, tag.delimiters.opening, tag.delimiters.closing)) =
        [(.pound, 0, ['<', '%'], ['%', '>']), (.plain, 8, ['<', '%'], ['%', '>']),
          (.slash, 15, ['<', '%'], ['%', '>'])] := by decide +kernel
  obtain ⟨first, more, hfirst, hopen, hmore⟩ := List.map_eq_cons_iff.1 htags
  obtain ⟨second, last, rfl, hplain, -⟩ := List.map_eq_cons_iff.1 hmore
  obtain ⟨hsigil, hstart, hopening, hclosing⟩ := by simpa only [Prod.mk.injEq] using hopen
  obtain ⟨hsigil', hstart', hopening', -⟩ := by simpa only [Prod.mk.injEq] using hplain
  cases h : parse d source with
  | error fault =>
    have hok : (parse d source).isOk = true := by decide +kernel
    rw [h] at hok
    cases hok
  | ok tokens =>
    have hcut : source = "<%#a%>\n <%".toList ++ "b%>é<%/a%>\n".toList := by decide +kernel
    have hcut' : source = ['<', '%'] ++ "#a%>\n <%b%>é<%/a%>\n".toList := by decide +kernel
    have hblank : ∀ c ∈ [' ', '\t'], Text.isBlank c = true := List.all_eq_true.1 (by decide)
    have hblank' : ∀ c ∈ [' '], Text.isBlank c = true := List.all_eq_true.1 (by decide)
    have hmem : first ∈ tags d source ∧ second ∈ tags d source := by simp [hfirst]
    obtain ⟨tokens', hspaced, hblur⟩ := (parse_spaced h hmem.2 hcut
      (by rw [hstart', hopening']; decide +kernel) hblank).1 hsigil'
    obtain ⟨fault, hhidden, hfault⟩ := (parse_spaced h hmem.1 hcut'
      (by rw [hstart, hopening]; rfl) hblank').2 (by simp [hsigil]) (by simp)
    rw [hstart, hclosing] at hfault
    refine ⟨tokens, tokens', fault, rfl, ?_, ?_, ?_, hfault⟩
    · refine (congrArg (parse d) ?_).trans hspaced
      decide +kernel
    · exact hblur
    · refine (congrArg (parse d) ?_).trans hhidden
      decide +kernel

/-- Blanks in front of the sigil of a value that is written as it is. -/
theorem not_forall_parse_spaced : ¬ ∀ (d : Delimiters) (source front back blanks : List Char)
    (tokens : List Token) (tag : Tag), parse d source = .ok tokens → tag ∈ tags d source →
      source = front ++ back →
      Text.byteSize front = tag.region.start + Text.byteSize tag.delimiters.opening →
      (∀ c ∈ blanks, Text.isBlank c = true) →
        ∃ tokens', parse d (front ++ (blanks ++ back)) = .ok tokens' ∧
          blurAll (Text.byteSize front) tokens' = blurAll (Text.byteSize front) tokens := by
  intro hall
  have htags : ((tags .braces ['{', '{', '&', 'a', '}', '}']).map fun tag =>
      (tag.region.start, tag.delimiters.opening)) = [(0, ['{', '{'])] := by decide +kernel
  obtain ⟨tag, _, htag, hplace, -⟩ := List.map_eq_cons_iff.1 htags
  obtain ⟨hstart, hopening⟩ := Prod.mk.inj hplace
  cases h : parse .braces ['{', '{', '&', 'a', '}', '}'] with
  | error fault =>
    have hok : (parse .braces ['{', '{', '&', 'a', '}', '}']).isOk = true := by decide +kernel
    rw [h] at hok
    cases hok
  | ok tokens =>
    obtain ⟨tokens', hspaced, -⟩ := hall _ _ ['{', '{'] ['&', 'a', '}', '}'] [' '] tokens tag h
      (by simp [htag]) rfl (by rw [hstart, hopening]; rfl) (List.all_eq_true.1 (by decide))
    have hnot : (parse .braces ['{', '{', ' ', '&', 'a', '}', '}']).isOk = false := by decide +kernel
    have hok := congrArg Except.isOk hspaced
    exact absurd (hnot.symm.trans hok) (by simp [Except.isOk, Except.toBool])

end Token

end LogicLess
