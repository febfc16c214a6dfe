import LogicLess.Proofs.Lexeme.Written
import LogicLess.Proofs.Token.Sections
import LogicLess.Text.IdentifierTable

/-!
# A source that begins with a value

A source whose first part is a value tag is read as the value and the text after the tag. If the tag is
the whole source, it is read unless the closing delimiter begins like a key: then the key takes in that
part of the delimiter, and what is left of it cannot close the tag.
-/

namespace LogicLess

namespace Delimiters

/-- Whether a key comes to an end at the closing delimiter. -/
def endsKeys [Alphabet] (d : Delimiters) : Bool := !d.closing.head?.any isKeyChar

theorem endsKeys_iff [Alphabet] {d : Delimiters} :
    d.endsKeys = true ↔ ∀ c, d.closing.head? = some c → isKeyChar c = false := by
  unfold endsKeys
  cases d.closing.head? <;> simp

theorem closeLength?_eq_none {d : Delimiters} {s : List Char} (h : s.length < d.closing.length) :
    d.closeLength? s = none := by
  cases hclose : d.closeLength? s with
  | none => rfl
  | some n =>
    obtain ⟨marker, rest, rfl, -⟩ := exists_takesIn hclose
    simp only [List.length_append] at h
    omega

theorem closeLength?_self (d : Delimiters) : d.closeLength? d.closing = some d.closing.length := by
  simpa using d.closeLength?_closing (show NoMarker [] by decide)

theorem length_dropWhile_closing [Alphabet] {d : Delimiters} (h : d.endsKeys = false) :
    (d.closing.dropWhile isKeyChar).length < d.closing.length := by
  cases hclosing : d.closing with
  | nil => exact absurd hclosing d.closing_ne_nil
  | cons c s =>
    have hc : isKeyChar c = true := by simpa [endsKeys, hclosing] using h
    rw [List.dropWhile_cons_of_pos hc, List.length_cons]
    exact Nat.lt_succ_of_le (List.length_dropWhile_le ..)

end Delimiters

namespace Sigil

theorem isContentChar_of_isValue [Alphabet] {sigil : Sigil} (h : sigil.isValue = true) (c : Char) :
    sigil.isContentChar c = isKeyChar c := by
  cases sigil <;> simp [isValue] at h <;> simp [isContentChar]

theorem others_of_isValue {sigil : Sigil} (h : sigil.isValue = true) :
    sigil.isFreeText = false ∧ sigil.opensSection = false ∧ sigil ≠ .slash ∧ sigil ≠ .equals := by
  cases sigil <;> simp [isValue] at h <;> simp [isFreeText, opensSection]

end Sigil

theorem Lexeme.token?_of_isValue {l : Lexeme} (h : l.tag.sigil.isValue = true) :
    l.token? = some (.value (.ofKey l.tag.content) (l.tag.sigil == .plain)) := by
  unfold token?
  cases hsigil : l.tag.sigil <;> simp [hsigil, Sigil.isValue] at h <;> rfl

namespace Token

private theorem onlyAtEnd_nil (d : Delimiters) : Text.OnlyAtEnd d.opening [] := by
  simp [Text.OnlyAtEnd]

variable {d : Delimiters} {sigil : Sigil} {lead key trail rest : List Char}

theorem parse_unclosed [Alphabet] (h : Tag.Keyed sigil lead key trail rest)
    (hclose : d.closeLength? rest = none) :
    let begun := d.opening ++ (sigil.mark ++ (lead ++ (key ++ trail)))
    parse d (begun ++ rest) = .error (.unclosedTag ⟨0, Text.byteSize begun⟩ d.closing) := by
  intro begun
  have hended := (Cursor.passes_advance (c := .start d (begun ++ rest)) (s := begun) rfl).offset_eq
  have hread := Tag.read_keyed h (c := .start d (begun ++ rest)) rfl
  simp only [Cursor.start, hclose, Nat.zero_add] at hread hended
  rw [hended] at hread
  have hcut := Text.cutAt?_append d.opening_ne_nil (onlyAtEnd_nil d)
    (sigil.mark ++ (lead ++ (key ++ trail)) ++ rest)
  have hlexeme : Lexeme.read? (.start d (begun ++ rest)) = _ :=
    Lexeme.read?_eq (Cursor.settled_start d _) (by simpa [Cursor.start, begun] using hcut)
  rw [List.length_nil, Cursor.advance_zero, Cursor.start, hread] at hlexeme
  rw [parse, Cursor.start, Lexeme.readAll_of_error hlexeme]
  rfl

theorem parse_value [Alphabet] (hsigil : sigil.isValue = true)
    (h : Tag.Keyed sigil lead key trail rest) {n : Nat} (hclose : d.closeLength? rest = some n)
    (hafter : ¬ d.opening <:+: rest.drop n) :
    parse d (d.opening ++ (sigil.mark ++ (lead ++ (key ++ trail))) ++ rest) =
      .ok (Nesting.addLines [.value (.ofKey key) (sigil == .plain), .lineStart]
        (rest.drop n)).reverse := by
  -- The tag is read at the start, and from `next` on there is only text.
  generalize hbegun : d.opening ++ (sigil.mark ++ (lead ++ (key ++ trail))) = begun
  generalize hc : Cursor.start d (begun ++ rest) = c
  have hd : c.delimiters = d := by rw [← hc]; rfl
  have hrest : c.rest = begun ++ rest := by rw [← hc]; rfl
  have hkeyed := Tag.read_keyed h (c := c) (by rw [hrest, ← hbegun, hd])
  rw [hd, hbegun] at hkeyed
  simp only [hclose] at hkeyed
  generalize hnext : (c.advance begun.length).advance n = next at hkeyed
  have hrestNext : next.rest = rest.drop n := by
    rw [← hnext]
    exact congrArg (List.drop n) (Cursor.rest_advance hrest)
  have hdNext : next.delimiters = d := by rw [← hnext, ← hd]; rfl
  obtain ⟨tag, rfl, rfl, hread⟩ : ∃ tag, tag.sigil = sigil ∧ tag.content = key ∧
      Tag.read c = .ok (tag, next) := ⟨_, rfl, rfl, hkeyed⟩
  obtain ⟨-, hopen, hslash, hequals⟩ := Sigil.others_of_isValue hsigil
  have halone : (tag.sigil.mayStandAlone && Text.isAlone (c.seen.reverse ++ []) next.rest) = false := by
    simp [Sigil.mayStandAlone, hsigil]
  have hlexeme := Lexeme.read?_of_tag (hc ▸ Cursor.settled_start d _)
    (hrest.trans (by rw [← hbegun, List.append_assoc, hd]; rfl)) (onlyAtEnd_nil _)
    (by rwa [List.length_nil, c.advance_zero]) hequals
  rw [Lexeme.ofTag_of_not_alone halone] at hlexeme
  rw [parse, hc, Lexeme.readAll_of_last hlexeme (by rwa [hrestNext, hdNext])]
  refine ofLexemes_eq_ok_iff.2 ⟨_, _, _, rfl, .leaf hopen hslash .nil, ?_⟩
  rw [Lexeme.token?_of_isValue hsigil, hrestNext]
  rfl

/-- A key between two delimiters is the value that it names, unless the closing delimiter begins like a
key. It is then sought behind the part of it that the key has taken in, and is not found. -/
theorem parse_lone_value [Alphabet] (d : Delimiters) (sigil : Sigil) (key : List Char)
    (hsigil : sigil.isValue = true) (hne : key ≠ []) (hkey : ∀ c ∈ key, isKeyChar c = true) :
    parse d (d.opening ++ sigil.mark ++ key ++ d.closing) =
      if d.endsKeys then .ok [.lineStart, .value (.ofKey key) (sigil == .plain)]
      else .error (.unclosedTag ⟨0, Text.byteSize
        (d.opening ++ sigil.mark ++ key ++ d.closing.takeWhile isKeyChar)⟩ d.closing) := by
  -- A key takes in `more` of the closing delimiter: nothing, or all of it that looks like a key.
  have hkeyed : ∀ more rest : List Char, d.closing = more ++ rest →
      (∀ c ∈ more, isKeyChar c = true) → (∀ c, rest.head? = some c → isKeyChar c = false) →
      Tag.Keyed sigil [] (key ++ more) [] rest := by
    intro more rest hclosing hmore hrest
    simp only [← Sigil.isContentChar_of_isValue hsigil] at hkey hmore hrest
    refine ⟨(Sigil.others_of_isValue hsigil).1, by simp, by simp [hne], fun c hc => ?_, by simp,
      hrest, fun c hc => ?_⟩
    · exact (List.mem_append.1 hc).elim (hkey c) (hmore c)
    · refine (Delimiters.not_isBlank_of_mem d.closing_ok ?_).1
      rw [hclosing]
      exact List.mem_append_right _ (List.mem_of_mem_head? hc)
  cases hends : d.endsKeys with
  | true =>
    have h := hkeyed [] d.closing rfl (by simp) (Delimiters.endsKeys_iff.1 hends)
    have hparse := parse_value hsigil h d.closeLength?_self
      (by simpa using d.opening_ne_nil)
    simpa [Nesting.addLines, Text.splitLines] using hparse
  | false =>
    have hclosing := (List.takeWhile_append_dropWhile (p := isKeyChar) (l := d.closing)).symm
    have h := hkeyed _ _ hclosing (fun c hc => List.mem_takeWhile_imp hc) fun c hc => by
      simpa [hc] using List.head?_dropWhile_not isKeyChar d.closing
    have hparse := parse_unclosed (d := d) h
      (Delimiters.closeLength?_eq_none (Delimiters.length_dropWhile_closing hends))
    simpa using hparse

theorem parse_lone_value_arrows :
    let percent : Delimiters := ⟨['<', '%'], ['%', '>'], by decide, by decide⟩
    let arrow : Delimiters := ⟨"<!--".toList, "-->".toList, by decide, by decide⟩
    parse percent "<%&a.b%>".toList = .ok [.lineStart, .value (.keys ["a", "b"]) false] ∧
      parse arrow "<!--a-->".toList = .error (.unclosedTag ⟨0, 7⟩ "-->".toList) := by
  intro percent arrow
  have hpercent := parse_lone_value percent .ampersand "a.b".toList rfl (by decide)
    (List.all_eq_true.1 (by decide +kernel))
  have harrow := parse_lone_value arrow .plain "a".toList rfl (by decide)
    (List.all_eq_true.1 (by decide +kernel))
  exact ⟨hpercent.trans rfl, harrow.trans rfl⟩

/-- A pair of dollar signs is a pair of delimiters, but no key between them is read. -/
theorem not_forall_parse_lone_value : ¬ ∀ (d : Delimiters) (key : List Char), key ≠ [] →
    (∀ c ∈ key, isKeyChar c = true) →
      parse d (d.opening ++ key ++ d.closing) = .ok [.lineStart, .value (.ofKey key) true] ∧
      parse d (d.opening ++ ['&'] ++ key ++ d.closing) =
        .ok [.lineStart, .value (.ofKey key) false] := by
  intro h
  have hparse := (h ⟨['$'], ['$'], by decide, by decide⟩ ['a'] (by decide)
    (List.all_eq_true.1 (by decide +kernel))).1
  have hnone : (parse ⟨['$'], ['$'], by decide, by decide⟩ ['$', 'a', '$']).toOption.isNone = true := by
    decide +kernel
  have hsome := congrArg (·.toOption.isNone) hparse
  exact absurd (hnone.symm.trans hsome) (by simp [Except.toOption])

end Token

end LogicLess
