import LogicLess.Proofs.Slice
import LogicLess.Proofs.Token.Reader
import LogicLess.Text.IdentifierTable

/-!
# Progress of a reader

A reader that begins with valid delimiters is at a boundary of its source before and after every round. A
round that does not end in a fault brings it on, and a round without a tag brings it to the end, so a source
has no more rounds than bytes. What is read is the tree of the source.
-/

namespace LogicLess

/-- The tree that lexemes and the end of the source make of a tree in the making. -/
def Nesting.complete (source : List Char) (n : Nesting) (lexemes : List Lexeme) (ending : Ending) :
    Except Fault (List Token) := do
  let m ← lexemes.foldlM (addLexeme source) n
  match ending with
  | .broken fault => throw fault
  | .complete tail delimiters => (m.addText tail).finish delimiters

theorem Nesting.complete_cons (source : List Char) (n : Nesting) (l : Lexeme) (ls : List Lexeme)
    (ending : Ending) : n.complete source (l :: ls) ending = (do
      let m ← n.addLexeme source l
      m.complete source ls ending) := by
  rw [complete, List.foldlM_cons, bind_assoc]
  rfl

theorem Token.parse_eq_complete [Alphabet] (d : Delimiters) (source : List Char) : parse d source =
    Nesting.empty.complete source (Lexeme.readAll (Cursor.start d source)).1
      (Lexeme.readAll (Cursor.start d source)).2 := rfl

namespace Reader

/-- The tree of the source, read on from the place in no more than the given number of rounds. -/
def parse [Alphabet] (rounds : Nat) (r : Reader) : Except Halt (List Token) := do
  let (_, last) ← (Reading.readAll rounds).run r
  (last.nesting.finish last.delimiters).mapError .fault

/-- The states before and after the rounds of a reader. -/
inductive Reached [Alphabet] (d : Delimiters) (source : List Char) : Reader → Prop
  | start : Reached d source (start d source)
  | next {r after : Reader} {met : Bool} : Reached d source r → r.isDone = false →
      Reading.next.run r = .ok (met, after) → Reached d source after

variable {c : Cursor} {n : Nesting} {d : Delimiters} {source : List Char} {r after : Reader}
  {met : Bool} {rounds : Nat}

theorem isDone_ofCursor : (ofCursor c n).isDone = true ↔ c.rest = [] := by
  have hdone : (ofCursor c n).isDone = true ↔ Text.byteSize c.source ≤ c.offset := decide_eq_true_iff
  rw [hdone, c.byteSize_source]
  constructor
  · intro hle
    by_contra hne
    have hpos := Text.byteSize_pos hne
    omega
  · intro hnil
    rw [hnil]
    exact Nat.le_refl _

theorem rest_ne_nil (hdone : (ofCursor c n).isDone = false) : c.rest ≠ [] := by
  intro hnil
  rw [isDone_ofCursor.2 hnil] at hdone
  cases hdone

theorem exists_rounds (hdone : (ofCursor c n).isDone = false) (h : Text.byteSize c.rest ≤ rounds) :
    ∃ k, rounds = k + 1 := by
  have hpos := Text.byteSize_pos (rest_ne_nil hdone)
  exact ⟨rounds - 1, by omega⟩

section

variable [Alphabet]

theorem exists_of_afterLexeme (hc : c.Settled) (h : afterLexeme c n = .ok (met, after)) :
    ∃ next m, after = ofCursor next m ∧ next.Settled ∧ next.source = c.source ∧
      (c.rest ≠ [] → c.offset < next.offset) ∧ (met = false → next.rest = []) := by
  obtain ⟨found, hread, h⟩ := bind_eq_ok h
  cases found with
  | none =>
    obtain ⟨rfl, rfl⟩ := Prod.mk.inj (Except.ok.inj h)
    have hpasses := Cursor.passes_advance (List.append_nil c.rest).symm
    have hend := Cursor.rest_advance (List.append_nil c.rest).symm
    refine ⟨_, _, rfl, .inl hend, hpasses.source_eq, fun hne => ?_, fun _ => hend⟩
    rw [hpasses.offset_eq]
    exact Nat.lt_add_of_pos_right (Text.byteSize_pos hne)
  | some found =>
    obtain ⟨l, next⟩ := found
    obtain ⟨m, -, h⟩ := bind_eq_ok h
    obtain ⟨rfl, rfl⟩ := Prod.mk.inj (Except.ok.inj h)
    obtain ⟨before, tagText, tail, rest, hspans⟩ := Lexeme.exists_spans_of_read? hc hread
    have hmoved := Nat.lt_of_le_of_lt (Nat.le_add_right ..) hspans.offset_lt
    exact ⟨next, m, rfl, hspans.settled, hspans.passes.source_eq, fun _ => hmoved, nofun⟩

theorem run_next_eq_ok_iff :
    Reading.next.run (ofCursor c n) = .ok (met, after) ↔ afterLexeme c n = .ok (met, after) := by
  rw [Reading.run_next]
  cases afterLexeme c n <;> simp [Except.mapError]

theorem Reached.exists_cursor (h : Reached d source r) :
    ∃ c n, r = ofCursor c n ∧ c.Settled ∧ c.source = source := by
  induction h with
  | start => exact ⟨.start d source, .empty, rfl, Cursor.settled_start d source, rfl⟩
  | next _ _ hnext ih =>
    obtain ⟨c, n, rfl, hc, hsource⟩ := ih
    obtain ⟨next, m, hafter, hsettled, hsame, -⟩ :=
      exists_of_afterLexeme hc (run_next_eq_ok_iff.1 hnext)
    exact ⟨next, m, hafter, hsettled, hsame.trans hsource⟩

theorem run_next_of_error {fault : Fault} (h : Lexeme.read? c = .error fault) :
    Reading.next.run (ofCursor c n) = .error (.fault fault) := by
  rw [Reading.run_next, afterLexeme, h]
  rfl

theorem run_next_of_none (h : Lexeme.read? c = .ok none) : Reading.next.run (ofCursor c n) =
    .ok (false, ofCursor (c.advance c.rest.length) (n.addText c.rest)) := by
  rw [Reading.run_next, afterLexeme, h]
  rfl

theorem run_next_of_some {l : Lexeme} {next : Cursor} (h : Lexeme.read? c = .ok (some (l, next))) :
    Reading.next.run (ofCursor c n) = ((n.addLexeme c.source l).map fun m =>
      (true, ofCursor next m)).mapError .fault := by
  rw [Reading.run_next, afterLexeme, h]
  change Except.mapError _ (n.addLexeme c.source l >>= _) = _
  cases n.addLexeme c.source l <;> rfl

theorem parse_of_isDone (h : r.isDone = true) :
    parse rounds r = (r.nesting.finish r.delimiters).mapError .fault := by
  have hread : (Reading.readAll rounds).run r = .ok ((), r) := by
    cases rounds <;>
    · rw [Reading.readAll, Reading.run_bind_ok (Reading.run_get r), if_pos h]
      rfl
  rw [parse, hread]
  rfl

theorem parse_of_next (h : r.isDone = false) (hnext : Reading.next.run r = .ok (met, after)) :
    parse (rounds + 1) r = parse rounds after := by
  rw [parse, Reading.readAll, Reading.run_bind_ok (Reading.run_get r), if_neg (by simp [h]),
    Reading.run_bind_ok hnext, parse]

theorem parse_of_halt {halt : Halt} (h : r.isDone = false)
    (hnext : Reading.next.run r = .error halt) : parse (rounds + 1) r = .error halt := by
  rw [parse, Reading.readAll, Reading.run_bind_ok (Reading.run_get r), if_neg (by simp [h]),
    Reading.run_bind_error hnext]
  rfl

theorem isDone_of_read? (h : Lexeme.read? c ≠ .ok none) : (ofCursor c n).isDone = false := by
  rw [← Bool.not_eq_true, isDone_ofCursor]
  intro hnil
  refine h (Lexeme.read?_eq_none ?_)
  rw [hnil, List.infix_nil]
  exact c.delimiters.opening_ne_nil

theorem parse_ofCursor (hc : c.Settled) (h : Text.byteSize c.rest ≤ rounds) :
    parse rounds (ofCursor c n) =
      (n.complete c.source (Lexeme.readAll c).1 (Lexeme.readAll c).2).mapError .fault := by
  -- Every lexeme takes one round and at least one byte.
  induction c using Lexeme.readAll.induct generalizing n rounds with
  | case1 c fault hread =>
    have hdone : (ofCursor c n).isDone = false := isDone_of_read? (by simp [hread])
    obtain ⟨rounds, rfl⟩ := exists_rounds hdone h
    rw [Lexeme.readAll_of_error hread, parse_of_halt hdone (run_next_of_error hread)]
    rfl
  | case2 c hread =>
    rw [Lexeme.readAll_of_none hread]
    by_cases hdone : (ofCursor c n).isDone = true
    · rw [parse_of_isDone hdone, isDone_ofCursor.1 hdone]
      rfl
    · rw [Bool.not_eq_true] at hdone
      obtain ⟨rounds, rfl⟩ := exists_rounds hdone h
      have hend := Cursor.rest_advance (List.append_nil c.rest).symm
      rw [parse_of_next hdone (run_next_of_none hread), parse_of_isDone (isDone_ofCursor.2 hend)]
      rfl
  | case3 c l next hread _ _ _ ih =>
    have hdone : (ofCursor c n).isDone = false := isDone_of_read? (by simp [hread])
    obtain ⟨rounds, rfl⟩ := exists_rounds hdone h
    have hnext := run_next_of_some (n := n) hread
    rw [Lexeme.readAll_of_some hread, Nesting.complete_cons]
    cases hadd : n.addLexeme c.source l with
    | error fault =>
      rw [hadd] at hnext
      rw [parse_of_halt hdone hnext]
      rfl
    | ok m =>
      rw [hadd] at hnext
      obtain ⟨before, tagText, tail, rest, hspans⟩ := Lexeme.exists_spans_of_read? hc hread
      have hsame := hspans.passes.source_eq
      have hless : Text.byteSize next.rest ≤ rounds := by
        have hmoved := hspans.offset_lt
        have hsize := congrArg Text.byteSize hsame
        rw [next.byteSize_source, c.byteSize_source] at hsize
        omega
      rw [parse_of_next hdone hnext, ih hspans.settled hless, hsame]
      rfl

/-- A round ends in a fault of the source or brings the reader on, to the end if it meets no tag. -/
theorem next_cases (hc : c.Settled) (hdone : (ofCursor c n).isDone = false) :
    (∃ fault, Reading.next.run (ofCursor c n) = .error (.fault fault)) ∨
      ∃ met after, Reading.next.run (ofCursor c n) = .ok (met, after) ∧ c.offset < after.place ∧
        (met = false → after.place = Text.byteSize c.source) := by
  cases hround : afterLexeme c n with
  | error fault =>
    left
    exact ⟨fault, by rw [Reading.run_next, hround]; rfl⟩
  | ok result =>
    obtain ⟨met, after⟩ := result
    obtain ⟨next, m, rfl, -, hsame, hmoved, hend⟩ := exists_of_afterLexeme hc hround
    right
    refine ⟨met, _, run_next_eq_ok_iff.2 hround, hmoved (rest_ne_nil hdone), fun hmet => ?_⟩
    rw [← hsame, next.byteSize_source, hend hmet]
    rfl

end

/-- In every state that a reader of a source reaches, its delimiters are valid and its patterns are theirs,
and its place is a boundary of the source. If the source is not read to the end, the next round ends in a
fault of the source, and neither in a cut beside a boundary nor in a number below zero, or else it brings
the reader on; a round that meets no tag brings it to the end. So with as many rounds as the source has
bytes it reads the tree of the source. -/
theorem progress [Alphabet] (d : Delimiters) (source : List Char) :
    (∀ r, Reached d source r →
      isDelimiter r.delimiters.opening = true ∧ isDelimiter r.delimiters.closing = true ∧
      r.patterns = r.delimiters.patterns ∧ r.source = source ∧ Text.IsBoundary source r.place ∧
      r.place ≤ Text.byteSize source ∧
      (r.isDone = false →
        (∃ fault, Reading.next.run r = .error (.fault fault)) ∨
          ∃ met after, Reading.next.run r = .ok (met, after) ∧ r.place < after.place ∧
            (met = false → after.place = Text.byteSize source))) ∧
    parse (Text.byteSize source) (start d source) = (Token.parse d source).mapError .fault := by
  have hparse : parse (Text.byteSize source) (start d source) =
      (Token.parse d source).mapError .fault := by
    rw [Token.parse_eq_complete]
    exact parse_ofCursor (Cursor.settled_start d source) (Nat.le_refl _)
  refine ⟨fun r hr => ?_, hparse⟩
  obtain ⟨c, n, rfl, hc, hsource⟩ := hr.exists_cursor
  have hboundary : Text.IsBoundary source c.offset :=
    ⟨c.seen.reverse, c.rest, hsource.symm, by rw [Text.byteSize_reverse, c.offset_eq]⟩
  refine ⟨c.delimiters.opening_ok, c.delimiters.closing_ok, rfl, hsource, hboundary,
    Cursor.offset_le_of_source_eq hsource, fun hdone => ?_⟩
  rw [← hsource]
  exact next_cases hc hdone

/-- Behind a change of delimiters, the default ones are text, in which there is no tag. -/
theorem progress_changed :
    let source := ['{', '{', '=', '<', '%', ' ', '%', '>', '=', '}', '}', 'é', '{', '{']
    ∃ r after, Reached .braces source r ∧ r.isDone = false ∧ r.place = 11 ∧
      r.delimiters.opening = ['<', '%'] ∧ r.patterns = r.delimiters.patterns ∧
      Reading.next.run r = .ok (false, after) ∧ r.place < after.place ∧
      after.place = Text.byteSize source := by
  intro source
  have hfirst : ((Reading.next.run (start .braces source)).toOption.map fun p =>
      (p.2.place, p.2.delimiters.opening)) = some (11, ['<', '%']) := by decide +kernel
  have hsecond : (((Reading.next >>= fun _ => Reading.next).run (start .braces source)).toOption.map
      Prod.fst) = some false := by decide +kernel
  rcases hr : Reading.next.run (start .braces source) with halt | ⟨met, r⟩
  · rw [hr] at hfirst
    cases hfirst
  rw [hr] at hfirst
  obtain ⟨hplace, hopening⟩ := Prod.mk.inj (Option.some.inj hfirst)
  rw [Reading.run_bind_ok hr] at hsecond
  have hreached : Reached .braces source r := .next .start (by decide +kernel) hr
  obtain ⟨-, -, hpatterns, hsource, -, -, hnext⟩ := (progress .braces source).1 r hreached
  have hdone : r.isDone = false := by
    rw [isDone, hsource, hplace]
    decide
  rcases hnext hdone with ⟨fault, hfault⟩ | ⟨met, after, hok, hless, hend⟩
  · rw [hfault] at hsecond
    cases hsecond
  · rw [hok] at hsecond
    obtain rfl : met = false := Option.some.inj hsecond
    exact ⟨r, after, hreached, hdone, hplace, hopening, hpatterns, hok, hless, hend rfl⟩

end Reader

end LogicLess
