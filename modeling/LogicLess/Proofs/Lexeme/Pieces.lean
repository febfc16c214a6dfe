import LogicLess.Proofs.Lexeme.Written

/-!
# Reading a sequence of tags

A template that is written as a sequence of texts and tags is cut into its tags again, if no text holds
an opening delimiter, no text goes on like the end of the tag before it, and no tag removes its line.
-/

namespace LogicLess

/-- A part of a template as it is written. -/
inductive Piece
  | text (text : List Char)
  | tag (sigil : Sigil) (lead key trail : List Char)

namespace Piece

def chars (d : Delimiters) : Piece → List Char
  | text t => t
  | tag sigil lead key trail => Tag.written d sigil lead key trail

def print (d : Delimiters) (pieces : List Piece) : List Char := pieces.flatMap (chars d)

/-- After the text `seen`, no tag but a value tag is alone on its line. -/
def noneAlone (d : Delimiters) : List Char → List Piece → Bool
  | _, [] => true
  | seen, text t :: rest => noneAlone d (seen ++ t) rest
  | seen, tag sigil lead key trail :: rest =>
    !(sigil.mayStandAlone && Text.isAlone seen (print d rest)) &&
      noneAlone d (seen ++ Tag.written d sigil lead key trail) rest

/-- After the text `pending`, in which no tag begins, every text and every tag can be told from what
stands next to it. -/
def Separate [Alphabet] (d : Delimiters) : List Char → List Piece → Prop
  | pending, [] => Text.OnlyAtEnd d.opening pending
  | pending, text t :: rest => Separate d (pending ++ t) rest
  | pending, tag sigil lead key trail :: rest =>
    Text.OnlyAtEnd d.opening pending ∧ Tag.Legible d sigil lead key trail (print d rest) ∧
      Separate d [] rest

/-- The lexemes of a list of pieces after the text `pending`, which begins at `place`, and the text
after the last of them. -/
def lexemes (d : Delimiters) : Nat → List Char → List Piece → List Lexeme × List Char
  | _, pending, [] => ([], pending)
  | place, pending, text t :: rest => lexemes d place (pending ++ t) rest
  | place, pending, tag sigil lead key trail :: rest =>
    let start := place + Text.byteSize pending
    let stop := start + Text.byteSize (Tag.written d sigil lead key trail)
    let (more, tail) := lexemes d stop [] rest
    (⟨pending, ⟨sigil, key, ⟨start, stop⟩, d⟩, [], stop⟩ :: more, tail)

@[simp] theorem print_nil (d : Delimiters) : print d [] = [] := rfl

@[simp] theorem print_cons (d : Delimiters) (p : Piece) (pieces : List Piece) :
    print d (p :: pieces) = p.chars d ++ print d pieces := List.flatMap_cons

@[simp] theorem print_append (d : Delimiters) (ps qs : List Piece) :
    print d (ps ++ qs) = print d ps ++ print d qs := List.flatMap_append

end Piece

namespace Lexeme

theorem readAll_print [Alphabet] (d : Delimiters) (pieces : List Piece) : ∀ (c : Cursor)
    (pending : List Char),
    c.delimiters = d → c.Settled → c.rest = pending ++ Piece.print d pieces →
      Piece.Separate d pending pieces →
      Piece.noneAlone d (c.seen.reverse ++ pending) pieces = true →
      readAll c = ((Piece.lexemes d c.offset pending pieces).1,
        .complete (Piece.lexemes d c.offset pending pieces).2 d) := by
  induction pieces with
  | nil =>
    intro c pending hd _ hrest hseparate _
    rw [Piece.print_nil, List.append_nil] at hrest
    have hnone : read? c = .ok none := by
      refine read?_eq_none ?_
      rw [hd, hrest]
      exact Text.OnlyAtEnd.not_infix hseparate d.opening_ne_nil
    rw [readAll_of_none hnone, hd, hrest]
    rfl
  | cons p rest ih =>
    intro c pending hd hc hrest hseparate halone
    cases p with
    | text t =>
      refine ih c (pending ++ t) hd hc ?_ hseparate ?_
      · rw [hrest, Piece.print_cons, List.append_assoc]
        rfl
      · rwa [← List.append_assoc]
    | tag sigil lead key trail =>
      obtain ⟨hcut, hlegible, hseparate⟩ := hseparate
      simp only [Piece.noneAlone, Bool.and_eq_true, Bool.not_eq_true'] at halone
      rw [Piece.print_cons, Piece.chars] at hrest
      subst hd
      have hahead := Cursor.rest_advance hrest
      obtain ⟨close, hread, hpasses, hd⟩ := Tag.read_written (c := c.advance pending.length)
        hlegible hahead
      have hclose : close.rest = Piece.print c.delimiters rest := by
        have h := hpasses.rest_eq
        rw [hahead] at h
        exact (List.append_cancel_left h).symm
      have hpending := Cursor.passes_advance hrest
      have hwritten := hpending.trans hpasses
      have hoffset := hpasses.offset_eq
      obtain ⟨inner, hinner⟩ := Tag.exists_written_eq c.delimiters sigil lead key trail
      have hsettled : close.Settled := by
        rw [Cursor.delimiters_advance, hinner, ← List.append_assoc] at hwritten
        exact hwritten.settled
      have hopening : c.rest = pending ++ c.delimiters.opening ++
          (inner ++ c.delimiters.closing ++ Piece.print c.delimiters rest) := by
        rw [hrest, hinner]
        simp
      have hsigil : sigil ≠ .equals := by
        rintro rfl
        exact absurd hlegible.sigil_eq (by decide)
      have hlexeme := read?_of_tag hc hopening hcut hread hsigil
      rw [ofTag_of_not_alone (by rw [hclose]; exact halone.1)] at hlexeme
      have hmore := ih close [] hd hsettled hclose hseparate (by
        rw [hwritten.seen_eq]
        simpa using halone.2)
      rw [hpending.offset_eq] at hoffset
      rw [readAll_of_some hlexeme, hmore, hoffset, hpending.offset_eq]
      rfl

end Lexeme

end LogicLess
