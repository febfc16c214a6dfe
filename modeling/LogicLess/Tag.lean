import LogicLess.Cursor
import LogicLess.Fault
import LogicLess.Path

/-!
# Tags

A tag is read from its opening delimiter: a sigil that tells its kind, its content, and an end
marked by the closing delimiter. Blanks may stand around the content, but not before the sigil.
-/

namespace LogicLess

/-- The character after an opening delimiter, which tells the kind of a tag. -/
inductive Sigil
  /-- No sigil: a value, escaped. -/
  | plain
  /-- A brace: a value as it is. -/
  | brace
  /-- An ampersand: a value as it is. -/
  | ampersand
  /-- The beginning of a section. -/
  | pound
  /-- The beginning of an inverted section. -/
  | caret
  /-- The end of a section. -/
  | slash
  /-- Another template in place of the tag. -/
  | angle
  /-- A change of delimiters. -/
  | equals
  /-- A comment. -/
  | bang
  deriving DecidableEq, Repr

namespace Sigil

def ofChar? : Char → Option Sigil
  | '{' => some .brace
  | '&' => some .ampersand
  | '#' => some .pound
  | '^' => some .caret
  | '/' => some .slash
  | '>' => some .angle
  | '=' => some .equals
  | '!' => some .bang
  | _ => none

def isValue : Sigil → Bool
  | plain | brace | ampersand => true
  | _ => false

/-- Whether a tag that is alone on its line removes the whole line. -/
def mayStandAlone (s : Sigil) : Bool := !s.isValue

/-- Whether the content of a tag is free text and not a key. -/
def isFreeText : Sigil → Bool
  | equals | bang => true
  | _ => false

/-- The characters that the key of a tag consists of. -/
def isContentChar [Alphabet] (s : Sigil) (c : Char) : Bool :=
  isKeyChar c || s == .angle && c == '/'

end Sigil

/-- A tag as it stands in a source. -/
structure Tag where
  sigil : Sigil
  content : List Char
  /-- From the opening delimiter through the closing delimiter. -/
  region : Region
  /-- The delimiters that the tag is written with. -/
  delimiters : Delimiters

namespace Cursor

def takeSigil (c : Cursor) : Sigil × Cursor :=
  match c.rest.head?.bind Sigil.ofChar? with
  | some sigil => (sigil, c.advance 1)
  | none => (.plain, c)

end Cursor

/-- The characters that may stand directly before a closing delimiter as part of the tag. -/
def isMarker (c : Char) : Bool := c == '}' || c == '!' || c == '='

namespace Delimiters

/-- The number of characters that close a tag at the beginning of `s`: the closing delimiter, with
a marker before it if there is one. -/
def closeLength? (d : Delimiters) (s : List Char) : Option Nat :=
  match s with
  | [] => none
  | c :: rest =>
    if isMarker c && d.closing.isPrefixOf rest then some (d.closing.length + 1)
    else if d.closing.isPrefixOf s then some d.closing.length
    else none

/-- The text before the first place where a tag can close. -/
def untilClose (d : Delimiters) : List Char → List Char
  | [] => []
  | c :: rest =>
    if (d.closeLength? (c :: rest)).isSome then [] else c :: d.untilClose rest

end Delimiters

namespace Tag

/-- The content of a tag whose kind is known and whose content begins at the cursor. -/
def contentAt [Alphabet] (sigil : Sigil) (c : Cursor) : List Char :=
  if sigil.isFreeText then c.delimiters.untilClose c.rest
  else c.rest.takeWhile sigil.isContentChar

def read [Alphabet] (c : Cursor) : Except Fault (Tag × Cursor) :=
  let (sigil, inside) := (c.advance c.delimiters.opening.length).takeSigil
  let begun := inside.skipWhile Text.isBlank
  let content := contentAt sigil begun
  let ended := (begun.advance content.length).skipWhile Text.isBlank
  match c.delimiters.closeLength? ended.rest with
  | none => .error (.unclosedTag ⟨c.offset, ended.offset⟩ c.delimiters.closing)
  | some n =>
    let after := ended.advance n
    let region : Region := ⟨c.offset, after.offset⟩
    if content.isEmpty && !sigil.isFreeText then .error (.emptyTag region)
    else .ok (⟨sigil, content, region, c.delimiters⟩, after)

end Tag

end LogicLess
