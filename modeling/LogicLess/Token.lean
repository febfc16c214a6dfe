import LogicLess.Lexeme

/-!
# Tokens

The tokens of a template form a tree, in which a section holds the tokens between its tags. The tree
is grown from the lexemes of the source with a stack of open sections. Each line of text ends with a
mark where the next line starts.
-/

namespace LogicLess

/-- A node of the tree that a template text stands for. -/
inductive Token
  | text (text : List Char)
  | lineStart
  /-- The value of a path. -/
  | value (path : Path) (escaped : Bool)
  /-- A section, with the source between its tags as `raw`, the delimiters in force at its close
  tag, and the region from its open tag through its close tag. -/
  | block (path : Path) (inverted : Bool) (body : List Token) (raw : List Char)
      (delimiters : Delimiters) (region : Region)
  /-- Another template, with the blanks before a tag that is alone on its line. -/
  | embed (name : String) (indent : List Char)
  deriving Inhabited

/-- A section whose close tag has not been met yet. -/
structure OpenSection where
  tag : Tag
  /-- Where the text after the open tag begins. -/
  resume : Nat
  /-- The tokens before the open tag in the enclosing list, latest first. -/
  before : List Token

/-- A tree in the making. -/
structure Nesting where
  /-- The tokens of the innermost list, latest first. -/
  tokens : List Token
  /-- The sections that are open, innermost first. -/
  sections : List OpenSection

namespace Nesting

def empty : Nesting := ⟨[.lineStart], []⟩

/-- Adds a line to a list of tokens, latest first. It goes on with the text before it, if any. -/
def addLine (tokens : List Token) (line : List Char) : List Token :=
  let extended :=
    match tokens with
    | .text previous :: rest => .text (previous ++ line) :: rest
    | _ => .text line :: tokens
  if line.getLast? = some '\n' then .lineStart :: extended else extended

def addText (n : Nesting) (text : List Char) : Nesting :=
  { n with tokens := (Text.splitLines text).foldl addLine n.tokens }

def addToken (n : Nesting) (token : Token) : Nesting :=
  { n with tokens := token :: n.tokens }

def openSection (n : Nesting) (l : Lexeme) : Nesting :=
  ⟨[], ⟨l.tag, l.resume, n.tokens⟩ :: n.sections⟩

/-- Closes the innermost section, which has to bear the key of the close tag. -/
def closeSection (source : List Char) (n : Nesting) (tag : Tag) : Except Fault Nesting :=
  match n.sections with
  | [] => .error (.unopenedSection tag.region tag.content)
  | s :: outer =>
    if s.tag.content = tag.content then
      let block :=
        Token.block (.ofKey s.tag.content) (s.tag.sigil == .caret) n.tokens.reverse
          (Region.literal ⟨s.resume, tag.region.start⟩ source) tag.delimiters
          (s.tag.region.join tag.region)
      .ok ⟨block :: s.before, outer⟩
    else .error (.mismatchedSection tag.region s.tag.content tag.delimiters)

def addTag (source : List Char) (n : Nesting) (l : Lexeme) : Except Fault Nesting :=
  match l.tag.sigil with
  | .plain => .ok (n.addToken (.value (.ofKey l.tag.content) true))
  | .brace | .ampersand => .ok (n.addToken (.value (.ofKey l.tag.content) false))
  | .pound | .caret => .ok (n.openSection l)
  | .slash => n.closeSection source l.tag
  | .angle => .ok (n.addToken (.embed (String.ofList l.tag.content) l.indent))
  | .equals | .bang => .ok n

/-- Adds a lexeme: its text, then its tag. -/
def addLexeme (source : List Char) (n : Nesting) (l : Lexeme) : Except Fault Nesting :=
  (n.addText l.text).addTag source l

/-- The tokens of a tree that is complete, given the delimiters in force at its end. -/
def finish (n : Nesting) (delimiters : Delimiters) : Except Fault (List Token) :=
  match n.sections with
  | [] => .ok n.tokens.reverse
  | s :: _ => .error (.unclosedSection s.tag.region s.tag.content delimiters)

end Nesting

namespace Token

/-- The tokens that a list of lexemes stands for. Of a fault in the nesting and a tag that cannot be
read, the one that comes first in the source is reported. -/
def ofLexemes (source : List Char) (lexemes : List Lexeme) (ending : Ending) :
    Except Fault (List Token) := do
  let n ← lexemes.foldlM (Nesting.addLexeme source) Nesting.empty
  match ending with
  | .broken fault => throw fault
  | .complete tail delimiters => (n.addText tail).finish delimiters

def parse [Alphabet] (delimiters : Delimiters) (source : List Char) : Except Fault (List Token) :=
  let (lexemes, ending) := Lexeme.readAll (Cursor.start delimiters source)
  ofLexemes source lexemes ending

end Token

end LogicLess
