import LogicLess.Program

/-!
# Templates

A template is read from its text with a pair of delimiters and kept as a list of scopes.
-/

namespace LogicLess

/-- A template that is ready to run. -/
structure Template where
  /-- The name that it is registered under. -/
  name : Option String
  /-- The delimiters at the beginning of its text. -/
  delimiters : Delimiters
  /-- The scopes, with the one to begin with first. -/
  scopes : List Scope
  deriving DecidableEq

namespace Template

def ofTokens (name : Option String) (delimiters : Delimiters) (tokens : List Token) : Template :=
  ⟨name, delimiters, Token.scopes tokens⟩

/-- Reads a template. A name given to the template is also given to the report of a fault. -/
def compile [Alphabet] (delimiters : Delimiters) (source : List Char) (name : Option String) :
    Except Diagnostic Template :=
  match Token.parse delimiters source with
  | .ok tokens => .ok (ofTokens name delimiters tokens)
  | .error fault => .error { fault.diagnostic source with name := name }

end Template

end LogicLess
