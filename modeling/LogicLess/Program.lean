import LogicLess.Token

/-!
# Programs

A template runs as a list of scopes, each a list of instructions. Every section has a scope of its
own, which the instruction that runs it names by its index. A scope comes before the scopes of the
sections inside it, so the indices count the sections in the order of the template.
-/

namespace LogicLess

/-- A single step of a template. -/
inductive Instruction
  | text (text : List Char)
  /-- A line starts. -/
  | lineStart
  | value (path : Path) (escaped : Bool)
  /-- A section whose body is the scope with the index `body`. -/
  | block (path : Path) (body : Nat) (raw : List Char) (delimiters : Delimiters)
  /-- An inverted section whose body is the scope with the index `body`. -/
  | inverted (path : Path) (body : Nat)
  | embed (name : String) (indent : List Char)
  deriving DecidableEq

/-- Instructions that run one after the other. -/
structure Scope where
  instructions : List Instruction
  deriving DecidableEq, Inhabited

namespace Scope

def empty : Scope := ⟨[]⟩

/-- Adds an instruction at the end. Empty text adds nothing, text goes on with the text before it,
and a line starts only once. -/
def push (s : Scope) (i : Instruction) : Scope :=
  match i, s.instructions.getLast? with
  | .text [], _ => s
  | .text t, some (.text previous) => ⟨s.instructions.dropLast ++ [.text (previous ++ t)]⟩
  | .lineStart, some .lineStart => s
  | i, _ => ⟨s.instructions ++ [i]⟩

def ofInstructions (instructions : List Instruction) : Scope :=
  instructions.foldl push empty

end Scope

namespace Token

mutual

/-- The instruction of a token and the scopes of the sections in it, the first of which has the
index `next`. -/
def compile (next : Nat) : Token → Instruction × List Scope
  | .text t => (.text t, [])
  | .lineStart => (.lineStart, [])
  | .value path escaped => (.value path escaped, [])
  | .block path inverted body raw delimiters _ =>
    let (instructions, scopes) := compileAll (next + 1) body
    (if inverted then .inverted path next else .block path next raw delimiters,
      Scope.ofInstructions instructions :: scopes)
  | .embed name indent => (.embed name indent, [])
termination_by structural token => token

def compileAll (next : Nat) : List Token → List Instruction × List Scope
  | [] => ([], [])
  | token :: rest =>
    let (instruction, scopes) := compile next token
    let (instructions, more) := compileAll (next + scopes.length) rest
    (instruction :: instructions, scopes ++ more)
termination_by structural tokens => tokens

end

/-- The scopes of a template, with the outermost one first. -/
def scopes (tokens : List Token) : List Scope :=
  let (instructions, inner) := compileAll 1 tokens
  Scope.ofInstructions instructions :: inner

end Token

end LogicLess
