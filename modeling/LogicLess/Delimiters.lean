import LogicLess.Text.Blank
import LogicLess.Text.Split
import LogicLess.Diagnostic

/-!
# Delimiters

A pair of delimiters marks where a tag begins and ends. Neither may be empty or hold white space or
an equals sign, so that a delimiter tag can name them. The type carries this, which is why reading a
tag always uses up some text.
-/

namespace LogicLess

def isDelimiter (s : List Char) : Bool :=
  !s.isEmpty && s.all fun c => !Text.isWhitespace c && c != '='

theorem ne_nil_of_isDelimiter {s : List Char} (h : isDelimiter s = true) : s ≠ [] := by
  rintro rfl
  simp [isDelimiter] at h

/-- A pair of delimiters that mark the beginning and the end of a tag. -/
structure Delimiters where
  opening : List Char
  closing : List Char
  opening_ok : isDelimiter opening = true
  closing_ok : isDelimiter closing = true
  deriving DecidableEq

/-- Why a text does not give a pair of delimiters. -/
inductive DelimiterProblem
  | unusable (delimiter : List Char)
  | notAPair

namespace DelimiterProblem

def help : DelimiterProblem → String
  | unusable delimiter =>
    "delimiter `" ++ String.ofList delimiter ++
      "` must not be empty, and must not contain whitespace or `=`"
  | notAPair =>
    "expected two delimiters separated by whitespace, like `\x7b\x7b=<% %>=\x7d\x7d`"

def diagnostic (problem : DelimiterProblem) : Diagnostic :=
  { reason := ProblemKind.invalidDelimiters.reason
    kind := some .invalidDelimiters
    help := some problem.help }

end DelimiterProblem

namespace Delimiters

/-- Double braces, the delimiters of a template that asks for no others. -/
def braces : Delimiters :=
  ⟨['{', '{'], ['}', '}'], by decide, by decide⟩

instance : Inhabited Delimiters := ⟨braces⟩

/-- The pair of two texts. The opening delimiter is checked first. -/
def ofPair (opening closing : List Char) : Except DelimiterProblem Delimiters :=
  if ho : isDelimiter opening = true then
    if hc : isDelimiter closing = true then .ok ⟨opening, closing, ho, hc⟩
    else .error (.unusable closing)
  else .error (.unusable opening)

/-- The pair named by the content of a delimiter tag. -/
def ofContent (content : List Char) : Except DelimiterProblem Delimiters :=
  match Text.words Text.isWhitespace content with
  | [opening, closing] => ofPair opening closing
  | _ => .error .notAPair

theorem opening_ne_nil (d : Delimiters) : d.opening ≠ [] :=
  ne_nil_of_isDelimiter d.opening_ok

theorem closing_ne_nil (d : Delimiters) : d.closing ≠ [] :=
  ne_nil_of_isDelimiter d.closing_ok

theorem opening_length_pos (d : Delimiters) : 0 < d.opening.length :=
  List.length_pos_iff.2 d.opening_ne_nil

end Delimiters

end LogicLess
