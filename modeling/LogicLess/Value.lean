import LogicLess.Entries
import LogicLess.Number

/-!
# Values

Values are the data that a template is run against. Besides the usual kinds there are lambdas, which
are called where a tag refers to them. A lambda is known here by its handle alone; what a call does
is told by the table of lambdas that a template is run with.
-/

namespace LogicLess

/-- Data of a template. -/
inductive Value
  | null
  | bool (b : Bool)
  | number (n : Number)
  | string (s : String)
  | list (items : List Value)
  /-- Entries under distinct names, in any order. -/
  | map (entries : List (String × Value))
  /-- Something to call. Two lambdas are the same if their handles are. -/
  | lambda (handle : Nat)

namespace Value

instance : Inhabited Value := ⟨null⟩

/-- Whether a section on the value is shown: null, false, zero and empty text count as absent. Lists
and maps never do, even if they are empty. -/
def isTruthy : Value → Bool
  | null => false
  | bool b => b
  | number n => !n.isZero
  | string s => !s.isEmpty
  | list _ | map _ | lambda _ => true

/-- The value of a text of decimal digits; nothing if the text is empty or holds another character. -/
def digitsValue? (digits : List Char) : Option Nat :=
  if digits.isEmpty || digits.any (!·.isDigit) then none
  else some (digits.foldl (fun n c => 10 * n + (c.toNat - '0'.toNat)) 0)

/-- The place in a list that a key names: decimal digits, with a plus sign before them or not. -/
def listIndex? (key : String) : Option Nat :=
  match key.toList with
  | '+' :: digits => digitsValue? digits
  | digits => digitsValue? digits

/-- The member of the given name or at the given place. -/
def get? (v : Value) (key : String) : Option Value :=
  match v with
  | map entries => Entries.find? key entries
  | list items => (listIndex? key).bind fun n => items[n]?
  | _ => none

def asString? : Value → Option String
  | string s => some s
  | _ => none

def asList? : Value → Option (List Value)
  | list items => some items
  | _ => none

def asMap? : Value → Option (List (String × Value))
  | map entries => some entries
  | _ => none

def ofInt (n : Int) : Value := number (.integer n)

/-- A finite fraction; null for an infinity or a value that is no number. -/
def ofFloat (x : Float) : Value :=
  if x.isFinite then number (.real x) else null

def ofOption (s : Option String) : Value :=
  match s with
  | some s => string s
  | none => null

mutual

def same : Value → Value → Bool
  | null, null => true
  | bool a, bool b => a == b
  | number m, number n => m == n
  | string s, string t => s == t
  | list xs, list ys => sameItems xs ys
  | map xs, map ys => xs.length == ys.length && sameEntries xs ys
  | lambda f, lambda g => f == g
  | _, _ => false
termination_by structural v => v

def sameItems : List Value → List Value → Bool
  | [], [] => true
  | x :: xs, y :: ys => x.same y && sameItems xs ys
  | _, _ => false
termination_by structural xs => xs

/-- Whether every entry has the same value under its name among the others. -/
def sameEntries : List (String × Value) → List (String × Value) → Bool
  | [], _ => true
  | (key, x) :: rest, ys =>
    (match Entries.find? key ys with
      | some y => x.same y
      | none => false) && sameEntries rest ys
termination_by structural xs => xs

end

instance : BEq Value := ⟨same⟩

end Value

end LogicLess
