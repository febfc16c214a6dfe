import LogicLess.Decimal.Shortest

/-!
# Numbers

A number is an integer or a binary fraction. Integers are written in decimal. Fractions are written
with the fewest digits that read back: positional from `0.00001` up to, not including, `10 ^ 16`,
always with a point, and otherwise with an exponent.
-/

namespace LogicLess

inductive Number
  | integer (n : Int)
  | real (x : Float)

namespace Number

def isZero : Number → Bool
  | integer n => n == 0
  | real x => x == 0.0

/-- Integers and fractions differ, whatever their values. -/
instance : BEq Number where
  beq
    | integer m, integer n => m == n
    | real x, real y => x == y
    | _, _ => false

def integerText (n : Int) : List Char :=
  let digits := Nat.toDigits 10 n.natAbs
  if n < 0 then '-' :: digits else digits

/-- Digits with the decimal point before the last `-exponent` of them. -/
def positional (digits : List Char) (exponent : Int) : List Char :=
  if 0 ≤ exponent then digits ++ List.replicate exponent.toNat '0' ++ ['.', '0']
  else
    let places := (-exponent).toNat
    let padded := List.replicate (places + 1 - digits.length) '0' ++ digits
    let whole := padded.length - places
    padded.take whole ++ '.' :: padded.drop whole

/-- Digits with the decimal point after the first of them, and the exponent `magnitude`. -/
def scientific (digits : List Char) (magnitude : Int) : List Char :=
  let mantissa :=
    match digits with
    | first :: second :: rest => first :: '.' :: second :: rest
    | _ => digits
  mantissa ++ 'e' :: (if 0 ≤ magnitude then ['+'] else []) ++ integerText magnitude

def decimalText (d : Decimal.DecimalFraction) : List Char :=
  let digits := Nat.toDigits 10 d.digits
  let magnitude := d.exponent + digits.length - 1
  if -5 ≤ magnitude ∧ magnitude < 16 then positional digits d.exponent
  else scientific digits magnitude

/-- A finite fraction given by its 64-bit pattern. -/
def bitsText (bits : Nat) : List Char :=
  let magnitude := bits % Nat.pow 2 63
  let text :=
    if magnitude = 0 then ['0', '.', '0']
    else decimalText (Decimal.shortest (.ofBits magnitude))
  if bits = magnitude then text else '-' :: text

example : bitsText 0x4059000000000000 = ['1', '0', '0', '.', '0'] := by decide +kernel
example : bitsText 0x4341C37937E08000 = ['1', 'e', '+', '1', '6'] := by decide +kernel
example : bitsText 0x3EE4F8B588E368F1 = ['0', '.', '0', '0', '0', '0', '1'] := by decide +kernel
example : bitsText 0x3E7AD7F29ABCAF48 = ['1', 'e', '-', '7'] := by decide +kernel
example : bitsText 0x8000000000000000 = ['-', '0', '.', '0'] := by decide +kernel

def text : Number → List Char
  | integer n => integerText n
  | real x => bitsText x.toBits.toNat

end Number

end LogicLess
