/-!
# Shortest decimals

The shortest decimal for a binary fraction is the one with the fewest digits among those that round
to the fraction, and the nearest to it among these. A decimal grid is searched from coarse to fine:
if any of its points rounds to the fraction, then one of the two next to the fraction does.
-/

namespace LogicLess.Decimal

/-- A positive binary fraction `mantissa * 2 ^ exponent` with the numbers that round to it. -/
structure BinaryFraction where
  mantissa : Nat
  exponent : Int
  /-- Whether the next lower fraction is only half as far away as the next higher one. -/
  lowerIsCloser : Bool
  deriving DecidableEq, Repr

/-- The decimal `digits * 10 ^ exponent`. -/
structure DecimalFraction where
  digits : Nat
  exponent : Int
  deriving DecidableEq, Repr

def BinaryFraction.ofBits (bits : Nat) : BinaryFraction :=
  let implicitBit := Nat.pow 2 52
  let fraction : Nat := bits % implicitBit
  let field : Nat := bits / implicitBit % Nat.pow 2 11
  if field = 0 then ⟨fraction, -1074, false⟩
  else ⟨implicitBit + fraction, (field : Int) - 1075, fraction = 0 && field > 1⟩

/-- Powers with a possibly negative exponent, as a numerator and a denominator. -/
def powerRatio (base : Nat) (exponent : Int) : Nat × Nat :=
  (Nat.pow base exponent.toNat, Nat.pow base (-exponent).toNat)

/-- The point of the grid of multiples of `10 ^ e` that rounds to the fraction and is nearest to it,
an even one of two at the same distance. -/
def nearestOnGrid? (x : BinaryFraction) (e : Int) : Option Nat :=
  -- Quarters of the last binary place, over the common denominator of both grids.
  let (twos, halves) := powerRatio 2 (x.exponent - 2)
  let (tens, tenths) := powerRatio 10 e
  let scale := twos * tenths
  let unit := tens * halves
  let value := 4 * x.mantissa * scale
  let low := (4 * x.mantissa - if x.lowerIsCloser then 1 else 2) * scale
  let high := (4 * x.mantissa + 2) * scale
  let rounds (d : Nat) : Bool :=
    if x.mantissa % 2 = 0 then low ≤ d * unit && d * unit ≤ high
    else low < d * unit && d * unit < high
  let below := value / unit
  let above := below + 1
  let downward := value - below * unit
  let upward := above * unit - value
  let preferBelow := downward < upward || downward = upward && below % 2 = 0
  match rounds below, rounds above with
  | true, true => some (if preferBelow then below else above)
  | true, false => some below
  | false, true => some above
  | false, false => none

/-- Searches the grids from `10 ^ e` on, each ten times as fine as the one before. -/
def searchGrids (x : BinaryFraction) : Nat → Int → DecimalFraction
  | 0, e => ⟨(nearestOnGrid? x e).getD 0, e⟩
  | fuel + 1, e =>
    match nearestOnGrid? x e with
    | some digits => ⟨digits, e⟩
    | none => searchGrids x fuel (e - 1)

/-- A power of ten above the fraction, from the number of its binary places. -/
def exponentAbove (x : BinaryFraction) : Int :=
  (((x.mantissa.log2 : Int) + 1 + x.exponent) * 30103).fdiv 100000 + 1

/-- The shortest decimal that rounds to the fraction. Seventeen digits always suffice. -/
def shortest (x : BinaryFraction) : DecimalFraction :=
  searchGrids x 20 (exponentAbove x)

end LogicLess.Decimal
