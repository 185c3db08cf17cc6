import UnitState.Decimal.Binary64

/-!
# Shortest decimal text

The shortest decimal that reads back as a given binary64 number. Among the grids of
multiples of a power of ten, the coarsest one with a point in the number's rounding
interval decides how many digits are written; of its two points around the number
the nearer is taken, a tie going to the even one. The ends of the interval belong to
it exactly when the rank is even, since ties are rounded to even ranks.
-/

set_option autoImplicit false

namespace UnitState.Decimal

/-- The reals that round to one positive number, in quarters of smallest units. -/
structure RoundingInterval where
  lower : Nat
  value : Nat
  upper : Nat
  closed : Bool

namespace Binary64

def roundingInterval (number : Binary64) : RoundingInterval :=
  let value := 4 * number.units
  let gap := twoPower (number.rank / twoPower 52 - 1)
  let below :=
    if number.rank % twoPower 52 = 0 ∧ twoPower 53 ≤ number.rank then gap else 2 * gap
  { lower := value - below
    value := value
    upper := value + 2 * gap
    closed := number.rank % 2 = 0 }

end Binary64

namespace RoundingInterval

def contains (interval : RoundingInterval) (numerator denominator : Nat) : Bool :=
  if interval.closed then
    interval.lower * denominator ≤ numerator && numerator ≤ interval.upper * denominator
  else
    interval.lower * denominator < numerator && numerator < interval.upper * denominator

end RoundingInterval

def tenFactors (exponent : Int) : Nat × Nat :=
  if 0 ≤ exponent then (tenPower exponent.toNat, 1) else (1, tenPower (-exponent).toNat)

def gridPoint? (interval : RoundingInterval) (exponent : Int) : Option Nat :=
  let (multiplier, divisor) := tenFactors exponent
  let step := 4 * multiplier * Binary64.unitsPerOne
  let scaled := interval.value * divisor
  let below := scaled / step
  let belowFits := interval.contains (below * step) divisor
  let aboveFits := interval.contains ((below + 1) * step) divisor
  if belowFits && aboveFits then
    let twice := 2 * (scaled % step)
    some (if twice < step then below
      else if step < twice then below + 1
      else below + below % 2)
  else if belowFits then some below
  else if aboveFits then some (below + 1)
  else none

/-- The coarsest grid with a point in the interval, searched downward from `10 ^ top`
for at most `count` grids. -/
def coarsestPoint? (interval : RoundingInterval) (top : Int) : Nat → Option (Nat × Int)
  | 0 => none
  | count + 1 =>
      match gridPoint? interval top with
      | some coefficient => some (coefficient, top)
      | none => coarsestPoint? interval (top - 1) count

def dropZeros (coefficient : Nat) (exponent : Int) : Nat → Nat × Int
  | 0 => (coefficient, exponent)
  | count + 1 =>
      if coefficient % 10 = 0 then dropZeros (coefficient / 10) (exponent + 1) count
      else (coefficient, exponent)

/-- The shortest coefficient and exponent of a positive number. No finite number needs
a grid finer than `10 ^ -1074`, and none reaches `10 ^ 309`. -/
def shortest (number : Binary64) : Nat × Int :=
  match coarsestPoint? number.roundingInterval 309 1384 with
  | some (coefficient, exponent) => dropZeros coefficient exponent 20
  | none => (0, 0)

/-- When a number is written without an exponent: as long as its leading digit stands
for a power of ten within these bounds. -/
structure PointStyle where
  leastPositional : Int
  greatestPositional : Int

def digitsOf (number : Nat) : List Char := Nat.toDigits 10 number

def exponentText (exponent : Int) : List Char :=
  if exponent < 0 then 'e' :: '-' :: digitsOf exponent.natAbs
  else 'e' :: '+' :: digitsOf exponent.natAbs

/-- Writes the digits of a coefficient whose leading digit stands for `10 ^ leading`.
Positional text always has a digit on either side of the point. -/
def PointStyle.write (style : PointStyle) (digits : List Char) (leading : Int) : List Char :=
  if style.leastPositional ≤ leading ∧ leading ≤ style.greatestPositional then
    if 0 ≤ leading then
      let whole := leading.toNat + 1
      let padded := digits ++ List.replicate (whole - digits.length) '0'
      let fraction := digits.drop whole
      padded.take whole ++ '.' :: (if fraction.isEmpty then ['0'] else fraction)
    else
      '0' :: '.' :: List.replicate ((-leading).toNat - 1) '0' ++ digits
  else
    match digits with
    | [] => []
    | [single] => single :: exponentText leading
    | first :: rest => first :: '.' :: rest ++ exponentText leading

def PointStyle.text (style : PointStyle) (number : Binary64) : List Char :=
  let sign := if number.negative then ['-'] else []
  if number.isZero then sign ++ ['0', '.', '0']
  else
    let (coefficient, exponent) := shortest number
    let digits := digitsOf coefficient
    sign ++ style.write digits (exponent + digits.length - 1)

end UnitState.Decimal
