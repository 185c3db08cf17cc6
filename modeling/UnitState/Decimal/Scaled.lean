import UnitState.Decimal.Binary64

/-!
# Scaled significands

The number that a literal with an integer significand and a decimal exponent stands
for. The significand is rounded first and is then multiplied or divided by a rounded
power of ten, so the result is not always the number nearest to the literal: up to
three roundings take place.
-/

set_option autoImplicit false

namespace UnitState.Decimal

/-- Divides by `10 ^ power`. A power beyond `308` is taken off in two steps; after a
second full step every significand below `2 ^ 64` has become zero. -/
def scaleDown? (number : Binary64) (power : Nat) : Option Binary64 :=
  if power ≤ 308 then
    (Binary64.powerOfTen? power).bind number.divide?
  else if power ≤ 616 then do
    let first ← (Binary64.powerOfTen? 308).bind number.divide?
    (Binary64.powerOfTen? (power - 308)).bind first.divide?
  else some (.zero number.negative)

def scaleUp? (number : Binary64) (power : Nat) : Option Binary64 :=
  if power ≤ 308 then (Binary64.powerOfTen? power).bind number.multiply?
  else if number.isZero then some number
  else none

def scaled? (negative : Bool) (significand : Nat) (exponent : Int) : Option Binary64 := do
  let rounded ← Binary64.ofInt? significand
  let magnitude ←
    if 0 ≤ exponent then scaleUp? rounded exponent.toNat
    else scaleDown? rounded exponent.natAbs
  return if negative then magnitude.negate else magnitude

end UnitState.Decimal
