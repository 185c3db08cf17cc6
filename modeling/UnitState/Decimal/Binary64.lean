/-!
# Finite binary64 numbers

A finite binary64 number is a sign and a rank: the position of its magnitude among
all nonnegative finite magnitudes in increasing order. The rank is also the exponent
and fraction fields of the usual word read as one number, so rank `0` is zero and
the first `2 ^ 52` ranks are the subnormal numbers. All arithmetic is exact in `Nat`
and is rounded once, to the nearest number, ties to the even rank. No machine
floating point is involved, and there are no infinities and no NaN.
-/

set_option autoImplicit false

namespace UnitState.Decimal

def twoPower (exponent : Nat) : Nat := Nat.pow 2 exponent

def tenPower (exponent : Nat) : Nat := Nat.pow 10 exponent

/-- The quotient rounded to the nearest integer, a half to the even neighbour. -/
def divideHalfEven (numerator denominator : Nat) : Nat :=
  let quotient := numerator / denominator
  let twice := 2 * (numerator % denominator)
  if twice < denominator then quotient
  else if denominator < twice then quotient + 1
  else quotient + quotient % 2

/-- The rank of the number nearest to `numerator / denominator` smallest units on a
grid whose magnitudes have at most `precision` significant bits. -/
def nearestRank (precision numerator denominator : Nat) : Nat :=
  let shift := (numerator / denominator).log2 - (precision - 1)
  shift * twoPower (precision - 1) + divideHalfEven numerator (denominator * twoPower shift)

def rankUnits (precision rank : Nat) : Nat :=
  let step := twoPower (precision - 1)
  if rank < step then rank
  else (step + rank % step) * twoPower (rank / step - 1)

def finiteRanks : Nat := 2047 * twoPower 52

structure Binary64 where
  negative : Bool
  rank : Nat
  finite : rank < finiteRanks
deriving DecidableEq

namespace Binary64

/-- Magnitudes are counted in units of `2 ^ -1074`, the smallest positive number. -/
def unitsPerOne : Nat := twoPower 1074

def zero (negative : Bool) : Binary64 := ⟨negative, 0, by decide⟩

instance : Inhabited Binary64 := ⟨zero false⟩

def isZero (number : Binary64) : Bool := number.rank == 0

def units (number : Binary64) : Nat := rankUnits 53 number.rank

/-- The signed value as a count of smallest units; both zeros count as `0`. -/
def signedUnits (number : Binary64) : Int :=
  if number.negative then -(number.units : Int) else number.units

def sameValue (left right : Binary64) : Bool :=
  left.rank == right.rank && (left.negative == right.negative || left.rank == 0)

/-- Rounds a ratio of smallest units; `none` when it lies beyond the finite range. -/
def ofUnits? (negative : Bool) (numerator denominator : Nat) : Option Binary64 :=
  let rank := nearestRank 53 numerator denominator
  if finite : rank < finiteRanks then some ⟨negative, rank, finite⟩ else none

def ofRatio? (negative : Bool) (numerator denominator : Nat) : Option Binary64 :=
  ofUnits? negative (numerator * unitsPerOne) denominator

def ofInt? (value : Int) : Option Binary64 :=
  ofRatio? (value < 0) value.natAbs 1

def multiply? (left right : Binary64) : Option Binary64 :=
  ofUnits? (left.negative != right.negative) (left.units * right.units) unitsPerOne

def divide? (left right : Binary64) : Option Binary64 :=
  ofUnits? (left.negative != right.negative) (left.units * unitsPerOne) right.units

/-- The number nearest to a power of ten; `none` from `10 ^ 309` on. -/
def powerOfTen? (exponent : Nat) : Option Binary64 :=
  if exponent ≤ 308 then ofRatio? false (tenPower exponent) 1 else none

def negate (number : Binary64) : Binary64 :=
  ⟨!number.negative, number.rank, number.finite⟩

@[simp] theorem same_value_refl (number : Binary64) : number.sameValue number = true := by
  simp [sameValue]

theorem same_value_symm (left right : Binary64) :
    left.sameValue right = right.sameValue left := by
  rw [Bool.eq_iff_iff]
  simp only [sameValue, Bool.and_eq_true, Bool.or_eq_true, beq_iff_eq]
  constructor <;>
  · rintro ⟨same, sign | zero⟩
    · exact ⟨same.symm, .inl sign.symm⟩
    · exact ⟨same.symm, .inr (same ▸ zero)⟩

end Binary64

/-- The magnitude of the finite binary32 number nearest to a ratio, as a count of
binary64 units; `none` when it lies beyond the finite binary32 range. -/
def narrowUnits? (numerator denominator : Nat) : Option Nat :=
  let rank := nearestRank 24 (numerator * twoPower 149) denominator
  if rank < 255 * twoPower 23 then some (rankUnits 24 rank * twoPower 925) else none

end UnitState.Decimal
