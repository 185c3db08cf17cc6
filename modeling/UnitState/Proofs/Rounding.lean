import Mathlib.Tactic.Ring
import Mathlib.Tactic.Linarith
import UnitState.Decimal.Scaled

/-!
# Rounding to binary64 numbers

What rounding does to a ratio of smallest units: the result is at most half a step above the
ratio, it is not below the greatest power of two that the ratio reaches, and it is finite up to
half a step above the greatest number. So dividing by a power of ten is always possible, and
multiplying by one is possible as long as the exact product stays clear of that bound.
-/

set_option autoImplicit false

namespace UnitState.Decimal

theorem two_power_eq (exponent : Nat) : twoPower exponent = 2 ^ exponent := rfl

theorem ten_power_eq (exponent : Nat) : tenPower exponent = 10 ^ exponent := rfl

theorem ten_power_pos (exponent : Nat) : 0 < tenPower exponent := Nat.pow_pos (by decide)

theorem ten_power_le {power exponent : Nat} (below : power ≤ exponent) :
    tenPower power ≤ tenPower exponent :=
  Nat.pow_le_pow_right (by decide) below

theorem two_power_pos (exponent : Nat) : 0 < twoPower exponent := Nat.two_pow_pos exponent

theorem power_le_two_power {power exponent : Nat} (below : power ≤ exponent) :
    2 ^ power ≤ twoPower exponent :=
  Nat.pow_le_pow_right Nat.two_pos below

theorem log_lt_of_lt_power {number exponent : Nat} (positive : 0 < exponent)
    (below : number < twoPower exponent) : number.log2 < exponent := by
  rcases Nat.eq_zero_or_pos number with rfl | some
  · simpa using positive
  · exact (Nat.log2_lt (Nat.ne_of_gt some)).2 below

theorem rank_units_subnormal {rank : Nat} (subnormal : rank < 2 ^ 52) :
    rankUnits 53 rank = rank :=
  if_pos subnormal

theorem rank_units_normal {rank : Nat} (normal : 2 ^ 52 ≤ rank) :
    rankUnits 53 rank = (2 ^ 52 + rank % 2 ^ 52) * 2 ^ (rank / 2 ^ 52 - 1) :=
  if_neg (Nat.not_lt.2 normal)

theorem rank_units_shifted {shift coefficient : Nat} (atMost : coefficient ≤ 2 ^ 53)
    (normal : 2 ^ 52 ≤ coefficient ∨ shift = 0) :
    rankUnits 53 (shift * 2 ^ 52 + coefficient) = coefficient * 2 ^ shift := by
  rcases Nat.lt_or_ge coefficient (2 ^ 52) with subnormal | reach
  · have unshifted : shift = 0 := normal.resolve_left (Nat.not_le.2 subnormal)
    rw [unshifted, Nat.zero_mul, Nat.zero_add, rank_units_subnormal subnormal, pow_zero,
      Nat.mul_one]
  · rcases Nat.lt_or_ge coefficient (2 ^ 53) with inside | carried
    · have place : (shift * 2 ^ 52 + coefficient) / 2 ^ 52 = shift + 1 := by omega
      have rest : (shift * 2 ^ 52 + coefficient) % 2 ^ 52 = coefficient - 2 ^ 52 := by omega
      rw [rank_units_normal (by omega), place, rest, Nat.add_sub_cancel, Nat.add_sub_cancel' reach]
    · -- the coefficient is the next power of two
      have exactly : coefficient = 2 ^ 53 := by omega
      subst exactly
      have place : (shift * 2 ^ 52 + 2 ^ 53) / 2 ^ 52 = shift + 2 := by omega
      have rest : (shift * 2 ^ 52 + 2 ^ 53) % 2 ^ 52 = 0 := by omega
      have power : shift + 2 - 1 = shift + 1 := rfl
      rw [rank_units_normal (by omega), place, rest, Nat.add_zero, power]
      ring

section Halves

variable (numerator denominator : Nat)

/-- What is rounded is the quotient, or one more than it: the nearer one, and in the middle the even
one. -/
theorem divide_half_even_shape :
    ∃ up, divideHalfEven numerator denominator = numerator / denominator + up ∧
      (up = 0 ∧ 2 * (numerator % denominator) ≤ denominator ∨
        up = 1 ∧ denominator ≤ 2 * (numerator % denominator)) ∧
      (2 * (numerator % denominator) = denominator → (numerator / denominator + up) % 2 = 0) := by
  simp only [divideHalfEven]
  split
  · exact ⟨0, rfl, .inl ⟨rfl, by omega⟩, by omega⟩
  · split
    · exact ⟨1, rfl, .inr ⟨rfl, by omega⟩, by omega⟩
    · exact ⟨numerator / denominator % 2, rfl, by omega, by omega⟩

theorem quotient_le_divide_half_even :
    numerator / denominator ≤ divideHalfEven numerator denominator := by
  obtain ⟨up, shape, _⟩ := divide_half_even_shape numerator denominator
  omega

theorem divide_half_even_le_quotient :
    divideHalfEven numerator denominator ≤ numerator / denominator + 1 := by
  obtain ⟨up, shape, _⟩ := divide_half_even_shape numerator denominator
  omega

theorem divide_half_even_le :
    2 * (divideHalfEven numerator denominator * denominator) ≤
      2 * numerator + denominator := by
  obtain ⟨up, shape, near, _⟩ := divide_half_even_shape numerator denominator
  have whole := Nat.div_add_mod' numerator denominator
  rw [shape, Nat.add_mul]
  rcases near with ⟨rfl, _⟩ | ⟨rfl, _⟩ <;> omega

theorem divide_half_even_ge (positive : 0 < denominator) :
    2 * numerator ≤ 2 * (divideHalfEven numerator denominator * denominator) + denominator := by
  obtain ⟨up, shape, near, _⟩ := divide_half_even_shape numerator denominator
  have whole := Nat.div_add_mod' numerator denominator
  have rest := Nat.mod_lt numerator positive
  rw [shape, Nat.add_mul]
  rcases near with ⟨rfl, _⟩ | ⟨rfl, _⟩ <;> omega

theorem divide_half_even_cases (positive : 0 < denominator) :
    divideHalfEven numerator denominator % 2 = 0 ∨
      2 * (divideHalfEven numerator denominator * denominator) < 2 * numerator + denominator ∧
        2 * numerator <
          2 * (divideHalfEven numerator denominator * denominator) + denominator := by
  obtain ⟨up, shape, near, even⟩ := divide_half_even_shape numerator denominator
  have whole := Nat.div_add_mod' numerator denominator
  have rest := Nat.mod_lt numerator positive
  rw [shape]
  by_cases middle : 2 * (numerator % denominator) = denominator
  · exact .inl (even middle)
  · right
    rw [Nat.add_mul]
    rcases near with ⟨rfl, _⟩ | ⟨rfl, _⟩ <;> omega

end Halves

/-- The least count of units that is rounded beyond the finite numbers, half a step above the
greatest one. -/
def overflowUnits : Nat := 18014398509481983 * twoPower 2044

theorem overflow_units_lt : overflowUnits < twoPower 2098 := by decide +kernel

theorem twice_overflow_units {shift : Nat} (last : shift = 2045) :
    2 * overflowUnits = 18014398509481983 * twoPower shift := by
  subst last
  decide +kernel

theorem twice_lt_of_in_range {numerator denominator shift : Nat}
    (inRange : numerator < denominator * overflowUnits) (last : shift = 2045) :
    2 * numerator < 18014398509481983 * (denominator * 2 ^ shift) := by
  calc 2 * numerator < 2 * (denominator * overflowUnits) :=
        Nat.mul_lt_mul_of_pos_left inRange Nat.two_pos
    _ = denominator * (2 * overflowUnits) := Nat.mul_left_comm _ _ _
    _ = denominator * (18014398509481983 * 2 ^ shift) := by
        rw [twice_overflow_units last, two_power_eq]
    _ = 18014398509481983 * (denominator * 2 ^ shift) := Nat.mul_left_comm _ _ _

theorem nearest_rank_finite {numerator denominator : Nat} (positive : 0 < denominator)
    (inRange : numerator < denominator * overflowUnits) :
    nearestRank 53 numerator denominator < finiteRanks := by
  have small : numerator / denominator < overflowUnits :=
    (Nat.div_lt_iff_lt_mul positive).2 (by rwa [Nat.mul_comm])
  have bits : (numerator / denominator).log2 < 2098 :=
    log_lt_of_lt_power (by decide) (small.trans overflow_units_lt)
  have top : numerator / denominator < 2 ^ ((numerator / denominator).log2 + 1) :=
    Nat.lt_log2_self
  simp only [nearestRank, finiteRanks, two_power_eq, Nat.add_one_sub_one] at *
  generalize shiftEq : (numerator / denominator).log2 - 52 = shift
  have scaled : numerator / (denominator * 2 ^ shift) = numerator / denominator / 2 ^ shift :=
    (Nat.div_div_eq_div_mul _ _ _).symm
  rcases Nat.lt_or_ge shift 2045 with lower | highest
  · have quotient : numerator / (denominator * 2 ^ shift) < 2 ^ 53 := by
      rw [scaled, Nat.div_lt_iff_lt_mul (Nat.two_pow_pos shift), ← Nat.pow_add]
      exact top.trans_le (Nat.pow_le_pow_right (by decide) (by omega))
    have rounded := divide_half_even_le_quotient numerator (denominator * 2 ^ shift)
    have shifted : shift * 2 ^ 52 ≤ 2044 * 2 ^ 52 := Nat.mul_le_mul_right _ (by omega)
    omega
  · -- in the highest range the bound is half a step above the last number
    have exactly : shift = 2045 := by omega
    have rounded := divide_half_even_le numerator (denominator * 2 ^ shift)
    have below := twice_lt_of_in_range inRange exactly
    have step : 0 < denominator * 2 ^ shift := Nat.mul_pos positive (Nat.two_pow_pos _)
    generalize denominator * 2 ^ shift = unit at *
    have last : divideHalfEven numerator unit < 2 ^ 53 := by
      by_contra above
      have reach : 2 ^ 53 * unit ≤ divideHalfEven numerator unit * unit :=
        Nat.mul_le_mul_right unit (Nat.le_of_not_lt above)
      omega
    omega

/-- A ratio is rounded to a whole coefficient of a power of two, which is the smallest unit
unless the ratio reaches the coefficients of full precision. -/
theorem nearest_rank_parts (numerator denominator : Nat) :
    ∃ shift, nearestRank 53 numerator denominator =
        shift * 2 ^ 52 + divideHalfEven numerator (denominator * 2 ^ shift) ∧
      rankUnits 53 (nearestRank 53 numerator denominator) =
        divideHalfEven numerator (denominator * 2 ^ shift) * 2 ^ shift ∧
      (shift ≠ 0 → 2 ^ (shift + 52) ≤ numerator / denominator) ∧
      numerator / denominator < 2 ^ (shift + 53) := by
  have top : numerator / denominator < 2 ^ ((numerator / denominator).log2 + 1) :=
    Nat.lt_log2_self
  have low : numerator / denominator ≠ 0 →
      2 ^ (numerator / denominator).log2 ≤ numerator / denominator := Nat.log2_self_le
  have shape : nearestRank 53 numerator denominator =
      ((numerator / denominator).log2 - 52) * 2 ^ 52 +
        divideHalfEven numerator (denominator * 2 ^ ((numerator / denominator).log2 - 52)) := rfl
  generalize shiftEq : (numerator / denominator).log2 - 52 = shift at shape
  have scaled : numerator / (denominator * 2 ^ shift) = numerator / denominator / 2 ^ shift :=
    (Nat.div_div_eq_div_mul _ _ _).symm
  have below : numerator / denominator < 2 ^ (shift + 53) :=
    top.trans_le (Nat.pow_le_pow_right Nat.two_pos (by omega))
  have reach : shift ≠ 0 → 2 ^ (shift + 52) ≤ numerator / denominator := by
    intro shifted
    have bits : (numerator / denominator).log2 = shift + 52 := by omega
    rw [← bits]
    apply low
    intro zero
    rw [zero, Nat.log2_zero] at bits
    omega
  have atMost : divideHalfEven numerator (denominator * 2 ^ shift) ≤ 2 ^ 53 := by
    refine Nat.le_trans (divide_half_even_le_quotient _ _) (Nat.succ_le_of_lt ?_)
    rw [scaled, Nat.div_lt_iff_lt_mul (Nat.two_pow_pos shift), ← Nat.pow_add, Nat.add_comm]
    exact below
  have full : 2 ^ 52 ≤ divideHalfEven numerator (denominator * 2 ^ shift) ∨ shift = 0 := by
    refine (Decidable.em (shift = 0)).symm.imp_left fun shifted => ?_
    refine Nat.le_trans ?_ (quotient_le_divide_half_even _ _)
    rw [scaled, Nat.le_div_iff_mul_le (Nat.two_pow_pos shift), ← Nat.pow_add, Nat.add_comm]
    exact reach shifted
  refine ⟨shift, shape, ?_, reach, below⟩
  rw [shape, rank_units_shifted atMost full]

theorem nearest_rank_shape {numerator denominator : Nat} (positive : 0 < denominator)
    (normal : denominator * 2 ^ 52 ≤ numerator) :
    ∃ shift coefficient, 2 ^ 52 ≤ coefficient ∧
      rankUnits 53 (nearestRank 53 numerator denominator) = coefficient * 2 ^ shift ∧
      2 ^ (shift + 52) ≤ numerator / denominator ∧
      numerator / denominator < 2 ^ (shift + 53) ∧
      2 * (coefficient * (denominator * 2 ^ shift)) ≤
        2 * numerator + denominator * 2 ^ shift := by
  obtain ⟨shift, _, units, reach, below⟩ := nearest_rank_parts numerator denominator
  have least : 2 ^ (shift + 52) ≤ numerator / denominator := by
    by_cases unshifted : shift = 0
    · rw [unshifted, Nat.zero_add, Nat.le_div_iff_mul_le positive, Nat.mul_comm]
      exact normal
    · exact reach unshifted
  have atLeast : 2 ^ 52 ≤ divideHalfEven numerator (denominator * 2 ^ shift) := by
    refine Nat.le_trans ?_ (quotient_le_divide_half_even _ _)
    rw [← Nat.div_div_eq_div_mul, Nat.le_div_iff_mul_le (Nat.two_pow_pos shift), ← Nat.pow_add,
      Nat.add_comm]
    exact least
  exact ⟨shift, _, atLeast, units, least, below, divide_half_even_le _ _⟩

theorem units_nearest_rank_le {numerator denominator : Nat} (positive : 0 < denominator)
    (normal : denominator * 2 ^ 52 ≤ numerator) :
    rankUnits 53 (nearestRank 53 numerator denominator) * denominator * 2 ^ 53 ≤
      numerator * (2 ^ 53 + 1) := by
  obtain ⟨shift, coefficient, _, units, low, _, rounded⟩ := nearest_rank_shape positive normal
  have step : denominator * 2 ^ shift * 2 ^ 52 ≤ numerator := by
    have reach := (Nat.le_div_iff_mul_le positive).1 low
    calc denominator * 2 ^ shift * 2 ^ 52 = 2 ^ (shift + 52) * denominator := by ring
      _ ≤ numerator := reach
  have whole : coefficient * 2 ^ shift * denominator * 2 ^ 53 =
      2 * (coefficient * (denominator * 2 ^ shift)) * 2 ^ 52 := by ring
  rw [units, whole]
  calc 2 * (coefficient * (denominator * 2 ^ shift)) * 2 ^ 52
      ≤ (2 * numerator + denominator * 2 ^ shift) * 2 ^ 52 := Nat.mul_le_mul_right _ rounded
    _ = numerator * 2 ^ 53 + denominator * 2 ^ shift * 2 ^ 52 := by ring
    _ ≤ numerator * 2 ^ 53 + numerator := Nat.add_le_add_left step _
    _ = numerator * (2 ^ 53 + 1) := by ring

theorem power_le_units_nearest_rank {numerator denominator power : Nat}
    (positive : 0 < denominator) (normal : 52 ≤ power)
    (reach : denominator * twoPower power ≤ numerator) :
    twoPower power ≤ rankUnits 53 (nearestRank 53 numerator denominator) := by
  rw [two_power_eq] at *
  have powers : 2 ^ 52 ≤ 2 ^ power := Nat.pow_le_pow_right Nat.two_pos normal
  have least : denominator * 2 ^ 52 ≤ numerator :=
    Nat.le_trans (Nat.mul_le_mul_left denominator powers) reach
  obtain ⟨shift, coefficient, atLeast, units, _, top, _⟩ := nearest_rank_shape positive least
  have flipped : 2 ^ power * denominator ≤ numerator := by
    rw [Nat.mul_comm]
    exact reach
  have quotient : 2 ^ power ≤ numerator / denominator :=
    (Nat.le_div_iff_mul_le positive).2 flipped
  have bits : power < shift + 53 :=
    (Nat.pow_lt_pow_iff_right (by decide)).1 (quotient.trans_lt top)
  rw [units]
  have upTo : power ≤ 52 + shift := by omega
  calc 2 ^ power ≤ 2 ^ (52 + shift) := Nat.pow_le_pow_right Nat.two_pos upTo
    _ = 2 ^ 52 * 2 ^ shift := Nat.pow_add 2 52 shift
    _ ≤ coefficient * 2 ^ shift := Nat.mul_le_mul_right (2 ^ shift) atLeast

namespace Binary64

theorem of_units_finite (negative : Bool) {numerator denominator : Nat}
    (positive : 0 < denominator) (inRange : numerator < denominator * overflowUnits) :
    ∃ number : Binary64, ofUnits? negative numerator denominator = some number ∧
      number.units = rankUnits 53 (nearestRank 53 numerator denominator) := by
  have finite := nearest_rank_finite positive inRange
  exact ⟨⟨negative, _, finite⟩, dif_pos finite, rfl⟩

theorem greatest_units_lt : 9007199254740991 * twoPower 2045 < overflowUnits := by decide +kernel

/-- In the units of the number, with the step to the next one: every number stays half a step
below the bound, and the two greatest apart, two and a half steps. -/
theorem units_lt (number : Binary64) : number.units < overflowUnits := by
  have finite := number.finite
  simp only [finiteRanks, two_power_eq] at finite
  rcases Nat.lt_or_ge number.rank (2 ^ 52) with subnormal | normal
  · rw [units, rank_units_subnormal subnormal]
    have one := two_power_pos 2045
    calc number.rank ≤ 9007199254740991 * 1 := by omega
      _ ≤ 9007199254740991 * twoPower 2045 := Nat.mul_le_mul_left _ one
      _ < overflowUnits := greatest_units_lt
  · rw [units, rank_units_normal normal]
    have range : number.rank / 2 ^ 52 - 1 ≤ 2045 := by omega
    have power := power_le_two_power range
    have coefficient : 2 ^ 52 + number.rank % 2 ^ 52 ≤ 9007199254740991 := by omega
    exact (Nat.mul_le_mul coefficient power).trans_lt greatest_units_lt

theorem units_per_one_pos : 0 < unitsPerOne := two_power_pos 1074

theorem whole_rounded {count : Nat} (positive : 0 < count)
    (inRange : count * unitsPerOne < overflowUnits) :
    ∃ number, ofRatio? false count 1 = some number ∧ unitsPerOne ≤ number.units ∧
      number.units * 2 ^ 53 ≤ count * unitsPerOne * (2 ^ 53 + 1) := by
  have inUnits : count * unitsPerOne < 1 * overflowUnits := by
    rw [Nat.one_mul]
    exact inRange
  obtain ⟨number, found, units⟩ := of_units_finite false Nat.one_pos inUnits
  have reach : 1 * twoPower 1074 ≤ count * unitsPerOne := Nat.mul_le_mul_right _ positive
  have least : 1 * 2 ^ 52 ≤ 1 * twoPower 1074 :=
    Nat.mul_le_mul_left 1 (power_le_two_power (by decide))
  have above := units_nearest_rank_le Nat.one_pos (least.trans reach)
  rw [Nat.mul_one, ← units] at above
  refine ⟨number, found, ?_, above⟩
  rw [units]
  exact power_le_units_nearest_rank Nat.one_pos (by decide) reach

theorem power_of_ten_rounded {power : Nat} (small : power ≤ 308) :
    ∃ number, powerOfTen? power = some number ∧ unitsPerOne ≤ number.units ∧
      number.units * 2 ^ 53 ≤ tenPower power * unitsPerOne * (2 ^ 53 + 1) := by
  have greatest : tenPower 308 * unitsPerOne < overflowUnits := by decide +kernel
  have inRange := (Nat.mul_le_mul_right unitsPerOne (ten_power_le small)).trans_lt greatest
  rw [powerOfTen?, if_pos small]
  exact whole_rounded (ten_power_pos power) inRange

theorem divide_finite (number : Binary64) {divisor : Binary64}
    (one : unitsPerOne ≤ divisor.units) : ∃ quotient, number.divide? divisor = some quotient := by
  have positive : 0 < divisor.units := units_per_one_pos.trans_le one
  have inRange : number.units * unitsPerOne < divisor.units * overflowUnits := by
    calc number.units * unitsPerOne ≤ number.units * divisor.units := Nat.mul_le_mul_left _ one
      _ < overflowUnits * divisor.units := Nat.mul_lt_mul_of_pos_right (units_lt number) positive
      _ = divisor.units * overflowUnits := Nat.mul_comm _ _
  obtain ⟨quotient, found, _⟩ := of_units_finite _ positive inRange
  exact ⟨quotient, found⟩

end Binary64

open Binary64

theorem scale_down_finite (number : Binary64) (power : Nat) :
    ∃ scaled, scaleDown? number power = some scaled := by
  have step : ∀ (dividend : Binary64) {count : Nat}, count ≤ 308 →
      ∃ quotient, (powerOfTen? count).bind dividend.divide? = some quotient := by
    intro dividend count small
    obtain ⟨divisor, found, one, _⟩ := power_of_ten_rounded small
    rw [found, Option.bind_some]
    exact divide_finite dividend one
  rw [scaleDown?]
  by_cases small : power ≤ 308
  · rw [if_pos small]
    exact step number small
  · rw [if_neg small]
    by_cases twice : power ≤ 616
    · have rest : power - 308 ≤ 308 := by omega
      obtain ⟨first, found⟩ := step number (Nat.le_refl 308)
      obtain ⟨second, last⟩ := step first rest
      rw [if_pos twice, found, Option.bind_eq_bind, Option.bind_some]
      exact ⟨second, last⟩
    · rw [if_neg twice]
      exact ⟨_, rfl⟩

/-- Half a step above the third greatest number, in halves of units. The two roundings before
the last one do not carry a product up to here beyond the bound. -/
def roomyHalves : Nat := 18014398509481979 * twoPower 2045

theorem roomy_halves_lt : roomyHalves < 2 * overflowUnits := by decide +kernel

/-- Two factors that are rounded up as little as whole numbers are keep a product that has room
below the bound. -/
theorem product_in_range {left right count factor : Nat}
    (leftAbove : left * 2 ^ 53 ≤ count * unitsPerOne * (2 ^ 53 + 1))
    (rightAbove : right * 2 ^ 53 ≤ factor * unitsPerOne * (2 ^ 53 + 1))
    (roomy : 2 * (count * factor * unitsPerOne) ≤ roomyHalves) :
    left * right < unitsPerOne * overflowUnits := by
  have unit := units_per_one_pos
  have bound : roomyHalves * (2 ^ 53 + 1) ^ 2 < 2 * overflowUnits * 2 ^ 106 := by decide +kernel
  generalize unitsPerOne = one at *
  generalize overflowUnits = limit at *
  generalize roomyHalves = room at *
  have scaled : 2 * 2 ^ 106 * (left * right) < 2 * 2 ^ 106 * (one * limit) := by
    calc 2 * 2 ^ 106 * (left * right)
        = 2 * (left * 2 ^ 53 * (right * 2 ^ 53)) := by ring
      _ ≤ 2 * (count * one * (2 ^ 53 + 1) * (factor * one * (2 ^ 53 + 1))) :=
          Nat.mul_le_mul_left 2 (Nat.mul_le_mul leftAbove rightAbove)
      _ = 2 * (count * factor * one) * (one * (2 ^ 53 + 1) ^ 2) := by ring
      _ ≤ room * (one * (2 ^ 53 + 1) ^ 2) := Nat.mul_le_mul_right _ roomy
      _ = one * (room * (2 ^ 53 + 1) ^ 2) := by ring
      _ < one * (2 * limit * 2 ^ 106) := Nat.mul_lt_mul_of_pos_left bound unit
      _ = 2 * 2 ^ 106 * (one * limit) := by ring
  exact Nat.lt_of_mul_lt_mul_left scaled

theorem scale_up_finite {count power : Nat} (positive : 0 < count)
    (roomy : 2 * (count * tenPower power * unitsPerOne) ≤ roomyHalves) :
    ∃ rounded scaled, ofInt? count = some rounded ∧ scaleUp? rounded power = some scaled := by
  have small : power ≤ 308 := by
    by_contra great
    have tooGreat : roomyHalves < 2 * (tenPower 309 * unitsPerOne) := by decide +kernel
    have powers : tenPower 309 ≤ count * tenPower power :=
      (ten_power_le (Nat.lt_of_not_le great)).trans (Nat.le_mul_of_pos_left _ positive)
    have whole := Nat.mul_le_mul_left 2 (Nat.mul_le_mul_right unitsPerOne powers)
    exact absurd (whole.trans roomy) (Nat.not_le.2 tooGreat)
  have countInRange : count * unitsPerOne < overflowUnits := by
    have alone : count ≤ count * tenPower power := Nat.le_mul_of_pos_right _ (ten_power_pos power)
    have part := Nat.mul_le_mul_right unitsPerOne alone
    have twice := ((Nat.mul_le_mul_left 2 part).trans roomy).trans_lt roomy_halves_lt
    exact Nat.lt_of_mul_lt_mul_left twice
  obtain ⟨rounded, found, _, countAbove⟩ := whole_rounded positive countInRange
  obtain ⟨factor, factorFound, _, tenAbove⟩ := power_of_ten_rounded small
  have inRange : rounded.units * factor.units < unitsPerOne * overflowUnits :=
    product_in_range countAbove tenAbove roomy
  obtain ⟨scaled, product, _⟩ := of_units_finite (rounded.negative != factor.negative)
    units_per_one_pos inRange
  refine ⟨rounded, scaled, ?_, ?_⟩
  · exact found
  · rw [scaleUp?, if_pos small, factorFound, Option.bind_some]
    exact product

theorem scaled_down_finite (negative : Bool) {significand : Nat} {exponent : Int}
    (fits : significand < 2 ^ 64) (below : exponent < 0) :
    ∃ number, scaled? negative significand exponent = some number := by
  have words : 2 ^ 64 * unitsPerOne < 1 * overflowUnits := by decide +kernel
  have inRange := (Nat.mul_le_mul_right unitsPerOne fits.le).trans_lt words
  obtain ⟨rounded, found, _⟩ := of_units_finite (decide ((significand : Int) < 0))
    Nat.one_pos inRange
  have whole : ofInt? significand = some rounded := found
  obtain ⟨magnitude, reached⟩ := scale_down_finite rounded exponent.natAbs
  have notUp : ¬0 ≤ exponent := Int.not_le.2 below
  rw [scaled?, whole, Option.bind_eq_bind, Option.bind_some, if_neg notUp, reached]
  exact ⟨_, rfl⟩

theorem scaled_up_finite (negative : Bool) {significand power : Nat} (positive : 0 < significand)
    (roomy : 2 * (significand * tenPower power * unitsPerOne) ≤ roomyHalves) :
    ∃ number, scaled? negative significand power = some number := by
  obtain ⟨rounded, magnitude, whole, reached⟩ := scale_up_finite positive roomy
  have up : 0 ≤ (power : Int) := Int.natCast_nonneg power
  rw [scaled?, whole, Option.bind_eq_bind, Option.bind_some, if_pos up, Int.toNat_natCast, reached]
  exact ⟨_, rfl⟩

end UnitState.Decimal
