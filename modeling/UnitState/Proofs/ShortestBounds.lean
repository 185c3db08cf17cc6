import UnitState.Decimal.Shortest
import UnitState.Proofs.Rounding

/-!
# How long and how great a shortest decimal is

The shortest decimal of a number is a grid point of its rounding interval, and the next coarser
grid has none. So the coefficient has few digits, and the decimal does not lie beyond the
interval. For all numbers it follows that the decimal is in range when it is read with the
significand and the power of ten rounded apart: for the two greatest numbers this is computed,
for the others the interval leaves room.
-/

set_option autoImplicit false

namespace UnitState.Decimal

open Binary64

/-! ## The rounding interval -/

namespace Binary64

def gap (number : Binary64) : Nat := twoPower (number.rank / twoPower 52 - 1)

variable (number : Binary64)

theorem gap_pos : 0 < number.gap := two_power_pos _

theorem units_lt_gaps : number.units < 2 ^ 53 * number.gap := by
  rcases Nat.lt_or_ge number.rank (2 ^ 52) with subnormal | normal
  · have one := number.gap_pos
    rw [units, rank_units_subnormal subnormal]
    omega
  · rw [units, rank_units_normal normal]
    have coefficient : 2 ^ 52 + number.rank % 2 ^ 52 < 2 ^ 53 := by omega
    exact Nat.mul_lt_mul_of_pos_right coefficient number.gap_pos

theorem gap_le_units (nonzero : number.rank ≠ 0) : number.gap ≤ number.units := by
  rcases Nat.lt_or_ge number.rank (2 ^ 52) with subnormal | normal
  · have first : number.rank / twoPower 52 = 0 := Nat.div_eq_of_lt subnormal
    rw [units, rank_units_subnormal subnormal, gap, first]
    exact Nat.one_le_iff_ne_zero.2 nonzero
  · rw [units, rank_units_normal normal]
    exact Nat.le_mul_of_pos_left _ (by omega)

theorem upper_eq : number.roundingInterval.upper = 4 * number.units + 2 * number.gap := rfl

theorem value_eq : number.roundingInterval.value = 4 * number.units := rfl

theorem lower_bounds (nonzero : number.rank ≠ 0) :
    0 < number.roundingInterval.lower ∧
      number.roundingInterval.lower + number.gap ≤ 4 * number.units := by
  have positive := number.gap_pos
  have least := number.gap_le_units nonzero
  have shape : number.roundingInterval.lower = 4 * number.units - number.gap ∨
      number.roundingInterval.lower = 4 * number.units - 2 * number.gap := by
    simp only [roundingInterval, gap]
    split
    · exact .inl rfl
    · exact .inr rfl
  omega

end Binary64

/-! ## Points of a grid -/

def gridStep (exponent : Int) : Nat := 4 * (tenFactors exponent).1 * unitsPerOne

def gridDivisor (exponent : Int) : Nat := (tenFactors exponent).2

theorem grid_divisor_pos (exponent : Int) : 0 < gridDivisor exponent := by
  unfold gridDivisor tenFactors
  split
  · exact Nat.one_pos
  · exact ten_power_pos _

theorem grid_step_pos (exponent : Int) : 0 < gridStep exponent := by
  have factor : 0 < (tenFactors exponent).1 := by
    unfold tenFactors
    split
    · exact ten_power_pos _
    · exact Nat.one_pos
  exact Nat.mul_pos (Nat.mul_pos (by decide) factor) units_per_one_pos

theorem grid_step_succ (exponent : Int) :
    gridStep (exponent + 1) * gridDivisor exponent =
      10 * (gridStep exponent * gridDivisor (exponent + 1)) := by
  simp only [gridStep, gridDivisor, tenFactors, ten_power_eq]
  generalize unitsPerOne = one
  rcases Int.lt_trichotomy exponent (-1) with below | rfl | above
  · have rest : (-exponent).toNat = (-(exponent + 1)).toNat + 1 := by omega
    rw [if_neg (by omega), if_neg (by omega), rest]
    ring
  · norm_num
    ring
  · have rest : (exponent + 1).toNat = exponent.toNat + 1 := by omega
    rw [if_pos (by omega), if_pos (by omega), rest]
    ring

section Grid

variable {interval : RoundingInterval} {exponent : Int} {coefficient : Nat}

theorem grid_point_contained (found : gridPoint? interval exponent = some coefficient) :
    interval.contains (coefficient * gridStep exponent) (gridDivisor exponent) = true := by
  simp only [gridPoint?] at found
  change interval.contains (coefficient * (4 * (tenFactors exponent).1 * unitsPerOne))
    (tenFactors exponent).2 = true
  generalize 4 * (tenFactors exponent).1 * unitsPerOne = step at *
  generalize (tenFactors exponent).2 = divisor at *
  generalize interval.value * divisor / step = below at *
  split at found
  · rename_i both
    obtain ⟨belowFits, aboveFits⟩ := Bool.and_eq_true_iff.1 both
    have either : coefficient = below ∨ coefficient = below + 1 := by
      injection found with shape
      split at shape
      · exact .inl shape.symm
      · split at shape <;> omega
    rcases either with rfl | rfl
    · exact belowFits
    · exact aboveFits
  · split at found
    · rename_i belowFits
      injection found with shape
      rwa [← shape]
    · split at found
      · rename_i aboveFits
        injection found with shape
        rwa [← shape]
      · cases found

theorem width_le_of_no_point (ordered : interval.lower < interval.value)
    (bounded : interval.value < interval.upper) (none : gridPoint? interval exponent = none) :
    interval.upper * gridDivisor exponent ≤
      interval.lower * gridDivisor exponent + gridStep exponent := by
  have positive := grid_step_pos exponent
  have divides := grid_divisor_pos exponent
  simp only [gridPoint?] at none
  rw [gridStep] at positive
  rw [gridDivisor] at divides
  rw [gridStep, gridDivisor]
  generalize 4 * (tenFactors exponent).1 * unitsPerOne = step at *
  generalize (tenFactors exponent).2 = divisor at *
  have low := Nat.mul_lt_mul_of_pos_right ordered divides
  have high := Nat.mul_lt_mul_of_pos_right bounded divides
  have floor := Nat.div_mul_le_self (interval.value * divisor) step
  have ceiling : interval.value * divisor <
      (interval.value * divisor / step + 1) * step := by
    rw [Nat.mul_comm _ step]
    exact Nat.lt_mul_div_succ _ positive
  have next : (interval.value * divisor / step + 1) * step =
      interval.value * divisor / step * step + step := Nat.succ_mul _ _
  generalize interval.value * divisor / step = below at *
  have notBelow : interval.contains (below * step) divisor = false := by
    by_contra fits
    rw [Bool.not_eq_false] at fits
    simp only [fits, Bool.true_and, if_true] at none
    split at none <;> cases none
  have notAbove : interval.contains ((below + 1) * step) divisor = false := by
    by_contra fits
    rw [Bool.not_eq_false] at fits
    simp only [notBelow, fits, Bool.false_and, Bool.false_eq_true, if_false, if_true] at none
    cases none
  unfold RoundingInterval.contains at notBelow notAbove
  split at notBelow
  all_goals
    simp_all only [Bool.and_eq_false_iff, decide_eq_false_iff_not, if_true, if_false,
      Bool.false_eq_true]
    omega

/-- The grid that is found is within the search, and the next coarser one has no point. -/
theorem coarsest_point_spec {top : Int} {count : Nat}
    (found : coarsestPoint? interval top count = some (coefficient, exponent)) :
    gridPoint? interval exponent = some coefficient ∧ top - count < exponent ∧ exponent ≤ top ∧
      (exponent = top ∨ gridPoint? interval (exponent + 1) = none) := by
  induction count generalizing top with
  | zero => cases found
  | succ count hypothesis =>
      rw [coarsestPoint?] at found
      split at found
      · rename_i point here
        injection found with both
        injection both with point place
        subst point place
        exact ⟨here, by omega, Int.le_refl _, .inl rfl⟩
      · rename_i missing
        obtain ⟨point, above, below, coarser⟩ := hypothesis found
        refine ⟨point, by omega, by omega, .inr ?_⟩
        rcases coarser with rfl | none
        · rw [Int.sub_add_cancel]
          exact missing
        · exact none

end Grid

/-! ## Shortest decimals -/

/-- The decimal has few digits and does not lie beyond the rounding interval of the number. -/
structure StandsFor (number : Binary64) (coefficient : Nat) (exponent : Int) : Prop where
  positive : 0 < coefficient
  short : coefficient < 10 ^ 18
  least : -1074 ≤ exponent
  inside : coefficient * gridStep exponent ≤
    number.roundingInterval.upper * gridDivisor exponent

theorem exponent_lt_of_inside {number : Binary64} {coefficient : Nat} {exponent : Int}
    (nonzero : number.rank ≠ 0) (positive : 0 < coefficient)
    (inside : coefficient * gridStep exponent ≤
      number.roundingInterval.upper * gridDivisor exponent) : exponent < 309 := by
  by_contra great
  have upward : 0 ≤ exponent := by omega
  have power : tenPower 309 ≤ tenPower exponent.toNat := ten_power_le (by omega)
  have tooGreat : 6 * overflowUnits < 4 * tenPower 309 * unitsPerOne := by decide +kernel
  have limit := number.units_lt
  have least := number.gap_le_units nonzero
  rw [gridStep, gridDivisor, tenFactors, if_pos upward, Nat.mul_one, upper_eq] at inside
  have alone : 4 * tenPower 309 * unitsPerOne ≤
      coefficient * (4 * tenPower exponent.toNat * unitsPerOne) :=
    (Nat.mul_le_mul_right _ (Nat.mul_le_mul_left 4 power)).trans (Nat.le_mul_of_pos_left _ positive)
  have reached := tooGreat.trans_le (alone.trans inside)
  generalize overflowUnits = bound at *
  omega

namespace StandsFor

variable {number : Binary64} {coefficient : Nat} {exponent : Int}

theorem of_coarsest (nonzero : number.rank ≠ 0)
    (found : coarsestPoint? number.roundingInterval 309 1384 = some (coefficient, exponent)) :
    StandsFor number coefficient exponent := by
  obtain ⟨point, above, below, coarser⟩ := coarsest_point_spec found
  obtain ⟨lowest, lower⟩ := number.lower_bounds nonzero
  have gapPositive := number.gap_pos
  have few := number.units_lt_gaps
  have within : number.roundingInterval.lower * gridDivisor exponent ≤
        coefficient * gridStep exponent ∧
      coefficient * gridStep exponent ≤
        number.roundingInterval.upper * gridDivisor exponent := by
    have contained := grid_point_contained point
    unfold RoundingInterval.contains at contained
    split at contained
    · simpa using contained
    · have strict := Bool.and_eq_true_iff.1 contained
      exact ⟨(of_decide_eq_true strict.1).le, (of_decide_eq_true strict.2).le⟩
  have positive : 0 < coefficient := by
    rcases Nat.eq_zero_or_pos coefficient with rfl | some
    · have none := Nat.mul_pos lowest (grid_divisor_pos exponent)
      omega
    · exact some
  have notTop := exponent_lt_of_inside nonzero positive within.2
  have none := coarser.resolve_left (Int.ne_of_lt notTop)
  have width := width_le_of_no_point (by rw [value_eq]; omega)
    (by rw [value_eq, upper_eq]; omega) none
  refine ⟨positive, ?_, by omega, within.2⟩
  -- the interval is as wide as three gaps and lies below so many of them that few digits do
  have short : coefficient * (3 * number.gap) ≤ 10 * number.roundingInterval.upper := by
    have wide : 3 * number.gap * gridDivisor (exponent + 1) ≤ gridStep (exponent + 1) := by
      have apart : number.roundingInterval.lower + 3 * number.gap ≤
          number.roundingInterval.upper := by
        rw [upper_eq]
        omega
      have scaled := Nat.mul_le_mul_right (gridDivisor (exponent + 1)) apart
      rw [Nat.add_mul] at scaled
      omega
    have coarse := grid_step_succ exponent
    have divides := grid_divisor_pos exponent
    have nextDivides := grid_divisor_pos (exponent + 1)
    generalize number.roundingInterval.upper = upper at *
    generalize gridDivisor (exponent + 1) = nextDivisor at *
    generalize gridDivisor exponent = divisor at *
    generalize gridStep (exponent + 1) = nextStep at *
    generalize gridStep exponent = step at *
    have fine : 3 * number.gap * divisor ≤ 10 * step := by
      refine Nat.le_of_mul_le_mul_right ?_ nextDivides
      calc 3 * number.gap * divisor * nextDivisor
          = 3 * number.gap * nextDivisor * divisor := Nat.mul_right_comm _ _ _
        _ ≤ nextStep * divisor := Nat.mul_le_mul_right _ wide
        _ = 10 * step * nextDivisor := by rw [coarse, Nat.mul_assoc]
    refine Nat.le_of_mul_le_mul_right ?_ divides
    calc coefficient * (3 * number.gap) * divisor
        = coefficient * (3 * number.gap * divisor) := Nat.mul_assoc _ _ _
      _ ≤ coefficient * (10 * step) := Nat.mul_le_mul_left _ fine
      _ = 10 * (coefficient * step) := Nat.mul_left_comm _ _ _
      _ ≤ 10 * (upper * divisor) := Nat.mul_le_mul_left _ within.2
      _ = 10 * upper * divisor := (Nat.mul_assoc _ _ _).symm
  rw [upper_eq] at short
  have bound : coefficient * (3 * number.gap) < 10 ^ 18 * (3 * number.gap) := by omega
  exact Nat.lt_of_mul_lt_mul_right bound

theorem without_zero (stands : StandsFor number coefficient exponent)
    (zero : coefficient % 10 = 0) : StandsFor number (coefficient / 10) (exponent + 1) := by
  have whole : coefficient = 10 * (coefficient / 10) := by omega
  have positive := stands.positive
  have short := stands.short
  refine ⟨by omega, by omega, stands.least.trans (by omega), ?_⟩
  have inside := stands.inside
  have coarse := grid_step_succ exponent
  have divides := grid_divisor_pos exponent
  rw [whole] at inside
  generalize number.roundingInterval.upper = upper at *
  generalize gridDivisor (exponent + 1) = nextDivisor at *
  generalize gridDivisor exponent = divisor at *
  generalize gridStep (exponent + 1) = nextStep at *
  generalize gridStep exponent = step at *
  generalize coefficient / 10 = shorter at *
  refine Nat.le_of_mul_le_mul_right ?_ divides
  calc shorter * nextStep * divisor = shorter * (nextStep * divisor) := Nat.mul_assoc _ _ _
    _ = 10 * shorter * step * nextDivisor := by
        rw [coarse]
        ring
    _ ≤ upper * divisor * nextDivisor := Nat.mul_le_mul_right _ inside
    _ = upper * nextDivisor * divisor := Nat.mul_right_comm _ _ _

theorem drop_zeros (stands : StandsFor number coefficient exponent) (count : Nat) :
    StandsFor number (dropZeros coefficient exponent count).1
      (dropZeros coefficient exponent count).2 := by
  induction count generalizing coefficient exponent with
  | zero => exact stands
  | succ count hypothesis =>
      rw [dropZeros]
      split
      · rename_i zero
        exact hypothesis (stands.without_zero zero)
      · exact stands

theorem exponent_lt (stands : StandsFor number coefficient exponent)
    (nonzero : number.rank ≠ 0) : exponent < 309 :=
  exponent_lt_of_inside nonzero stands.positive stands.inside

theorem whole_le {power : Nat} (stands : StandsFor number coefficient power) :
    2 * (coefficient * tenPower power * unitsPerOne) ≤ 2 * number.units + number.gap := by
  have inside := stands.inside
  have upward : 0 ≤ (power : Int) := Int.natCast_nonneg power
  rw [gridStep, gridDivisor, tenFactors, if_pos upward, Nat.mul_one, upper_eq,
    Int.toNat_natCast] at inside
  dsimp only at inside
  have shape : coefficient * (4 * tenPower power * unitsPerOne) =
      4 * (coefficient * tenPower power * unitsPerOne) := by ring
  omega

end StandsFor

/-- If no grid of the search had a point, the decimal would be zero. -/
theorem shortest_stands {number : Binary64} (nonzero : number.rank ≠ 0) :
    shortest number = (0, 0) ∨
      StandsFor number (shortest number).1 (shortest number).2 := by
  rw [shortest]
  split
  · rename_i found
    exact .inr ((StandsFor.of_coarsest nonzero found).drop_zeros 20)
  · exact .inl rfl

/-- Apart from the two greatest numbers, the interval leaves room for the roundings. -/
theorem Binary64.interval_roomy {number : Binary64} (apart : number.rank + 3 ≤ finiteRanks) :
    2 * number.units + number.gap ≤ roomyHalves := by
  simp only [finiteRanks, two_power_eq] at apart
  rcases Nat.lt_or_ge number.rank (2046 * 2 ^ 52) with lower | highest
  · have few := number.units_lt_gaps
    have steps : number.gap ≤ twoPower 2044 := by
      refine power_le_two_power ?_
      rw [two_power_eq]
      omega
    have limit : (2 ^ 54 + 1) * twoPower 2044 ≤ roomyHalves := by decide +kernel
    generalize twoPower 2044 = greatest at *
    refine Nat.le_trans ?_ limit
    omega
  · have step : number.gap = twoPower 2045 := by
      have place : number.rank / 2 ^ 52 = 2046 := by omega
      rw [gap, two_power_eq 52, place]
    have coefficient : 2 ^ 52 + number.rank % 2 ^ 52 ≤ 2 ^ 53 - 3 := by omega
    have units : number.units = (2 ^ 52 + number.rank % 2 ^ 52) * number.gap :=
      rank_units_normal (by omega)
    have few : number.units ≤ (2 ^ 53 - 3) * number.gap := by
      rw [units]
      exact Nat.mul_le_mul_right _ coefficient
    rw [roomyHalves, ← step]
    omega

def scaledShortest? (number : Binary64) : Option Binary64 :=
  scaled? number.negative (shortest number).1 (shortest number).2

/-- For the two greatest numbers the decimal is in range because it lies at their middle. -/
theorem greatest_scaled (negative : Bool) :
    (scaledShortest? ⟨negative, 9218868437227405310, by decide⟩).isSome = true ∧
      (scaledShortest? ⟨negative, 9218868437227405311, by decide⟩).isSome = true := by
  cases negative <;> decide +kernel

theorem shortest_scaled {number : Binary64} (nonzero : number.rank ≠ 0)
    (stands : StandsFor number (shortest number).1 (shortest number).2)
    (whole : 0 ≤ (shortest number).2) : ∃ scaled, scaledShortest? number = some scaled := by
  by_cases apart : number.rank + 3 ≤ finiteRanks
  · obtain ⟨power, same⟩ := Int.eq_ofNat_of_zero_le whole
    rw [scaledShortest?, same]
    rw [same] at stands
    exact scaled_up_finite _ stands.positive (stands.whole_le.trans (interval_roomy apart))
  · have greatest := greatest_scaled number.negative
    obtain ⟨negative, rank, finite⟩ := number
    have last : rank = 9218868437227405310 ∨ rank = 9218868437227405311 := by
      simp only [finiteRanks, two_power_eq] at finite apart
      omega
    rcases last with rfl | rfl
    · exact Option.isSome_iff_exists.1 greatest.1
    · exact Option.isSome_iff_exists.1 greatest.2

end UnitState.Decimal
