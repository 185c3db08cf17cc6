import UnitState.Proofs.Rounding

/-!
# Rounding to the nearest number

Rounding gives the nearest of all finite numbers, and of two that are equally near the one of
even rank. A ratio is rounded to a whole coefficient of some power of two. The numbers that are no
multiples of that power lie below the least coefficient of full precision, and so does none of
the ratios that are rounded with them in sight; so it is enough to compare whole coefficients,
and a rank is even exactly if its coefficient is.
-/

set_option autoImplicit false

namespace UnitState.Decimal

/-- The distance of a count of units from a ratio, in parts of the denominator. -/
def gap (units : Int) (numerator : Int) (denominator : Nat) : Nat :=
  (units * denominator - numerator).natAbs

/-- The ratio lies at least as near to the number as to any other, and if it is as near to
another one, the rank of the number is even. -/
structure Binary64.NearestEven (number : Binary64) (numerator : Int) (denominator : Nat) :
    Prop where
  nearest : ∀ other : Binary64,
    gap number.signedUnits numerator denominator ≤ gap other.signedUnits numerator denominator
  even : ∀ other : Binary64, other.signedUnits ≠ number.signedUnits →
    gap other.signedUnits numerator denominator = gap number.signedUnits numerator denominator →
    number.rank % 2 = 0

theorem gap_eq (units numerator denominator : Nat) :
    gap units numerator denominator =
      (((units * denominator : Nat) : Int) - numerator).natAbs := by
  rw [gap, Int.natCast_mul]

theorem divide_half_even_nearest (numerator : Nat) {denominator : Nat} (positive : 0 < denominator)
    {other : Nat} (different : other ≠ divideHalfEven numerator denominator) :
    gap (divideHalfEven numerator denominator) numerator denominator ≤
        gap other numerator denominator ∧
      (gap other numerator denominator =
          gap (divideHalfEven numerator denominator) numerator denominator →
        divideHalfEven numerator denominator % 2 = 0) := by
  have above := divide_half_even_le numerator denominator
  have below := divide_half_even_ge numerator denominator positive
  have middle := divide_half_even_cases numerator denominator positive
  generalize divideHalfEven numerator denominator = quotient at *
  rw [gap_eq, gap_eq]
  rcases Nat.lt_or_gt_of_ne different with less | greater
  · have step : (other + 1) * denominator ≤ quotient * denominator :=
      Nat.mul_le_mul_right denominator less
    rw [Nat.succ_mul] at step
    omega
  · have step : (quotient + 1) * denominator ≤ other * denominator :=
      Nat.mul_le_mul_right denominator greater
    rw [Nat.succ_mul] at step
    omega

theorem rank_units_on_grid (rank shift : Nat) :
    (∃ coefficient, rankUnits 53 rank = coefficient * 2 ^ shift) ∨
      shift ≠ 0 ∧ rankUnits 53 rank < 2 ^ 52 * 2 ^ shift := by
  by_cases unshifted : shift = 0
  · subst unshifted
    exact .inl ⟨rankUnits 53 rank, (Nat.mul_one _).symm⟩
  · rcases Nat.lt_or_ge rank (2 ^ 52) with subnormal | normal
    · rw [rank_units_subnormal subnormal]
      exact .inr ⟨unshifted, subnormal.trans_le (Nat.le_mul_of_pos_right _ (Nat.two_pow_pos shift))⟩
    · rw [rank_units_normal normal]
      have fraction := Nat.mod_lt rank (Nat.two_pow_pos 52)
      generalize rank / 2 ^ 52 - 1 = exponent
      rcases Nat.lt_or_ge exponent shift with finer | coarser
      · refine .inr ⟨unshifted, ?_⟩
        calc (2 ^ 52 + rank % 2 ^ 52) * 2 ^ exponent
            < (2 ^ 52 + 2 ^ 52) * 2 ^ exponent :=
              Nat.mul_lt_mul_of_pos_right (Nat.add_lt_add_left fraction _) (Nat.two_pow_pos _)
          _ = 2 ^ 52 * 2 ^ (exponent + 1) := by ring
          _ ≤ 2 ^ 52 * 2 ^ shift :=
              Nat.mul_le_mul_left _ (Nat.pow_le_pow_right Nat.two_pos finer)
      · obtain ⟨more, rfl⟩ := Nat.exists_eq_add_of_le coarser
        exact .inl ⟨(2 ^ 52 + rank % 2 ^ 52) * 2 ^ more, by ring⟩

theorem nearest_rank_nearest (numerator : Nat) {denominator : Nat} (positive : 0 < denominator)
    {rank : Nat}
    (different : rankUnits 53 rank ≠ rankUnits 53 (nearestRank 53 numerator denominator)) :
    gap (rankUnits 53 (nearestRank 53 numerator denominator)) numerator denominator ≤
        gap (rankUnits 53 rank) numerator denominator ∧
      (gap (rankUnits 53 rank) numerator denominator =
          gap (rankUnits 53 (nearestRank 53 numerator denominator)) numerator denominator →
        nearestRank 53 numerator denominator % 2 = 0) := by
  obtain ⟨shift, place, units, reach, _⟩ := nearest_rank_parts numerator denominator
  have step : 0 < denominator * 2 ^ shift := Nat.mul_pos positive (Nat.two_pow_pos shift)
  have inSteps : ∀ coefficient : Nat,
      gap (coefficient * 2 ^ shift : Nat) numerator denominator =
        gap coefficient numerator (denominator * 2 ^ shift) := by
    intro coefficient
    rw [gap_eq, gap_eq, Nat.mul_assoc, Nat.mul_comm (2 ^ shift)]
  have parity : nearestRank 53 numerator denominator % 2 =
      divideHalfEven numerator (denominator * 2 ^ shift) % 2 := by
    rw [place]
    omega
  rw [units] at different ⊢
  rw [parity, inSteps]
  rcases rank_units_on_grid rank shift with ⟨coefficient, multiple⟩ | ⟨shifted, below⟩
  · rw [multiple] at different ⊢
    rw [inSteps]
    refine divide_half_even_nearest numerator step ?_
    rintro rfl
    exact different rfl
  · -- the least coefficient of full precision is between the two
    have least : gap (divideHalfEven numerator (denominator * 2 ^ shift)) numerator
        (denominator * 2 ^ shift) ≤ gap (2 ^ 52 : Nat) numerator (denominator * 2 ^ shift) := by
      by_cases same : 2 ^ 52 = divideHalfEven numerator (denominator * 2 ^ shift)
      · rw [← same]
      · exact (divide_half_even_nearest numerator step same).1
    have farther : gap (2 ^ 52 : Nat) numerator (denominator * 2 ^ shift) <
        gap (rankUnits 53 rank) numerator denominator := by
      have whole : 2 ^ 52 * (denominator * 2 ^ shift) ≤ numerator := by
        calc 2 ^ 52 * (denominator * 2 ^ shift) = 2 ^ (shift + 52) * denominator := by ring
          _ ≤ numerator := (Nat.le_div_iff_mul_le positive).1 (reach shifted)
      have under : rankUnits 53 rank * denominator < 2 ^ 52 * (denominator * 2 ^ shift) := by
        calc rankUnits 53 rank * denominator < 2 ^ 52 * 2 ^ shift * denominator :=
              Nat.mul_lt_mul_of_pos_right below positive
          _ = 2 ^ 52 * (denominator * 2 ^ shift) := by ring
      rw [gap_eq, gap_eq]
      omega
    have strict := Nat.lt_of_le_of_lt least farther
    exact ⟨strict.le, fun tie => absurd tie (Nat.ne_of_gt strict)⟩

namespace Binary64

def signed (negative : Bool) (magnitude : Nat) : Int := if negative then -magnitude else magnitude

theorem gap_signed (negative : Bool) (units numerator denominator : Nat) :
    gap (signed negative units) (signed negative numerator) denominator =
      gap units numerator denominator := by
  cases negative with
  | false => rfl
  | true =>
      have flipped : -(units : Int) * denominator - -(numerator : Int) =
          -(units * denominator - numerator) := by ring
      unfold gap signed
      rw [if_pos rfl, if_pos rfl, flipped, Int.natAbs_neg]

theorem gap_across (negative : Bool) (units numerator denominator : Nat) :
    gap (signed (!negative) units) (signed negative numerator) denominator =
      units * denominator + numerator := by
  have product : (units : Int) * denominator = (units * denominator : Nat) :=
    (Int.natCast_mul units denominator).symm
  unfold gap signed
  cases negative with
  | false =>
      rw [Bool.not_false, if_pos rfl, if_neg Bool.false_ne_true, Int.neg_mul, product]
      omega
  | true =>
      rw [Bool.not_true, if_neg Bool.false_ne_true, if_pos rfl, product]
      omega

theorem signed_units_eq (number : Binary64) :
    number.signedUnits = signed number.negative number.units := rfl

theorem of_units {negative : Bool} {numerator denominator : Nat} {number : Binary64}
    (rounded : ofUnits? negative numerator denominator = some number) :
    number.signedUnits = signed negative number.units ∧
      number.rank = nearestRank 53 numerator denominator := by
  obtain ⟨finite, same⟩ := Option.dite_none_right_eq_some.1 rounded
  cases same
  exact ⟨rfl, rfl⟩

theorem gap_zero (numerator denominator : Nat) : gap (0 : Nat) numerator denominator = numerator := by
  rw [gap_eq, Nat.zero_mul]
  omega

/-- Whatever is rounded to a finite number has gone to the nearest one. -/
theorem of_units_nearest_even {negative : Bool} {numerator denominator : Nat}
    (positive : 0 < denominator) {number : Binary64}
    (rounded : ofUnits? negative numerator denominator = some number) :
    number.NearestEven (signed negative numerator) denominator := by
  obtain ⟨sign, place⟩ := of_units rounded
  have own : gap number.signedUnits (signed negative numerator) denominator =
      gap number.units numerator denominator := by
    rw [sign, gap_signed]
  have among : ∀ rank, rankUnits 53 rank ≠ number.units →
      gap number.units numerator denominator ≤ gap (rankUnits 53 rank) numerator denominator ∧
        (gap (rankUnits 53 rank) numerator denominator =
          gap number.units numerator denominator → number.rank % 2 = 0) := by
    intro rank different
    rw [units, place] at *
    exact nearest_rank_nearest numerator positive different
  -- a number on the other side of zero is compared with zero
  have zero : gap number.units numerator denominator ≤ numerator ∧
      (number.units ≠ 0 → gap number.units numerator denominator = numerator →
        number.rank % 2 = 0) := by
    by_cases least : number.units = 0
    · rw [least, gap_zero]
      exact ⟨Nat.le_refl _, fun nonzero => absurd rfl nonzero⟩
    · have beside := among 0 (Ne.symm least)
      have origin : gap (rankUnits 53 0) numerator denominator = numerator :=
        gap_zero numerator denominator
      rw [origin] at beside
      exact ⟨beside.1, fun _ tie => beside.2 tie.symm⟩
  have sides : ∀ other : Binary64, other.signedUnits = signed negative other.units ∨
      other.signedUnits = signed (!negative) other.units := by
    intro other
    rw [signed_units_eq]
    cases other.negative <;> cases negative <;> simp
  constructor
  · intro other
    rw [own]
    rcases sides other with same | across
    · rw [same, gap_signed]
      by_cases equal : other.units = number.units
      · rw [equal]
      · exact (among other.rank equal).1
    · rw [across, gap_across]
      exact zero.1.trans (Nat.le_add_left _ _)
  · intro other different tie
    rw [own] at tie
    rcases sides other with same | across
    · rw [same, gap_signed] at tie
      refine (among other.rank fun equal => different ?_).2 tie
      have magnitudes : other.units = number.units := equal
      rw [same, sign, magnitudes]
    · rw [across, gap_across] at tie
      have none : other.units * denominator = 0 := by omega
      have nothing : other.units = 0 := (Nat.mul_eq_zero.1 none).resolve_right positive.ne'
      refine zero.2 (fun least => different ?_) (by omega)
      rw [across, sign, nothing, least]
      cases negative <;> rfl

theorem same_value_iff {left right : Binary64} :
    left.sameValue right = true ↔
      left.rank = right.rank ∧ (left.negative = right.negative ∨ left.rank = 0) := by
  simp only [sameValue, Bool.and_eq_true, Bool.or_eq_true, beq_iff_eq]

theorem same_value_trans {first second third : Binary64}
    (forward : first.sameValue second = true) (further : second.sameValue third = true) :
    first.sameValue third = true := by
  rw [same_value_iff] at *
  obtain ⟨rank, sign⟩ := forward
  refine ⟨rank.trans further.1, ?_⟩
  rcases sign with sign | zero
  · rcases further.2 with next | zero
    · exact .inl (sign.trans next)
    · exact .inr (rank.trans zero)
  · exact .inr zero

theorem signed_units_of_same_value {left right : Binary64}
    (same : left.sameValue right = true) : left.signedUnits = right.signedUnits := by
  obtain ⟨rank, sign⟩ := same_value_iff.1 same
  have magnitudes : left.units = right.units := congrArg (rankUnits 53) rank
  rw [signed_units_eq, signed_units_eq, magnitudes]
  rcases sign with sign | zero
  · rw [sign]
  · have nothing : right.units = 0 := by
      rw [units, ← rank, zero]
      rfl
    rw [nothing]
    cases left.negative <;> cases right.negative <;> rfl

theorem NearestEven.of_same_value {left right : Binary64} {numerator : Int} {denominator : Nat}
    (nearestEven : left.NearestEven numerator denominator)
    (same : left.sameValue right = true) : right.NearestEven numerator denominator := by
  have units := signed_units_of_same_value same
  constructor
  · rw [← units]
    exact nearestEven.nearest
  · rw [← units, ← (same_value_iff.1 same).1]
    exact nearestEven.even

/-! ## Whole numbers -/

theorem signed_nat_abs (value : Int) : signed (decide (value < 0)) value.natAbs = value := by
  by_cases below : value < 0
  · rw [decide_eq_true below, signed, if_pos rfl]
    omega
  · rw [decide_eq_false below, signed, if_neg Bool.false_ne_true]
    omega

theorem signed_mul (negative : Bool) (magnitude factor : Nat) :
    signed negative (magnitude * factor) = signed negative magnitude * factor := by
  cases negative <;> simp [signed]

theorem gap_whole (left right : Int) :
    gap (left * unitsPerOne) (right * unitsPerOne) 1 = (left - right).natAbs * unitsPerOne := by
  have factored : left * unitsPerOne * (1 : Nat) - right * unitsPerOne =
      (left - right) * unitsPerOne := by ring
  rw [gap, factored, Int.natAbs_mul, Int.natAbs_natCast]

theorem of_int_nearest_even {value : Int} {number : Binary64}
    (rounded : ofInt? value = some number) : number.NearestEven (value * unitsPerOne) 1 := by
  have nearest := of_units_nearest_even Nat.one_pos rounded
  rwa [signed_mul, signed_nat_abs] at nearest

theorem exists_whole {magnitude : Nat} (small : magnitude ≤ 2 ^ 53) (negative : Bool) :
    ∃ number : Binary64, number.signedUnits = signed negative (magnitude * unitsPerOne) := by
  rcases Nat.eq_zero_or_pos magnitude with rfl | positive
  · exact ⟨zero negative, by rw [Nat.zero_mul]; rfl⟩
  · have low : 2 ^ magnitude.log2 ≤ magnitude := Nat.log2_self_le positive.ne'
    have top : magnitude < 2 ^ (magnitude.log2 + 1) := Nat.lt_log2_self
    have bits : magnitude.log2 ≤ 53 :=
      (Nat.pow_le_pow_iff_right (by decide)).1 (low.trans small)
    obtain ⟨more, moreEq⟩ : ∃ more, more = 52 - magnitude.log2 := ⟨_, rfl⟩
    have full : 2 ^ 52 ≤ magnitude * 2 ^ more := by
      calc 2 ^ 52 ≤ 2 ^ (magnitude.log2 + more) := Nat.pow_le_pow_right Nat.two_pos (by omega)
        _ = 2 ^ magnitude.log2 * 2 ^ more := Nat.pow_add 2 _ _
        _ ≤ magnitude * 2 ^ more := Nat.mul_le_mul_right _ low
    have atMost : magnitude * 2 ^ more ≤ 2 ^ 53 := by
      rcases Nat.lt_or_ge magnitude.log2 53 with within | last
      · calc magnitude * 2 ^ more ≤ 2 ^ (magnitude.log2 + 1) * 2 ^ more :=
              Nat.mul_le_mul_right _ top.le
          _ = 2 ^ (magnitude.log2 + 1 + more) := (Nat.pow_add 2 _ _).symm
          _ = 2 ^ 53 := congrArg (2 ^ ·) (by omega)
      · have none : more = 0 := by omega
        rw [none, pow_zero, Nat.mul_one]
        exact small
    have finite : (1074 - more) * 2 ^ 52 + magnitude * 2 ^ more < finiteRanks := by
      rw [finiteRanks, two_power_eq]
      omega
    refine ⟨⟨negative, _, finite⟩, congrArg (signed negative) ?_⟩
    have power : 2 ^ more * 2 ^ (1074 - more) = unitsPerOne := by
      calc 2 ^ more * 2 ^ (1074 - more) = twoPower (more + (1074 - more)) :=
            (Nat.pow_add 2 _ _).symm
        _ = unitsPerOne := congrArg twoPower (by omega)
    calc rankUnits 53 ((1074 - more) * 2 ^ 52 + magnitude * 2 ^ more)
        = magnitude * 2 ^ more * 2 ^ (1074 - more) := rank_units_shifted atMost (.inl full)
      _ = magnitude * unitsPerOne := by rw [Nat.mul_assoc, power]

theorem of_int_exact {value : Int} (small : value.natAbs ≤ 2 ^ 53) {number : Binary64}
    (rounded : ofInt? value = some number) : number.signedUnits = value * unitsPerOne := by
  obtain ⟨itself, same⟩ := exists_whole small (decide (value < 0))
  rw [signed_mul, signed_nat_abs] at same
  have nearest := (of_int_nearest_even rounded).nearest itself
  rw [same] at nearest
  unfold gap at nearest
  omega

/-- Two whole numbers that are rounded to one number are great. -/
theorem great_of_same_rounding {left right : Int} {leftFloat rightFloat : Binary64}
    (different : left ≠ right) (leftRounded : ofInt? left = some leftFloat)
    (rightRounded : ofInt? right = some rightFloat)
    (same : leftFloat.signedUnits = rightFloat.signedUnits) : 2 ^ 53 ≤ left.natAbs := by
  by_contra small
  have leftSmall : left.natAbs ≤ 2 ^ 53 := (Nat.lt_of_not_le small).le
  have leftExact := of_int_exact leftSmall leftRounded
  have unit := units_per_one_pos
  rcases Nat.lt_or_ge (2 ^ 53) right.natAbs with great | rightSmall
  · -- the greatest number of this size on the side of the great one would be nearer to it
    obtain ⟨bound, boundEq⟩ := exists_whole (Nat.le_refl (2 ^ 53)) (decide (right < 0))
    rw [signed_mul] at boundEq
    have nearest := (of_int_nearest_even rightRounded).nearest bound
    rw [← same, leftExact, boundEq, gap_whole, gap_whole] at nearest
    have nearer := Nat.le_of_mul_le_mul_right nearest unit
    unfold signed at nearer
    split at nearer
    · rename_i below
      have below := of_decide_eq_true below
      omega
    · rename_i notBelow
      have above := of_decide_eq_false (Bool.eq_false_of_not_eq_true notBelow)
      omega
  · have rightExact := of_int_exact rightSmall rightRounded
    rw [leftExact, rightExact] at same
    exact different (Int.eq_of_mul_eq_mul_right (by omega) same)

end Binary64

end UnitState.Decimal
