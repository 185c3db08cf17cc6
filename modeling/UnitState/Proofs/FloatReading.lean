import UnitState.Json.Printer
import UnitState.Proofs.JsonReading
import UnitState.Proofs.ShortestBounds

/-!
# Reading the text of a float

The text written for a float is a literal with a point, with an exponent, or with both. In front
of a delimiter such a literal is read as the scaled number it denotes. So every float is read
back as some float, whatever stands behind its text; which one it is depends on the roundings on
the way.
-/

set_option autoImplicit false

namespace UnitState.Json

open UnitState.Decimal

/-- A literal with digits behind its point, with an exponent, or with both. -/
structure FloatForm where
  whole : List Char
  fraction : List Char
  power : Option Int

namespace FloatForm

def exponentChars (form : FloatForm) : List Char := form.power.elim [] exponentText

def tail (form : FloatForm) : List Char :=
  (if form.fraction = [] then [] else '.' :: form.fraction) ++ form.exponentChars

def text (form : FloatForm) : List Char := form.whole ++ form.tail

def significand (form : FloatForm) : Nat := Nat.ofDigitChars 10 (form.whole ++ form.fraction) 0

def exponent (form : FloatForm) : Int := form.power.getD 0 - form.fraction.length

structure Sound (form : FloatForm) : Prop where
  wholeDigits : ∀ character ∈ form.whole, isDigit character = true
  fractionDigits : ∀ character ∈ form.fraction, isDigit character = true
  leads : form.whole = ['0'] ∨ ∃ head tail, form.whole = head :: tail ∧ head ≠ '0'
  marked : form.fraction ≠ [] ∨ form.power ≠ none
  fits : form.significand ≤ Reader.greatestSignificand
  small : ∀ power, form.power = some power → power.natAbs ≤ Reader.greatestExponent

theorem text_without_power {whole fraction : List Char} (some : fraction ≠ []) :
    text ⟨whole, fraction, none⟩ = whole ++ '.' :: fraction := by
  simp only [text, tail, exponentChars, if_neg some, Option.elim_none, List.append_nil]

end FloatForm

namespace Reader

variable {negative : Bool} {number : Binary64} {rest : List Char}

theorem digit_value_of_digit {character : Char} (digital : isDigit character = true) :
    digitValue? character = some (character.toNat - '0'.toNat) := by
  unfold isDigit digitValue? at *
  split at digital
  · rename_i within
    exact if_pos within
  · cases digital

theorem exponent_digits_read {text : List Char} {start count : Nat}
    (digital : ∀ character ∈ text, isDigit character = true) (enough : text.length ≤ count)
    (small : Nat.ofDigitChars 10 text start ≤ greatestExponent)
    (ends : rest.head?.bind digitValue? = none) :
    Reads (exponentDigits start count) text (some (Nat.ofDigitChars 10 text start)) rest := by
  induction text generalizing start count with
  | nil =>
      cases count with
      | zero => exact Reads.pure _ rest
      | succ count =>
          apply Reads.peek
          rw [List.nil_append, ends]
          exact Reads.pure _ rest
  | cons head tail hypothesis =>
      cases count with
      | zero => cases enough
      | succ count =>
          have value := digit_value_of_digit (digital head List.mem_cons_self)
          have later : ∀ character ∈ tail, isDigit character = true := fun character member =>
            digital character (List.mem_cons_of_mem head member)
          rw [Nat.ofDigitChars_cons] at small ⊢
          generalize head.toNat - '0'.toNat = digit at *
          have extended : 10 * start + digit ≤ greatestExponent := by
            have whole := @Nat.ofDigitChars_eq_ofDigitChars_zero tail (10 * start + digit)
            have scale : 1 ≤ 10 ^ tail.length := Nat.one_le_pow _ _ (by decide)
            have grows := Nat.mul_le_mul_right (10 * start + digit) scale
            omega
          apply Reads.peek
          simp only [List.cons_append, List.head?_cons, Option.bind_some, value]
          apply Reads.discard
          rw [if_neg (Nat.not_lt.2 extended)]
          exact hypothesis later (Nat.le_of_succ_le_succ enough) small

/-- Stated for the function as a whole, since the number it scales is not to be computed. -/
theorem float_def : float = fun negative significand exponent =>
    match scaled? negative significand exponent with
    | some number => pure number
    | none => failHere .numberOutOfRange := by
  delta float
  rfl

theorem float_reads {significand : Nat} {exponent : Int}
    (found : scaled? negative significand exponent = some number) (rest : List Char) :
    Reads (float negative significand exponent) [] number rest := by
  rw [float_def]
  simp only [found]
  exact Reads.pure number rest

theorem exponent_value_reads {Result : Type} {power : Nat}
    {next : Option Nat → Reader Result} {failed : Reader Result} {result : Result}
    (small : power ≤ greatestExponent) (delimited : Delimited rest)
    (goesOn : Reads (next (some power)) [] result rest) :
    Reads (do
      match ← peek with
      | none => failHere .endInValue
      | some first =>
          match digitValue? first with
          | none => failed
          | some digit =>
              discard
              let exponent ← fun cursor => exponentDigits digit cursor.rest.length cursor
              next exponent) (digitsOf power) result rest := by
  have digital := digits_of_digits power
  have value : Nat.ofDigitChars 10 (digitsOf power) 0 = power := Nat.ofDigitChars_ten_toDigits
  cases shape : digitsOf power with
  | nil => exact absurd shape (by simp [digitsOf])
  | cons head tail =>
      rw [shape] at digital value
      have first := digit_value_of_digit (digital head List.mem_cons_self)
      have later : ∀ character ∈ tail, isDigit character = true := fun character member =>
        digital character (List.mem_cons_of_mem head member)
      rw [Nat.ofDigitChars_cons, Nat.mul_zero, Nat.zero_add] at value
      apply Reads.peek
      simp only [List.cons_append, List.head?_cons, first]
      apply Reads.discard
      have digits : Reads (fun cursor =>
          exponentDigits (head.toNat - '0'.toNat) cursor.rest.length cursor) tail
          (some power) rest := by
        intro position
        have enough : tail.length ≤ (tail ++ rest).length := by simp
        have reads := exponent_digits_read later enough (by rw [value]; exact small)
          delimited.no_digit position
        rwa [value] at reads
      exact digits.last goesOn

theorem exponent_part_reads {significand : Nat} {scale power : Int}
    (small : power.natAbs ≤ greatestExponent) (delimited : Delimited rest)
    (found : scaled? negative significand (scale + power) = some number) :
    Reads (exponentPart negative significand scale) (exponentText power) number rest := by
  unfold exponentText
  split
  · have sum : scale - (power.natAbs : Int) = scale + power := by omega
    apply Reads.discard
    apply Reads.peek
    apply Reads.discard
    refine exponent_value_reads small delimited ?_
    simp only [List.cons_append, List.head?_cons, if_true, sum]
    exact float_reads found rest
  · have sum : scale + (power.natAbs : Int) = scale + power := by omega
    apply Reads.discard
    apply Reads.peek
    apply Reads.discard
    refine exponent_value_reads small delimited ?_
    have notMinus : ¬some '+' = some '-' := by decide
    simp only [List.cons_append, List.head?_cons, if_neg notMinus, sum]
    exact float_reads found rest

theorem exponent_chars_no_digit {form : FloatForm} (delimited : Delimited rest) :
    (form.exponentChars ++ rest).head?.bind digitValue? = none := by
  unfold FloatForm.exponentChars
  cases form.power with
  | none => exact delimited.no_digit
  | some power =>
      simp only [Option.elim_some, exponentText]
      split <;> rfl

theorem no_exponent_reads {marked plain : Reader Binary64} (delimited : Delimited rest)
    (reads : Reads plain [] number rest) :
    Reads (do
      match ← peek with
      | some 'e' | some 'E' => marked
      | _ => plain) [] number rest := by
  rcases delimited with rfl | ⟨head, tail, rfl, rfl | rfl | rfl | rfl⟩ <;> exact reads

theorem scaled_part_reads {form : FloatForm} {significand : Nat} {scale : Int}
    (sound : form.Sound) (delimited : Delimited rest)
    (found : scaled? negative significand (scale + form.power.getD 0) = some number) :
    Reads (do
      match ← peek with
      | some 'e' | some 'E' => exponentPart negative significand scale
      | _ => float negative significand scale) form.exponentChars number rest := by
  unfold FloatForm.exponentChars
  cases shape : form.power with
  | none =>
      rw [shape, Option.getD_none, Int.add_zero] at found
      exact no_exponent_reads delimited (float_reads found rest)
  | some power =>
      apply Reads.peek
      rw [shape, Option.getD_some] at found
      have reads := exponent_part_reads (sound.small power shape) delimited found
      have marked : (exponentText power ++ rest).head? = some 'e' := by
        unfold exponentText
        split <;> rfl
      simp only [Option.elim_some, marked]
      exact reads

theorem fraction_part_reads {form : FloatForm} (sound : form.Sound) (delimited : Delimited rest)
    (some : form.fraction ≠ [])
    (found : scaled? negative form.significand form.exponent = Option.some number) :
    Reads (fractionPart negative (Nat.ofDigitChars 10 form.whole 0) 0) form.tail number rest := by
  have kept : extendSignificand (Nat.ofDigitChars 10 form.whole 0) form.fraction =
      (form.significand, 0) := by
    have whole : Nat.ofDigitChars 10 form.fraction (Nat.ofDigitChars 10 form.whole 0) =
        form.significand := (Nat.ofDigitChars_append 0).symm
    rw [extend_significand_eq _ _ (by rw [whole]; exact sound.fits), whole]
  have notEmpty : form.fraction.isEmpty = false := by simpa using some
  have scale : (0 : Int) - (form.fraction.length - 0 : Nat) + form.power.getD 0 =
      form.exponent := by
    rw [FloatForm.exponent]
    omega
  rw [FloatForm.tail, if_neg some]
  apply Reads.discard
  refine Reads.bind (digits_read sound.fractionDigits (exponent_chars_no_digit delimited)) ?_
  simp only [notEmpty, Bool.false_eq_true, if_false, kept]
  exact scaled_part_reads sound delimited (by rw [scale]; exact found)

theorem float_tail_reads {form : FloatForm} (sound : form.Sound) (delimited : Delimited rest)
    (found : scaled? negative form.significand form.exponent = some number) :
    Reads (numberTail negative (Nat.ofDigitChars 10 form.whole 0) 0) form.tail (.float number)
      rest := by
  apply Reads.peek
  by_cases empty : form.fraction = []
  · obtain ⟨power, shape⟩ := Option.ne_none_iff_exists'.1 (sound.marked.resolve_left (· empty))
    have text : form.tail = exponentText power := by
      rw [FloatForm.tail, if_pos empty, FloatForm.exponentChars, shape]
      rfl
    have marked : (exponentText power ++ rest).head? = some 'e' := by
      unfold exponentText
      split <;> rfl
    have significand : form.significand = Nat.ofDigitChars 10 form.whole 0 := by
      rw [FloatForm.significand, empty, List.append_nil]
    have exponent : form.exponent = 0 + power := by
      rw [FloatForm.exponent, empty, shape]
      simp
    rw [significand, exponent] at found
    rw [text]
    simp only [marked]
    exact (exponent_part_reads (sound.small power shape) delimited found).map Number.float
  · have reads := (fraction_part_reads sound delimited empty found).map Number.float
    have pointed : (form.tail ++ rest).head? = some '.' := by
      rw [FloatForm.tail, if_neg empty]
      rfl
    simp only [pointed]
    exact reads

theorem float_form_reads {form : FloatForm} (sound : form.Sound) (delimited : Delimited rest)
    (found : scaled? negative form.significand form.exponent = some number) :
    Reads (unsignedNumber negative) form.text (.float number) rest := by
  have tail := float_tail_reads sound delimited found
  have ends : (form.tail ++ rest).head?.bind digitValue? = none := by
    rw [FloatForm.tail]
    split
    · exact exponent_chars_no_digit delimited
    · rfl
  rw [FloatForm.text]
  rcases sound.leads with zero | ⟨head, later, shape, lead⟩
  · have text : ['0'] ++ form.tail = '0' :: form.tail := rfl
    rw [zero] at tail ⊢
    rw [text]
    apply Reads.peek
    apply Reads.discard
    apply Reads.peek
    rw [ends]
    exact tail
  · have digital := sound.wholeDigits
    have fits : Nat.ofDigitChars 10 form.whole 0 ≤ greatestSignificand := by
      refine Nat.le_trans ?_ sound.fits
      rw [FloatForm.significand, Nat.ofDigitChars_append,
        @Nat.ofDigitChars_eq_ofDigitChars_zero form.fraction]
      have scale : 1 ≤ 10 ^ form.fraction.length := Nat.one_le_pow _ _ (by decide)
      exact (Nat.le_mul_of_pos_left _ scale).trans (Nat.le_add_right _ _)
    have kept := extend_significand_eq form.whole 0 fits
    have leading : isDigit head = true := digital head (by rw [shape]; exact List.mem_cons_self)
    apply Reads.peek
    simp only [shape, List.cons_append, List.head?_cons, if_neg lead, leading, if_true]
    rw [← List.cons_append, ← shape]
    refine Reads.bind (digits_read digital ends) ?_
    simp only [kept]
    exact tail

end Reader

/-! ## The forms that are written -/

theorem of_digits_lt {characters : List Char}
    (digital : ∀ character ∈ characters, isDigit character = true) :
    Nat.ofDigitChars 10 characters 0 < 10 ^ characters.length := by
  induction characters with
  | nil => exact Nat.one_pos
  | cons head tail hypothesis =>
      have later := hypothesis fun character member =>
        digital character (List.mem_cons_of_mem head member)
      have digit : head.toNat - '0'.toNat ≤ 9 := by
        have first := digital head List.mem_cons_self
        rw [Reader.is_digit_eq, Char.isDigit_iff_toNat] at first
        have zero : '0'.toNat = 48 := rfl
        have nine : '9'.toNat = 57 := rfl
        omega
      rw [Nat.ofDigitChars_cons, Nat.mul_zero, Nat.zero_add,
        @Nat.ofDigitChars_eq_ofDigitChars_zero tail, List.length_cons, Nat.pow_succ]
      have scaled := Nat.mul_le_mul_left (10 ^ tail.length) digit
      omega

namespace FloatForm

variable {coefficient : Nat} {exponent : Int}

structure Writes (form : FloatForm) (coefficient : Nat) (exponent : Int) : Prop where
  sound : form.Sound
  scales : form.exponent < 0 ∨ form.significand = coefficient ∧ form.exponent = exponent

/-- With digits behind a point and no power of ten, any coefficient is written. -/
theorem Writes.without_power {whole fraction : List Char} (sound : Sound ⟨whole, fraction, none⟩)
    (some : fraction ≠ []) (coefficient : Nat) (exponent : Int) :
    Writes ⟨whole, fraction, none⟩ coefficient exponent := by
  refine ⟨sound, .inl ?_⟩
  have positive := List.length_pos_iff.2 some
  simp only [FloatForm.exponent, Option.getD_none]
  omega

theorem digits_length (short : coefficient < 10 ^ 18) : (digitsOf coefficient).length ≤ 18 :=
  (Nat.length_toDigits_le_iff (by decide) (by decide)).2 short

theorem digits_length_pos (coefficient : Nat) : 0 < (digitsOf coefficient).length :=
  Nat.length_toDigits_pos

theorem digits_value (coefficient : Nat) :
    Nat.ofDigitChars 10 (digitsOf coefficient) 0 = coefficient :=
  Nat.ofDigitChars_ten_toDigits

theorem zero_is_digit (count : Nat) :
    ∀ character ∈ List.replicate count '0', isDigit character = true := by
  intro character member
  rw [List.eq_of_mem_replicate member]
  rfl

theorem fits_of_length {characters : List Char} (few : characters.length ≤ 19)
    (digital : ∀ character ∈ characters, isDigit character = true) :
    Nat.ofDigitChars 10 characters 0 ≤ Reader.greatestSignificand := by
  have below := of_digits_lt digital
  have powers : 10 ^ characters.length ≤ 10 ^ 19 := Nat.pow_le_pow_right (by decide) few
  have words : 10 ^ 19 ≤ Reader.greatestSignificand := by decide
  omega

theorem write_positional (exponent : Int) (positive : 0 < coefficient)
    (short : coefficient < 10 ^ 18) {places : Nat} (few : places ≤ 15) :
    ∃ form : FloatForm, form.Writes coefficient exponent ∧
      form.text = (digitsOf coefficient ++
          List.replicate (places + 1 - (digitsOf coefficient).length) '0').take (places + 1) ++
        '.' :: (if ((digitsOf coefficient).drop (places + 1)).isEmpty then ['0']
          else (digitsOf coefficient).drop (places + 1)) := by
  obtain ⟨head, tail, lead, nonzero⟩ := Reader.digits_of_head positive
  have digital := Reader.digits_of_digits coefficient
  have length := digits_length short
  generalize digitsOf coefficient = digits at *
  generalize wholeEq : (digits ++ List.replicate (places + 1 - digits.length) '0').take
    (places + 1) = whole
  generalize fractionEq : (if (digits.drop (places + 1)).isEmpty then ['0']
    else digits.drop (places + 1)) = fraction
  have wholeDigits : ∀ character ∈ whole, isDigit character = true := by
    intro character member
    rw [← wholeEq] at member
    rcases List.mem_append.1 (List.mem_of_mem_take member) with kept | filled
    · exact digital character kept
    · exact zero_is_digit _ character filled
  have fractionDigits : ∀ character ∈ fraction, isDigit character = true := by
    intro character member
    rw [← fractionEq] at member
    split at member
    · rw [List.mem_singleton.1 member]
      rfl
    · exact digital character (List.mem_of_mem_drop member)
  have some : fraction ≠ [] := by
    rw [← fractionEq]
    split
    · exact List.cons_ne_nil _ _
    · rename_i notEmpty
      simpa using notEmpty
  have together : (whole ++ fraction).length ≤ 19 := by
    have wholeLength : whole.length = places + 1 := by
      rw [← wholeEq, List.length_take, List.length_append, List.length_replicate]
      omega
    have fractionLength : fraction.length ≤ 1 ∨ fraction.length = digits.length - (places + 1) := by
      rw [← fractionEq]
      split
      · exact .inl (Nat.le_refl 1)
      · exact .inr (List.length_drop ..)
    rw [List.length_append]
    omega
  have sound : FloatForm.Sound ⟨whole, fraction, none⟩ := by
    refine ⟨wholeDigits, fractionDigits, .inr ?_, .inl some, ?_, ?_⟩
    · rw [← wholeEq, lead]
      exact ⟨head, _, rfl, nonzero⟩
    · exact fits_of_length together fun character member =>
        (List.mem_append.1 member).elim (wholeDigits character) (fractionDigits character)
    · rintro power ⟨⟩
  exact ⟨_, .without_power sound some coefficient exponent, FloatForm.text_without_power some⟩

theorem write_below_one (exponent : Int) (short : coefficient < 10 ^ 18) (zeros : Nat) :
    ∃ form : FloatForm, form.Writes coefficient exponent ∧
      form.text = '0' :: '.' :: List.replicate zeros '0' ++ digitsOf coefficient := by
  have value : Nat.ofDigitChars 10 (['0'] ++ (List.replicate zeros '0' ++ digitsOf coefficient)) 0 =
      coefficient := by
    rw [Nat.ofDigitChars_append, Nat.ofDigitChars_append, Nat.ofDigitChars_replicate_zero]
    exact digits_value coefficient
  have some : List.replicate zeros '0' ++ digitsOf coefficient ≠ [] := by
    have positive := digits_length_pos coefficient
    intro none
    rw [(List.append_eq_nil_iff.1 none).2] at positive
    exact absurd positive (Nat.lt_irrefl 0)
  have sound : FloatForm.Sound ⟨['0'], List.replicate zeros '0' ++ digitsOf coefficient, none⟩ := by
    refine ⟨zero_is_digit 1, ?_, .inl rfl, .inl some, ?_, ?_⟩
    · intro character member
      exact (List.mem_append.1 member).elim (zero_is_digit zeros character)
        (Reader.digits_of_digits coefficient character)
    · rw [FloatForm.significand, value]
      exact short.le.trans (by decide)
    · rintro power ⟨⟩
  refine ⟨_, .without_power sound some coefficient exponent, ?_⟩
  rw [FloatForm.text_without_power some]
  rfl

theorem write_exponent (positive : 0 < coefficient) (short : coefficient < 10 ^ 18)
    (least : -1074 ≤ exponent) (greatest : exponent < 309) {head : Char} {tail : List Char}
    (shape : digitsOf coefficient = head :: tail) :
    ∃ form : FloatForm, form.Writes coefficient exponent ∧
      form.text = head :: ((if tail = [] then [] else '.' :: tail) ++
        exponentText (exponent + (digitsOf coefficient).length - 1)) := by
  obtain ⟨first, _, lead, nonzero⟩ := Reader.digits_of_head positive
  have digital := Reader.digits_of_digits coefficient
  have length := digits_length short
  have value := digits_value coefficient
  have power := digits_length_pos coefficient
  rw [shape] at lead digital length value power
  injection lead with same
  refine ⟨⟨[head], tail, some (exponent + (digitsOf coefficient).length - 1)⟩,
    ⟨⟨?_, ?_, .inr ⟨head, [], rfl, same ▸ nonzero⟩, .inr (Option.some_ne_none _), ?_, ?_⟩,
      .inr ⟨value, ?_⟩⟩, ?_⟩
  · intro character member
    rw [List.mem_singleton.1 member]
    exact digital head List.mem_cons_self
  · exact fun character member => digital character (List.mem_cons_of_mem head member)
  · exact fits_of_length (length.trans (by decide)) digital
  · rintro exponent ⟨⟩
    rw [shape]
    simp only [Reader.greatestExponent, List.length_cons] at *
    omega
  · simp only [FloatForm.exponent, Option.getD_some, shape, List.length_cons]
    omega
  · rfl

theorem write_form (positive : 0 < coefficient) (short : coefficient < 10 ^ 18)
    (least : -1074 ≤ exponent) (greatest : exponent < 309) :
    ∃ form : FloatForm, form.Writes coefficient exponent ∧
      floatStyle.write (digitsOf coefficient)
        (exponent + (digitsOf coefficient).length - 1) = form.text := by
  unfold PointStyle.write
  split
  · rename_i positional
    have few : exponent + (digitsOf coefficient).length - 1 ≤ 15 := positional.2
    split
    · have places : (exponent + (digitsOf coefficient).length - 1).toNat ≤ 15 := by omega
      obtain ⟨form, writes, text⟩ := write_positional exponent positive short places
      exact ⟨form, writes, text.symm⟩
    · obtain ⟨form, writes, text⟩ := write_below_one exponent short
        ((-(exponent + (digitsOf coefficient).length - 1)).toNat - 1)
      exact ⟨form, writes, text.symm⟩
  · split
    · rename_i none
      have some := digits_length_pos coefficient
      rw [none] at some
      exact absurd some (Nat.lt_irrefl 0)
    · rename_i single shape
      obtain ⟨form, writes, text⟩ := write_exponent positive short least greatest shape
      exact ⟨form, writes, text.symm⟩
    · rename_i first rest _ shape
      obtain ⟨form, writes, text⟩ := write_exponent positive short least greatest shape
      have some : rest ≠ [] := by
        rintro rfl
        rename_i apart
        exact apart rfl
      rw [if_neg some] at text
      exact ⟨form, writes, text.symm⟩

end FloatForm

def signText (negative : Bool) : List Char := if negative then ['-'] else []

theorem float_text_eq (value : Binary64) :
    floatStyle.text value = signText value.negative ++
      if value.isZero then ['0', '.', '0']
      else floatStyle.write (digitsOf (shortest value).1)
        ((shortest value).2 + (digitsOf (shortest value).1).length - 1) := by
  unfold PointStyle.text
  cases value.isZero <;> rfl

/-- The text of a float behind its sign, and the number as which it is read. -/
theorem float_text_form (value : Binary64) :
    ∃ form : FloatForm, form.Sound ∧ floatStyle.text value = signText value.negative ++ form.text ∧
      ∃ number, scaled? value.negative form.significand form.exponent = some number := by
  have zero : ∃ form : FloatForm, form.Sound ∧ ['0', '.', '0'] = form.text ∧
      ∃ number, scaled? value.negative form.significand form.exponent = some number :=
    ⟨⟨['0'], ['0'], none⟩, ⟨FloatForm.zero_is_digit 1, FloatForm.zero_is_digit 1, .inl rfl,
      .inl (List.cons_ne_nil _ _), by decide, by rintro power ⟨⟩⟩, rfl,
      scaled_down_finite _ (by decide) (by decide)⟩
  rw [float_text_eq]
  split
  · obtain ⟨form, sound, text, found⟩ := zero
    exact ⟨form, sound, by rw [text], found⟩
  · rename_i notZero
    have nonzero : value.rank ≠ 0 := by simpa [Binary64.isZero] using notZero
    rcases shortest_stands nonzero with none | stands
    · obtain ⟨form, sound, text, found⟩ := zero
      rw [none]
      exact ⟨form, sound, by rw [← text]; rfl, found⟩
    · obtain ⟨form, writes, text⟩ := FloatForm.write_form stands.positive stands.short stands.least
        (stands.exponent_lt nonzero)
      refine ⟨form, writes.sound, by rw [text], ?_⟩
      have fits : form.significand < 2 ^ 64 := Nat.lt_succ_of_le writes.sound.fits
      rcases Int.lt_or_le form.exponent 0 with below | above
      · exact scaled_down_finite _ fits below
      · obtain ⟨significand, exponent⟩ := writes.scales.resolve_left (Int.not_lt.2 above)
        rw [significand, exponent]
        exact shortest_scaled nonzero stands (exponent ▸ above)

namespace FloatForm

theorem text_starts {form : FloatForm} (sound : form.Sound) :
    ∃ head tail, form.text = head :: tail ∧ isDigit head = true := by
  rcases sound.leads with zero | ⟨head, tail, shape, _⟩
  · exact ⟨'0', form.tail, by rw [text, zero]; rfl, rfl⟩
  · have digital := sound.wholeDigits head (by rw [shape]; exact List.mem_cons_self)
    exact ⟨head, tail ++ form.tail, by rw [text, shape]; rfl, digital⟩

end FloatForm

namespace Number

theorem text_starts (number : Number) :
    ∃ head tail, number.text = head :: tail ∧ (head = '-' ∨ isDigit head = true) := by
  cases number with
  | integer value inRange =>
      simp only [text, integerText]
      split
      · exact ⟨'-', _, rfl, .inl rfl⟩
      · cases shape : digitsOf value.natAbs with
        | nil => exact absurd shape (by simp [digitsOf])
        | cons head tail =>
            have digital := Reader.digits_of_digits value.natAbs head
              (by rw [shape]; exact List.mem_cons_self)
            exact ⟨head, tail, rfl, .inr digital⟩
  | float value =>
      obtain ⟨form, sound, shape, _⟩ := float_text_form value
      rw [text, shape]
      cases value.negative with
      | true => exact ⟨'-', form.text, rfl, .inl rfl⟩
      | false =>
          obtain ⟨head, tail, lead, digital⟩ := FloatForm.text_starts sound
          exact ⟨head, tail, lead, .inr digital⟩

theorem text_reads (number : Number) :
    ∃ read, ∀ rest, Delimited rest → Reads Reader.number number.text read rest := by
  cases number with
  | integer value inRange => exact ⟨_, fun rest delimited => Reader.integer_reads inRange delimited⟩
  | float value =>
      obtain ⟨form, sound, shape, read, found⟩ := float_text_form value
      refine ⟨.float read, fun rest delimited => ?_⟩
      have reads := Reader.float_form_reads sound delimited found
      rw [text, shape]
      cases sign : value.negative with
      | true =>
          rw [sign] at reads
          exact Reads.peek (Reads.discard reads)
      | false =>
          rw [sign] at reads
          obtain ⟨head, tail, lead, digital⟩ := FloatForm.text_starts sound
          have unsigned : signText false ++ form.text = form.text := rfl
          rw [unsigned]
          apply Reads.peek
          rw [lead] at reads ⊢
          simp only [List.cons_append, List.head?_cons]
          split
          · rename_i minus
            cases minus
            cases digital
          · exact reads

end Number

end UnitState.Json
