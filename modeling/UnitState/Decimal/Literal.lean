import UnitState.Decimal.Binary64

/-!
# Number literals in plain text

Reads the text of an integer, or of a floating-point number with its special names,
as a whole. A decimal literal is rounded once, to the nearest number.
-/

set_option autoImplicit false

namespace UnitState.Decimal

def digitValue? (character : Char) : Option Nat :=
  if '0' ≤ character ∧ character ≤ '9' then some (character.toNat - '0'.toNat) else none

def foldDigits? (start : Nat) : List Char → Option Nat
  | [] => some start
  | head :: tail => do
      let digit ← digitValue? head
      foldDigits? (10 * start + digit) tail

def natural? (characters : List Char) : Option Nat :=
  if characters.isEmpty then none else foldDigits? 0 characters

def unsigned? : List Char → Option Nat
  | '+' :: rest => natural? rest
  | characters => natural? characters

def signed? : List Char → Option Int
  | '-' :: rest => (natural? rest).map fun magnitude => -(magnitude : Int)
  | characters => (unsigned? characters).map Int.ofNat

inductive Literal where
  | decimal (negative : Bool) (significand : Nat) (exponent : Int)
  | infinite
  | undefined
deriving DecidableEq

def isDigit (character : Char) : Bool := (digitValue? character).isSome

/-- The digits of a literal before its exponent, with the count of fraction digits. -/
def mantissa? (characters : List Char) : Option (Nat × Nat) :=
  let whole := characters.takeWhile isDigit
  match characters.dropWhile isDigit with
  | [] => (natural? whole).map fun significand => (significand, 0)
  | '.' :: fraction =>
      if whole.isEmpty && fraction.isEmpty then none
      else (foldDigits? 0 (whole ++ fraction)).map fun significand =>
        (significand, fraction.length)
  | _ => none

def isExponentMark (character : Char) : Bool := character == 'e' || character == 'E'

def unsignedLiteral? (negative : Bool) (characters : List Char) : Option Literal :=
  let lowered := characters.map Char.toLower
  if lowered = "inf".toList ∨ lowered = "infinity".toList then some .infinite
  else if lowered = "nan".toList then some .undefined
  else do
    let body := characters.takeWhile (!isExponentMark ·)
    let (significand, places) ← mantissa? body
    match characters.dropWhile (!isExponentMark ·) with
    | [] => return .decimal negative significand (-(places : Int))
    | _ :: power =>
        let exponent ← signed? power
        return .decimal negative significand (exponent - places)

def literal? : List Char → Option Literal
  | '-' :: rest => unsignedLiteral? true rest
  | '+' :: rest => unsignedLiteral? false rest
  | characters => unsignedLiteral? false characters

/-- A decimal as a ratio of integers. Exponents that put it beyond every finite
magnitude, or below half of the smallest one, are cut short. -/
def ratio (significand : Nat) (exponent : Int) : Nat × Nat :=
  if significand = 0 then (0, 1)
  else if 0 ≤ exponent then (significand * tenPower (min exponent.toNat 400), 1)
  else
    let digits : Nat := (Nat.toDigits 10 significand).length
    if digits + 400 < exponent.natAbs then (0, 1)
    else (significand, tenPower exponent.natAbs)

namespace Literal

def binary64? : Literal → Option Binary64
  | decimal negative significand exponent =>
      let (numerator, denominator) := ratio significand exponent
      Binary64.ofRatio? negative numerator denominator
  | infinite | undefined => none

def binary32? : Literal → Option Binary64
  | decimal negative significand exponent => do
      let (numerator, denominator) := ratio significand exponent
      let units ← narrowUnits? numerator denominator
      Binary64.ofUnits? negative units 1
  | infinite | undefined => none

end Literal

end UnitState.Decimal
