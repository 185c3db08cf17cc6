import UnitState.Json.Printer

/-!
# Timestamps

Instants of Universal Time as seconds since the start of 1970 with a fraction, and
their text with microseconds. A fraction of a second or more is a leap second, which
only the last second of a minute can carry and which is written as second `60`. The
calendar is the Gregorian one, carried on in both directions, with a year zero.
-/

set_option autoImplicit false

namespace UnitState

open Decimal

structure Timestamp where
  seconds : Int
  nanoseconds : Nat
deriving DecidableEq

namespace Timestamp

/-- The first second of the year -262143. -/
def earliest : Int := -8334601228800

/-- The last second of the year 262142. -/
def latest : Int := 8210266876799

def ofParts? (seconds : Int) (nanoseconds : Nat) : Option Timestamp :=
  if earliest ≤ seconds ∧ seconds ≤ latest ∧ nanoseconds < 2000000000
      ∧ (nanoseconds < 1000000000 ∨ Int.fmod seconds 60 = 59) then
    some ⟨seconds, nanoseconds⟩
  else none

def epoch : Timestamp := ⟨0, 0⟩

structure Date where
  year : Int
  month : Nat
  day : Nat
deriving DecidableEq

/-- The date a number of days after the start of 1970. Years are counted from March, so
that a leap day ends its year; a cycle of 400 years has 146097 days. -/
def dateOfDays (days : Int) : Date :=
  let shifted := days + 719468
  let cycle := Int.fdiv shifted 146097
  let dayOfCycle := (Int.fmod shifted 146097).toNat
  let yearOfCycle :=
    (dayOfCycle - dayOfCycle / 1460 + dayOfCycle / 36524 - dayOfCycle / 146096) / 365
  let dayOfYear := dayOfCycle - (365 * yearOfCycle + yearOfCycle / 4 - yearOfCycle / 100)
  let monthFromMarch := (5 * dayOfYear + 2) / 153
  let day := dayOfYear - (153 * monthFromMarch + 2) / 5 + 1
  let month := if monthFromMarch < 10 then monthFromMarch + 3 else monthFromMarch - 9
  let year := (yearOfCycle : Int) + cycle * 400
  ⟨if month ≤ 2 then year + 1 else year, month, day⟩

def padded (width value : Nat) : List Char :=
  let digits := digitsOf value
  List.replicate (width - digits.length) '0' ++ digits

/-- Four digits, with a sign for years that four digits do not hold. -/
def yearText (year : Int) : List Char :=
  if 0 ≤ year ∧ year ≤ 9999 then padded 4 year.toNat
  else (if year < 0 then '-' else '+') :: padded 4 year.natAbs

def text (timestamp : Timestamp) : String :=
  let date := dateOfDays (Int.fdiv timestamp.seconds 86400)
  let second := (Int.fmod timestamp.seconds 86400).toNat
  let carried := timestamp.nanoseconds / 1000000000
  let micros := timestamp.nanoseconds % 1000000000 / 1000
  String.ofList <|
    yearText date.year ++ '-' :: padded 2 date.month ++ '-' :: padded 2 date.day
      ++ 'T' :: padded 2 (second / 3600) ++ ':' :: padded 2 (second / 60 % 60)
      ++ ':' :: padded 2 (second % 60 + carried) ++ '.' :: padded 6 micros ++ ['Z']

end Timestamp

end UnitState
