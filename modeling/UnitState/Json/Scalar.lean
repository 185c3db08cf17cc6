import UnitState.Decimal.Literal
import UnitState.Decimal.Scaled
import UnitState.Json.Reader

/-!
# Reading strings, numbers and names

Each reader starts where the token starts and stops right behind it. A literal keeps
as many leading digits as fit an unsigned 64-bit word; the digits left out before the
point raise the exponent, those behind it are ignored.
-/

set_option autoImplicit false

namespace UnitState.Json

open UnitState.Decimal

namespace Reader

def name : List Char → Reader Unit
  | [] => pure ()
  | expected :: others => do
      match ← peek with
      | none => failHere .endInValue
      | some found =>
          if found = expected then
            discard
            name others
          else failNext .expectedIdent

def hexValue? (character : Char) : Option Nat :=
  if '0' ≤ character ∧ character ≤ '9' then some (character.toNat - '0'.toNat)
  else if 'a' ≤ character ∧ character ≤ 'f' then some (character.toNat - 'a'.toNat + 10)
  else if 'A' ≤ character ∧ character ≤ 'F' then some (character.toNat - 'A'.toNat + 10)
  else none

def hexWord? : List Char → Option Nat
  | first :: second :: third :: fourth :: _ => do
      let first ← hexValue? first
      let second ← hexValue? second
      let third ← hexValue? third
      let fourth ← hexValue? fourth
      return ((first * 16 + second) * 16 + third) * 16 + fourth
  | _ => none

def hasFourBytes (characters : List Char) : Bool :=
  4 ≤ (characters.take 4).foldl (fun total character => total + character.utf8Size) 0

def hexWord : Reader Nat := fun cursor =>
  match hexWord? cursor.rest with
  | some word => (.ok word, cursor.advanceBy 4)
  | none =>
      let position := Cursor.positionAfterBytes 4 cursor.position cursor.rest
      let cause := if hasFourBytes cursor.rest then Cause.invalidEscape else .endInString
      (.error (.placed cause position), cursor)

def isLeadingSurrogate (word : Nat) : Bool := 0xD800 ≤ word && word ≤ 0xDBFF

def isTrailingSurrogate (word : Nat) : Bool := 0xDC00 ≤ word && word ≤ 0xDFFF

def escapePart (expected : Char) : Reader Unit := do
  match ← peek with
  | none => failHere .endInString
  | some found =>
      if found = expected then discard else failNext .unfinishedSurrogatePair

/-- The character of a hexadecimal escape whose `\u` has been consumed. A leading
surrogate has to be followed by the escape of a trailing one. -/
def hexCharacter : Reader Char := do
  let word ← hexWord
  if isTrailingSurrogate word then failHere .loneSurrogate
  else if isLeadingSurrogate word then do
    escapePart '\\'
    escapePart 'u'
    let second ← hexWord
    if isTrailingSurrogate second then
      pure (Char.ofNat ((word - 0xD800) * 0x400 + (second - 0xDC00) + 0x10000))
    else failHere .loneSurrogate
  else pure (Char.ofNat word)

def plainEscape? : Char → Option Char
  | '"' => some '"'
  | '\\' => some '\\'
  | '/' => some '/'
  | 'b' => some '\x08'
  | 'f' => some '\x0c'
  | 'n' => some '\n'
  | 'r' => some '\r'
  | 't' => some '\t'
  | _ => none

def escape : Reader Char := do
  match ← peek with
  | none => failHere .endInString
  | some mark =>
      match plainEscape? mark with
      | some character =>
          discard
          pure character
      | none =>
          if mark = 'u' then
            discard
            hexCharacter
          else failNext .invalidEscape

def stringChars : Nat → Reader (List Char)
  | 0 => failHere .endInString
  | fuel + 1 => do
      match ← peek with
      | none => failHere .endInString
      | some head =>
          discard
          if head = '"' then pure []
          else if head = '\\' then do
            let character ← escape
            return character :: (← stringChars fuel)
          else if head.toNat < 0x20 then failHere .controlCharacter
          else return head :: (← stringChars fuel)

def string : Reader String := fun cursor =>
  (do
    discard
    return String.ofList (← stringChars (cursor.rest.length + 1))) cursor

def greatestSignificand : Nat := 18446744073709551615

/-- The significand after further digits, and the count of those that did not fit. -/
def extendSignificand (significand : Nat) : List Char → Nat × Nat
  | [] => (significand, 0)
  | head :: tail =>
      let extended := 10 * significand + (head.toNat - '0'.toNat)
      if greatestSignificand < extended then (significand, tail.length + 1)
      else extendSignificand extended tail

def digits : Reader (List Char) := fun cursor =>
  let run := cursor.rest.takeWhile isDigit
  (.ok run, cursor.advanceBy run.length)

def float (negative : Bool) (significand : Nat) (exponent : Int) : Reader Binary64 :=
  match scaled? negative significand exponent with
  | some number => pure number
  | none => failHere .numberOutOfRange

def greatestExponent : Nat := 2147483647

/-- The digits of an exponent up to the one with which it exceeds the greatest
exponent; `none` stands for such an excess. -/
def exponentDigits (exponent : Nat) : Nat → Reader (Option Nat)
  | 0 => pure (some exponent)
  | fuel + 1 => do
      match (← peek).bind digitValue? with
      | none => pure (some exponent)
      | some digit =>
          discard
          if greatestExponent < 10 * exponent + digit then pure none
          else exponentDigits (10 * exponent + digit) fuel

def exponentPart (negative : Bool) (significand : Nat) (scale : Int) : Reader Binary64 := do
  discard
  let sign ← peek
  if sign = some '+' ∨ sign = some '-' then discard
  match ← peek with
  | none => failHere .endInValue
  | some first =>
      match digitValue? first with
      | none => failNext .invalidNumber
      | some digit =>
          discard
          let exponent ← fun cursor => exponentDigits digit cursor.rest.length cursor
          match exponent with
          | some exponent =>
              float negative significand
                (if sign = some '-' then scale - exponent else scale + exponent)
          | none =>
              if significand ≠ 0 ∧ sign ≠ some '-' then failHere .numberOutOfRange
              else do
                let _ ← digits
                pure (.zero negative)

def fractionPart (negative : Bool) (significand : Nat) (scale : Int) : Reader Binary64 := do
  discard
  let fraction ← digits
  if fraction.isEmpty then
    match ← peek with
    | none => failHere .endInValue
    | some _ => failNext .invalidNumber
  else
    let (extended, ignored) := extendSignificand significand fraction
    let exponent : Int := scale - (fraction.length - ignored : Nat)
    match ← peek with
    | some 'e' | some 'E' => exponentPart negative extended exponent
    | _ => float negative extended exponent

/-- What follows the whole digits of a literal. A negative literal that no signed
64-bit word holds is a float, and so is a negative zero. -/
def numberTail (negative : Bool) (significand ignored : Nat) : Reader Number := do
  match ← peek with
  | some '.' => return .float (← fractionPart negative significand ignored)
  | some 'e' | some 'E' => return .float (← exponentPart negative significand ignored)
  | _ =>
      if ignored ≠ 0 ∨ (negative ∧ significand = 0) then
        return .float (← float negative significand ignored)
      else
        match Number.ofInt? (if negative then -(significand : Int) else significand) with
        | some number => pure number
        | none => return .float (← float negative significand 0)

def unsignedNumber (negative : Bool) : Reader Number := do
  match ← peek with
  | none => failHere .endInValue
  | some first =>
      if first = '0' then do
        discard
        match (← peek).bind digitValue? with
        | some _ => failNext .invalidNumber
        | none => numberTail negative 0 0
      else if isDigit first then do
        let whole ← digits
        let (significand, ignored) := extendSignificand 0 whole
        numberTail negative significand ignored
      else failNext .invalidNumber

def number : Reader Number := do
  match ← peek with
  | some '-' =>
      discard
      unsignedNumber true
  | _ => unsignedNumber false

end Reader

end UnitState.Json
