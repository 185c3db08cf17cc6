import UnitState.Json.Parser

/-!
# Passing over values

Reads a value that nobody asked for without building it. Passing over is more lenient
than reading: nesting is unlimited, numbers have no range, and surrogate escapes need
no partner.
-/

set_option autoImplicit false

namespace UnitState.Json.Reader

open UnitState.Decimal

def skipExponent : Reader Unit := do
  discard
  let sign ← peek
  if sign = some '+' ∨ sign = some '-' then discard
  if ((← peek).bind digitValue?).isSome then do
    let _ ← digits
    pure ()
  else failNext .invalidNumber

def skipFraction : Reader Unit := do
  discard
  if (← digits).isEmpty then failNext .invalidNumber
  else
    match ← peek with
    | some 'e' | some 'E' => skipExponent
    | _ => pure ()

def skipNumber : Reader Unit := do
  match ← peek with
  | none => failHere .invalidNumber
  | some first =>
      if first = '0' then do
        discard
        if ((← peek).bind digitValue?).isSome then failNext .invalidNumber
      else if isDigit first then do
        let _ ← digits
      else failNext .invalidNumber
      match ← peek with
      | some '.' => skipFraction
      | some 'e' | some 'E' => skipExponent
      | _ => pure ()

def skipEscape : Reader Unit := do
  match ← peek with
  | none => failHere .endInString
  | some mark =>
      if (plainEscape? mark).isSome then discard
      else if mark = 'u' then do
        discard
        let _ ← hexWord
      else failNext .invalidEscape

/-- The rest of a string up to its closing quotation mark. A control character is not
consumed, so that its fault has the place right before it. -/
def skipString : Nat → Reader Unit
  | 0 => failHere .endInString
  | fuel + 1 => do
      match ← peek with
      | none => failHere .endInString
      | some head =>
          if head.toNat < 0x20 then failHere .controlCharacter
          else do
            discard
            if head = '"' then pure ()
            else if head = '\\' then do
              skipEscape
              skipString fuel
            else skipString fuel

inductive Frame where
  | list
  | object
deriving DecidableEq

namespace Frame

def closing : Frame → Char
  | list => ']'
  | object => '\x7d'

def endCause : Frame → Cause
  | list => .endInList
  | object => .endInObject

def separatorCause : Frame → Cause
  | list => .expectedListCommaOrEnd
  | object => .expectedObjectCommaOrEnd

end Frame

def skipKey (frame : Frame) : Reader Unit :=
  match frame with
  | .list => pure ()
  | .object => do
      match ← token with
      | none => failHere .endInObject
      | some '"' =>
          discard
          bounded skipString
          colon
      | some _ => failNext .keyNotString

/-- What comes next while values are passed over: a value, or, inside the innermost
open bracket, either its closing or a further value behind a comma. -/
inductive SkipState where
  | value
  | inside (separated : Bool)

def skipOpen (state : SkipState) (pending : List Frame) : Nat → Reader Unit
  | 0 => pure ()
  | fuel + 1 =>
      match state with
      | .value => do
          match ← token with
          | none => failHere .endInValue
          | some '[' =>
              discard
              skipOpen (.inside false) (.list :: pending) fuel
          | some '\x7b' =>
              discard
              skipOpen (.inside false) (.object :: pending) fuel
          | some head =>
              match head with
              | 'n' =>
                  discard
                  name "ull".toList
              | 't' =>
                  discard
                  name "rue".toList
              | 'f' =>
                  discard
                  name "alse".toList
              | '"' =>
                  discard
                  bounded skipString
              | '-' =>
                  discard
                  skipNumber
              | _ => if isDigit head then skipNumber else failNext .expectedValue
              skipOpen (.inside true) pending fuel
      | .inside separated =>
          match pending with
          | [] => pure ()
          | frame :: outer => do
              match ← token with
              | none => failHere frame.endCause
              | some head =>
                  if head = ',' ∧ separated then do
                    discard
                    skipKey frame
                    skipOpen .value pending fuel
                  else if head = frame.closing then do
                    discard
                    skipOpen (.inside true) outer fuel
                  else if separated then failNext frame.separatorCause
                  else do
                    skipKey frame
                    skipOpen .value pending fuel

def skipValue : Reader Unit := fun cursor =>
  skipOpen .value [] (2 * cursor.rest.length + 2) cursor

end UnitState.Json.Reader
