import UnitState.Json.Skip

/-!
# Decoding typed values

Readers of values with an expected type, given the nesting that is still allowed. A
value of another type is a fault that names what was found and what was expected; a
scalar has been consumed by then, a list or an object has not. A structure is read
from an object, whose unknown members are passed over, or from a list of its fields.
-/

set_option autoImplicit false

namespace UnitState.Json

open UnitState.Decimal

/-- A reader that may enter the given number of nested arrays and objects. -/
abbrev Decoder (Result : Type) : Type := Nat → Reader Result

namespace Decoder

open Reader

variable {Result State : Type}

def mismatch (expected : String) : Reader Result := do
  let found : Found ←
    match ← token with
    | none => failHere .endInValue
    | some 'n' =>
        discard
        name "ull".toList
        pure .null
    | some 't' =>
        discard
        name "rue".toList
        pure (.bool true)
    | some 'f' =>
        discard
        name "alse".toList
        pure (.bool false)
    | some '"' => pure (.text (← string))
    | some '[' => pure .sequence
    | some '\x7b' => pure .map
    | some head =>
        if head = '-' ∨ isDigit head then pure (.number (← number))
        else failNext .expectedValue
  Attempt.fail (.unplaced (.invalidType found expected))

def textAs (expected : String) (accept : String → Except Cause Result) : Reader Result :=
  located do
    match ← token with
    | some '"' =>
        match accept (← string) with
        | .ok result => pure result
        | .error cause => Attempt.fail (.unplaced cause)
    | _ => mismatch expected

def text : Decoder String := fun _ => textAs "a string" .ok

def boolean : Decoder Bool := fun _ => located do
  match ← token with
  | some 't' =>
      discard
      name "rue".toList
      pure true
  | some 'f' =>
      discard
      name "alse".toList
      pure false
  | _ => mismatch "a boolean"

def unit : Decoder Unit := fun _ => located do
  match ← token with
  | some 'n' =>
      discard
      name "ull".toList
  | _ => mismatch "unit"

def numberAs (expected : String) (accept : Number → Except Cause Result) : Reader Result :=
  located do
    match ← token with
    | some head =>
        if head = '-' ∨ isDigit head then
          match accept (← number) with
          | .ok result => pure result
          | .error cause => Attempt.fail (.unplaced cause)
        else mismatch expected
    | none => mismatch expected

inductive IntegerType where
  | signed64
  | unsigned64
  | unsigned16
  | unsigned8
deriving DecidableEq

namespace IntegerType

def least : IntegerType → Int
  | signed64 => -9223372036854775808
  | _ => 0

def greatest : IntegerType → Int
  | signed64 => 9223372036854775807
  | unsigned64 => 18446744073709551615
  | unsigned16 => 65535
  | unsigned8 => 255

def description : IntegerType → String
  | signed64 => "i64"
  | unsigned64 => "u64"
  | unsigned16 => "u16"
  | unsigned8 => "u8"

end IntegerType

def integer (type : IntegerType) : Decoder Int := fun _ =>
  numberAs type.description fun number =>
    match number with
    | .integer value _ =>
        if type.least ≤ value ∧ value ≤ type.greatest then .ok value
        else .error (.invalidValue (.number number) type.description)
    | .float _ => .error (.invalidType (.number number) type.description)

def float : Decoder Binary64 := fun _ => numberAs "f64" fun number => .ok number.toFloat

def optional (decoder : Decoder Result) : Decoder (Option Result) := fun room => do
  match ← token with
  | some 'n' =>
      discard
      name "ull".toList
      pure none
  | _ => return some (← decoder room)

/-- Enters a list or an object, which spends one level of nesting. -/
def enter (room : Nat) (inside : Nat → Reader Result) : Reader Result :=
  match room with
  | 0 => failNext .tooDeep
  | room + 1 => inside room

def list (decoder : Decoder Result) : Decoder (List Result) := fun room => located do
  match ← token with
  | some '[' => enter room fun room => Reader.list (decoder room)
  | _ => mismatch "a sequence"

def members (decoder : Decoder Result) : Decoder (List (String × Result)) :=
  fun room => located do
    match ← token with
    | some '\x7b' => enter room fun room => Reader.object (decoder room)
    | _ => mismatch "a map"

def value : Decoder Value := Reader.value

structure Field (State : Type) where
  name : String
  isSet : State → Bool
  read : State → Decoder State

def slot {Content : Type} (name : String) (get : State → Option Content)
    (set : State → Content → State) (decoder : Decoder Content) : Field State where
  name := name
  isSet state := (get state).isSome
  read state room := set state <$> decoder room

def fieldItems (expected : String) (fields : List (Field State)) (index : Nat)
    (state : State) (room : Nat) : Reader State :=
  match fields with
  | [] => pure state
  | field :: later => do
      if ← nextItem (index == 0) then
        fieldItems expected later (index + 1) (← field.read state room) room
      else Attempt.fail (.unplaced (.invalidLength index expected))

/-- The fields of a structure from an object, in any order, each at most once. -/
def fieldMembers (fields : List (Field State)) (room : Nat) (first : Bool) (state : State) :
    Nat → Reader State
  | 0 => pure state
  | fuel + 1 => do
      if ← nextKey first then
        let key ← string
        match fields.find? fun field => field.name == key with
        | some field =>
            if field.isSet state then Attempt.fail (.unplaced (.duplicateField key))
            else
              colon
              fieldMembers fields room false (← field.read state room) fuel
        | none =>
            colon
            skipValue
            fieldMembers fields room false state fuel
      else pure state

/-- A structure with at least two fields. A field that stays unset is up to `finish`. -/
def record (expected : String) (fields : List (Field State)) (initial : State)
    (finish : State → Except Cause Result) : Decoder Result := fun room => located do
  let finished (state : State) : Reader Result :=
    match finish state with
    | .ok result => pure result
    | .error cause => Attempt.fail (.unplaced cause)
  match ← token with
  | some '[' =>
      enter room fun room => do
        discard
        let counted := expected ++ " with " ++ String.ofList (digitsOf fields.length)
          ++ " elements"
        closedBy (do finished (← fieldItems counted fields 0 initial room)) endList
  | some '\x7b' =>
      enter room fun room => do
        discard
        closedBy (do finished (← bounded (fieldMembers fields room true initial))) endObject
  | _ => mismatch expected

def required {Content : Type} (name : String) (content : Option Content) :
    Except Cause Content :=
  match content with
  | some content => .ok content
  | none => .error (.missingField name)

def run (decoder : Decoder Result) (text : String) : Except Fault Result :=
  Reader.readAll (decoder nestingLimit) text

end Decoder

end UnitState.Json
