import UnitState.Json.Canonical
import UnitState.Json.Fault

/-!
# Data to be stored

What a caller may offer for storing: a tree in which integers may have any size, numbers
need not be finite, and the keys of maps are of one of several types. It is turned into
a value first, so data of different types that denote one value are stored alike, and a
value denotes itself with its keys in order. Integers beyond the 64-bit ranges and keys
that are no scalars are refused.
-/

set_option autoImplicit false

namespace UnitState

open Decimal Json

inductive KeyDatum where
  | text (text : String)
  | integer (value : Int)
  | boolean (flag : Bool)
  | character (character : Char)
  | compound
deriving DecidableEq

namespace KeyDatum

def text? : KeyDatum → Option String
  | text content => some content
  | integer value => some (String.ofList (integerText value))
  | boolean flag => some (if flag then "true" else "false")
  | character content => some (String.singleton content)
  | compound => none

end KeyDatum

inductive Datum where
  | null
  | boolean (flag : Bool)
  | integer (value : Int)
  | float (number : Option Binary64)
  | text (text : String)
  | list (items : List Datum)
  | map (bindings : List (KeyDatum × Datum))

instance : Inhabited Datum := ⟨.null⟩

namespace Datum

mutual

/-- The value that a datum denotes, with its keys in order. A number that is not finite
denotes null. -/
def toValue : Datum → Except Cause Value
  | null => .ok .null
  | boolean flag => .ok (.bool flag)
  | integer value =>
      match Number.ofInt? value with
      | some number => .ok (.number number)
      | none => .error .numberOutOfRange
  | float (some number) => .ok (.number (.float number))
  | float none => .ok .null
  | text content => .ok (.string content)
  | list items => (itemValues items).map Value.array
  | map bindings => (memberValues bindings).map fun members => .ofObject (.ofList members)

def itemValues : List Datum → Except Cause (List Value)
  | [] => .ok []
  | head :: tail => do
      let value ← head.toValue
      return value :: (← itemValues tail)

def memberValues : List (KeyDatum × Datum) → Except Cause (List (String × Value))
  | [] => .ok []
  | (key, head) :: tail =>
      match key.text? with
      | none => .error .keyNotString
      | some name => do
          let value ← head.toValue
          return (name, value) :: (← memberValues tail)

end

mutual

def ofValue : Value → Datum
  | .null => null
  | .bool flag => boolean flag
  | .number (.integer value _) => integer value
  | .number (.float number) => float (some number)
  | .string content => text content
  | .array items => list (ofItems items)
  | .object members => map (ofMembers members)

def ofItems : List Value → List Datum
  | [] => []
  | head :: tail => ofValue head :: ofItems tail

def ofMembers : List (String × Value) → List (KeyDatum × Datum)
  | [] => []
  | (key, head) :: tail => (.text key, ofValue head) :: ofMembers tail

end

mutual

theorem to_value_of_value (value : Value) : (ofValue value).toValue = .ok value.canonical := by
  match value with
  | .null | .bool _ | .string _ | .number (.float _) =>
      simp [ofValue, toValue, Value.canonical]
  | .number (.integer content inRange) =>
      simp [ofValue, toValue, Value.canonical, Number.ofInt?, inRange]
  | .array items =>
      simp [ofValue, toValue, Value.canonical, item_values_of_items items, Except.map]
  | .object members =>
      simp [ofValue, toValue, Value.canonical, member_values_of_members members, Except.map]

theorem item_values_of_items (items : List Value) :
    itemValues (ofItems items) = .ok (Value.canonicalItems items) := by
  match items with
  | [] => simp [ofItems, itemValues, Value.canonicalItems]
  | head :: tail =>
      simp [ofItems, itemValues, Value.canonicalItems, to_value_of_value head,
        item_values_of_items tail, bind, Except.bind, pure, Except.pure]

theorem member_values_of_members (members : List (String × Value)) :
    memberValues (ofMembers members) = .ok (Value.canonicalMembers members) := by
  match members with
  | [] => simp [ofMembers, memberValues, Value.canonicalMembers]
  | (key, head) :: tail =>
      simp [ofMembers, memberValues, Value.canonicalMembers, KeyDatum.text?,
        to_value_of_value head, member_values_of_members tail, bind, Except.bind, pure,
        Except.pure]

end

end Datum

end UnitState
