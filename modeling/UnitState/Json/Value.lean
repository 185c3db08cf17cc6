import UnitState.Decimal.Binary64
import UnitState.Table

/-!
# JSON values

A JSON document as a tree. Integers of the signed and unsigned 64-bit ranges are kept
exactly and apart from binary64 numbers, so `1` and `1.0` are different values. The
members of an object stand in the order in which they are written. A value is
canonical when the keys of every object in it strictly increase; two canonical
values are equal exactly when they denote the same document.
-/

set_option autoImplicit false

namespace UnitState.Json

open UnitState.Decimal

def InIntegerRange (value : Int) : Prop :=
  -9223372036854775808 ≤ value ∧ value < 18446744073709551616

instance (value : Int) : Decidable (InIntegerRange value) :=
  inferInstanceAs (Decidable (_ ∧ _))

inductive Number where
  | integer (value : Int) (inRange : InIntegerRange value)
  | float (value : Binary64)
deriving DecidableEq

namespace Number

def isFloat : Number → Bool
  | integer .. => false
  | float _ => true

/-- The number as a float, an integer being rounded to the nearest one. Every integer
in range has a finite neighbour. -/
def toFloat : Number → Binary64
  | integer value _ => (Binary64.ofInt? value).getD default
  | float value => value

def ofInt? (value : Int) : Option Number :=
  if inRange : InIntegerRange value then some (integer value inRange) else none

end Number

inductive Value where
  | null
  | bool (flag : Bool)
  | number (number : Number)
  | string (text : String)
  | array (items : List Value)
  | object (members : List (String × Value))

instance : Inhabited Value := ⟨.null⟩

abbrev Object := Table String Value

namespace Number

/-- Equality of numbers of one kind: an integer never equals a float, but the two
zeros of the floats are equal. -/
def equal : Number → Number → Bool
  | integer left _, integer right _ => left == right
  | float left, float right => left.sameValue right
  | _, _ => false

end Number

namespace Value

mutual

/-- Whether two values agree in everything but their numbers, which have to pass a
test. Members are compared in the order in which they stand. -/
def agree (numbers : Number → Number → Bool) : Value → Value → Bool
  | null, null => true
  | bool left, bool right => left == right
  | number left, number right => numbers left right
  | string left, string right => left == right
  | array left, array right => agreeItems numbers left right
  | object left, object right => agreeMembers numbers left right
  | _, _ => false

def agreeItems (numbers : Number → Number → Bool) : List Value → List Value → Bool
  | [], [] => true
  | left :: leftRest, right :: rightRest =>
      left.agree numbers right && agreeItems numbers leftRest rightRest
  | _, _ => false

def agreeMembers (numbers : Number → Number → Bool) :
    List (String × Value) → List (String × Value) → Bool
  | [], [] => true
  | (leftKey, left) :: leftRest, (rightKey, right) :: rightRest =>
      leftKey == rightKey && left.agree numbers right
        && agreeMembers numbers leftRest rightRest
  | _, _ => false

end

mutual

theorem agree_same_iff (left right : Value) :
    left.agree (· == ·) right = true ↔ left = right := by
  cases left <;> cases right <;> simp [agree]
  · exact agree_items_same_iff _ _
  · exact agree_members_same_iff _ _

theorem agree_items_same_iff (left right : List Value) :
    agreeItems (· == ·) left right = true ↔ left = right := by
  cases left with
  | nil => cases right <;> simp [agreeItems]
  | cons head tail =>
      cases right with
      | nil => simp [agreeItems]
      | cons other rest =>
          simp [agreeItems, agree_same_iff head other, agree_items_same_iff tail rest]

theorem agree_members_same_iff (left right : List (String × Value)) :
    agreeMembers (· == ·) left right = true ↔ left = right := by
  cases left with
  | nil => cases right <;> simp [agreeMembers]
  | cons head tail =>
      obtain ⟨key, value⟩ := head
      cases right with
      | nil => simp [agreeMembers]
      | cons other rest =>
          obtain ⟨otherKey, otherValue⟩ := other
          simp [agreeMembers, agree_same_iff value otherValue, agree_members_same_iff tail rest]

end

instance : DecidableEq Value := fun left right =>
  decidable_of_iff (left.agree (· == ·) right = true) (agree_same_iff left right)

/-- Equality of values of one type, under which `1` and `1.0` differ and `0.0` and
`-0.0` do not. -/
def equal (left right : Value) : Bool := left.agree Number.equal right

mutual

def depth : Value → Nat
  | array items => depthItems items + 1
  | object members => depthMembers members + 1
  | _ => 0

def depthItems : List Value → Nat
  | [] => 0
  | head :: tail => max head.depth (depthItems tail)

def depthMembers : List (String × Value) → Nat
  | [] => 0
  | (_, head) :: tail => max head.depth (depthMembers tail)

end

def Increasing (members : List (String × Value)) : Prop :=
  members.Pairwise fun left right => KeyOrder.before left.1 right.1 = true

mutual

def Canonical : Value → Prop
  | array items => CanonicalItems items
  | object members => Increasing members ∧ CanonicalMembers members
  | _ => True

def CanonicalItems : List Value → Prop
  | [] => True
  | head :: tail => head.Canonical ∧ CanonicalItems tail

def CanonicalMembers : List (String × Value) → Prop
  | [] => True
  | (_, head) :: tail => head.Canonical ∧ CanonicalMembers tail

end

def ofObject (members : Object) : Value := object members.entries

def toObject? : Value → Option Object
  | object members => some (.ofList members)
  | _ => none

/-- The number of an integer; one beyond the 64-bit ranges becomes a float. -/
def ofInt (value : Int) : Value :=
  match Number.ofInt? value with
  | some integer => .number integer
  | none => .number (.float ((Binary64.ofInt? value).getD default))

end Value

end UnitState.Json
