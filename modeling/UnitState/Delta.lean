import UnitState.Json.Decoder

/-!
# Deltas

What changed between two objects, key by key. Numbers are compared by value, so `1`
and `1.0` are no change; two integers are compared exactly, and an integer is rounded
to a float when the other side is a float. A missing side and a stored null are
different. A delta set keeps its keys in the order in which they came.
-/

set_option autoImplicit false

namespace UnitState

open Json

/-- Equality by value: exact among integers, after rounding if one side is a float. -/
def Json.Number.alike (left right : Number) : Bool :=
  if left.isFloat || right.isFloat then left.toFloat.sameValue right.toFloat
  else left.equal right

namespace Json.Value

mutual

def alike : Value → Value → Bool
  | number left, number right => left.alike right
  | array left, array right => left.length == right.length && alikeItems left right
  | object left, object right => left.length == right.length && alikeMembers left right
  | left, right => left.equal right

def alikeItems : List Value → List Value → Bool
  | left :: leftRest, right :: rightRest => left.alike right && alikeItems leftRest rightRest
  | _, _ => true

def alikeMembers : List (String × Value) → List (String × Value) → Bool
  | [], _ => true
  | (key, left) :: rest, right =>
      (match Table.find key right with
        | some other => left.alike other
        | none => false)
        && alikeMembers rest right

end

end Json.Value

/-- How the value of one key changed. A side is `none` if the key was absent there. -/
structure Delta where
  previous : Option Value
  current : Option Value
deriving DecidableEq

structure MissingKey where
  key : String
deriving DecidableEq

def MissingKey.message (missing : MissingKey) : String :=
  "missing key: '" ++ missing.key ++ "'"

namespace Delta

def isAdded (delta : Delta) : Bool := delta.previous.isNone && delta.current.isSome

def isRemoved (delta : Delta) : Bool := delta.previous.isSome && delta.current.isNone

def isChanged (delta : Delta) : Bool :=
  match delta.previous, delta.current with
  | some previous, some current => !previous.alike current
  | _, _ => false

def equalSides : Option Value → Option Value → Bool
  | none, none => true
  | some left, some right => left.equal right
  | _, _ => false

def equal (left right : Delta) : Bool :=
  equalSides left.previous right.previous && equalSides left.current right.current

def swap (delta : Delta) : Delta := ⟨delta.current, delta.previous⟩

/-- An absent side is written as null, as is a stored null. -/
def toValue (delta : Delta) : Value :=
  .object [("previous", delta.previous.getD .null), ("current", delta.current.getD .null)]

structure Partial where
  previous : Option (Option Value) := none
  current : Option (Option Value) := none

/-- A side that is null or missing is absent. -/
def decoder : Decoder Delta :=
  Decoder.record "struct Delta"
    [ Decoder.slot "previous" Partial.previous (fun sides side =>
        { sides with previous := some side }) (Decoder.optional Decoder.value),
      Decoder.slot "current" Partial.current (fun sides side =>
        { sides with current := some side }) (Decoder.optional Decoder.value) ]
    {} fun sides => .ok ⟨sides.previous.join, sides.current.join⟩

end Delta

structure DeltaSet where
  entries : List (String × Delta)
  distinct : (entries.map (·.1)).Nodup
deriving DecidableEq

namespace DeltaSet

def empty : DeltaSet := ⟨[], .nil⟩

instance : EmptyCollection DeltaSet := ⟨empty⟩

def put (key : String) (delta : Delta) : List (String × Delta) → List (String × Delta)
  | [] => [(key, delta)]
  | head :: tail =>
      if head.1 = key then (key, delta) :: tail else head :: put key delta tail

theorem keys_put (key : String) (delta : Delta) (entries : List (String × Delta)) :
    (put key delta entries).map (·.1) =
      if key ∈ entries.map (·.1) then entries.map (·.1) else entries.map (·.1) ++ [key] := by
  induction entries with
  | nil => simp [put]
  | cons head tail hypothesis =>
      simp only [put]
      split
      · rename_i same
        simp [same]
      · rename_i different
        simp only [List.map_cons, hypothesis, List.mem_cons, Ne.symm different, false_or]
        split <;> simp

theorem put_distinct (key : String) (delta : Delta) {entries : List (String × Delta)}
    (distinct : (entries.map (·.1)).Nodup) :
    ((put key delta entries).map (·.1)).Nodup := by
  rw [keys_put]
  split
  · exact distinct
  · rename_i fresh
    refine List.nodup_append.2 ⟨distinct, by simp, ?_⟩
    intro left leftMember right rightMember
    rw [List.mem_singleton] at rightMember
    exact fun same => fresh (rightMember ▸ same ▸ leftMember)

def insert (set : DeltaSet) (key : String) (delta : Delta) : DeltaSet :=
  ⟨put key delta set.entries, put_distinct key delta set.distinct⟩

def ofList (entries : List (String × Delta)) : DeltaSet :=
  entries.foldl (fun set entry => set.insert entry.1 entry.2) empty

def ofTable (deltas : Table String Delta) : DeltaSet :=
  ⟨deltas.entries, by
    refine List.pairwise_map.2 (deltas.increasing.imp fun {left right} order same => ?_)
    rw [same, KeyOrder.irreflexive] at order
    cases order⟩

def get? (set : DeltaSet) (key : String) : Option Delta :=
  (set.entries.find? fun entry => entry.1 == key).map (·.2)

def contains (set : DeltaSet) (key : String) : Bool := (set.get? key).isSome

def field (set : DeltaSet) (key : String) : Except MissingKey Delta :=
  match set.get? key with
  | some delta => .ok delta
  | none => .error ⟨key⟩

def keys (set : DeltaSet) : List String := set.entries.map (·.1)

def size (set : DeltaSet) : Nat := set.entries.length

def isEmpty (set : DeltaSet) : Bool := set.entries.isEmpty

def keysWhere (set : DeltaSet) (test : Delta → Bool) : List String :=
  (set.entries.filter fun entry => test entry.2).map (·.1)

def added (set : DeltaSet) : List String := set.keysWhere Delta.isAdded

def removed (set : DeltaSet) : List String := set.keysWhere Delta.isRemoved

def changed (set : DeltaSet) : List String := set.keysWhere Delta.isChanged

/-- The same keys with equal deltas, in any order. -/
def equal (left right : DeltaSet) : Bool :=
  left.size == right.size
    && left.entries.all fun entry =>
      match right.get? entry.1 with
      | some other => entry.2.equal other
      | none => false

def toValue (set : DeltaSet) : Value :=
  .object (set.entries.map fun entry => (entry.1, entry.2.toValue))

def text (set : DeltaSet) : String := set.toValue.compact

def decoder : Decoder DeltaSet := fun room => do
  return ofList (← Decoder.members Delta.decoder room)

end DeltaSet

/-- The delta of one key; `none` if it has like values on both sides or no value. -/
def changeOf (previous current : Object) (key : String) : Option Delta :=
  match previous.get? key, current.get? key with
  | none, none => none
  | some before, some after =>
      if before.alike after then none else some ⟨some before, some after⟩
  | before, after => some ⟨before, after⟩

/-- Everything that changed between two objects, in the order of the keys. -/
def computeDelta (previous current : Object) : DeltaSet :=
  let either := (previous.map fun _ _ => ()).override (current.map fun _ _ => ())
  .ofTable (either.filterMap fun key _ => changeOf previous current key)

end UnitState
