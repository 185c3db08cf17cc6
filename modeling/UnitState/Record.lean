import UnitState.Delta

/-!
# Records

A read-only view of an object by field name. Asking for a field that is not there is
an error that carries the name, so a misspelt name is not taken for a null.
-/

set_option autoImplicit false

namespace UnitState

open Json

structure Record where
  fields : Object
deriving DecidableEq

namespace Record

def empty : Record := ⟨∅⟩

/-- The view of an object; any other value is handed back. -/
def ofValue (value : Value) : Except Value Record :=
  match value.toObject? with
  | some fields => .ok ⟨fields⟩
  | none => .error value

def toValue (record : Record) : Value := .ofObject record.fields

def get? (record : Record) (name : String) : Option Value := record.fields.get? name

def contains (record : Record) (name : String) : Bool := record.fields.contains name

def field (record : Record) (name : String) : Except MissingKey Value :=
  match record.get? name with
  | some value => .ok value
  | none => .error ⟨name⟩

/-- The view of a field that is an object. A field of another type counts as missing. -/
def inner (record : Record) (name : String) : Except MissingKey Record :=
  match record.get? name with
  | some (.object members) => .ok ⟨.ofList members⟩
  | _ => .error ⟨name⟩

def follow (record : Record) : List String → Except MissingKey Record
  | [] => .ok record
  | name :: names => do (← record.inner name).follow names

def keys (record : Record) : List String := record.fields.keys

def entries (record : Record) : List (String × Value) := record.fields.entries

def size (record : Record) : Nat := record.fields.size

def isEmpty (record : Record) : Bool := record.fields.isEmpty

def equal (left right : Record) : Bool := left.toValue.equal right.toValue

def text (record : Record) : String := record.toValue.compact

def decoder : Decoder Record := fun room => do
  return ⟨.ofList (← Decoder.members Decoder.value room)⟩

end Record

end UnitState
