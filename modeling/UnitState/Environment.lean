import UnitState.Table

/-!
# Environments

The variables that a program was started with. A variable with an empty value counts
as unset when it is asked for by name, but is listed with the others.
-/

set_option autoImplicit false

namespace UnitState

structure Environment where
  bindings : Table String String
deriving DecidableEq

namespace Environment

def empty : Environment := ⟨∅⟩

instance : EmptyCollection Environment := ⟨empty⟩

def ofList (bindings : List (String × String)) : Environment := ⟨.ofList bindings⟩

def get? (environment : Environment) (name : String) : Option String :=
  (environment.bindings.get? name).filter fun value => !value.isEmpty

def isSet (environment : Environment) (name : String) : Bool := (environment.get? name).isSome

/-- The variables whose names start with a stem, also those with empty values. -/
def withStem (environment : Environment) (stem : String) : Table String String :=
  environment.bindings.filter fun name _ => stem.toList.isPrefixOf name.toList

def change (environment : Environment) (name : String) : Option String → Environment
  | some value => ⟨environment.bindings.insert name value⟩
  | none => ⟨environment.bindings.erase name⟩

end Environment

end UnitState
