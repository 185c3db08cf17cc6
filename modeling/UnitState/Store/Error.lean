import UnitState.Files
import UnitState.Json.Fault
import UnitState.Settings
import UnitState.Store.Schema

/-!
# Errors of a store

The causes for which a store refuses an operation, and their wording. Only a conflict
with another writer counts as locked; a conflict that stops the schema from being
brought up to date is an error of the schema.
-/

set_option autoImplicit false

namespace UnitState

inductive StoreError where
  | engine (fault : EngineFault)
  /-- A value could not be written, or a stored text could not be read. -/
  | serialization (fault : Json.Fault)
  | schema (fault : Schema.Fault)
  | file (fault : FileFault)
  /-- A scope was asked for while another one is open. -/
  | scopeActive (revision : Int)
  | notARecord (key : String)
  /-- The shared store was asked for from inside its own use. -/
  | slotInUse
  | closed
  | invalidSetting (setting : InvalidSetting)
  | integrity (reason : String)
deriving DecidableEq

namespace StoreError

def message : StoreError → String
  | engine fault => "sqlite error: " ++ fault.message
  | serialization fault => "serialization error: " ++ fault.message
  | schema fault => "migration error: " ++ fault.message
  | file fault => "io error: " ++ fault.message
  | scopeActive revision =>
      "hook scope already active at revision " ++ String.ofList (Json.integerText revision)
  | notARecord key => "value stored under '" ++ key ++ "' is not an object"
  | slotInUse => "process-wide store is already in use on this thread"
  | closed => "storage is closed"
  | invalidSetting setting => setting.message
  | integrity reason => "integrity error: " ++ reason

def isLocked : StoreError → Bool
  | engine .locked => true
  | _ => false

end StoreError

end UnitState
