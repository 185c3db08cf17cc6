import UnitState.Decimal.Literal
import UnitState.Environment
import UnitState.Path
import UnitState.Text.Blank
import UnitState.Text.Quoted

/-!
# Settings of a store

Where a store keeps its data, and how long a write waits for another writer. By
default the location follows the environment: an explicit path first, then a test
mode that keeps everything in memory, then the directory of a deployed charm, and
memory if nothing else is said.
-/

set_option autoImplicit false

namespace UnitState

inductive Location where
  | file (path : String)
  | memory
deriving DecidableEq

namespace Location

def memoryPath : String := ":memory:"

def ofPath (path : String) : Location :=
  if path = memoryPath then memory else file path

def isMemory : Location → Bool
  | memory => true
  | file _ => false

def file? : Location → Option String
  | file path => some path
  | memory => none

def path : Location → String
  | file path => path
  | memory => memoryPath

def same : Location → Location → Bool
  | file left, file right => Path.same left right
  | memory, memory => true
  | _, _ => false

def description : Location → String
  | file path => "File(" ++ Text.quoted path ++ ")"
  | memory => "Memory"

end Location

structure InvalidSetting where
  name : String
  value : String
deriving DecidableEq

namespace InvalidSetting

def message (setting : InvalidSetting) : String :=
  "invalid value for " ++ setting.name ++ ": '" ++ setting.value ++ "'"

end InvalidSetting

structure Settings where
  location : Location
  busyMilliseconds : Nat
deriving DecidableEq

namespace Settings

def databaseVariable : String := "UNIT_STATE_DB"
def busyVariable : String := "UNIT_STATE_DB_BUSY_TIMEOUT_MS"
def testModeVariable : String := "CHARM_HELPERS_TESTMODE"
def charmDirectoryVariable : String := "CHARM_DIR"
def unitNameVariable : String := "JUJU_UNIT_NAME"

def databaseName : String := ".unit-state.db"

def defaultBusyMilliseconds : Nat := 5000

def ofFile (path : String) : Settings := ⟨.file path, defaultBusyMilliseconds⟩

def inMemory : Settings := ⟨.memory, defaultBusyMilliseconds⟩

def isTruthy (value : String) : Bool :=
  let word := (Text.trimBlank value.toList).map Char.toLower
  [ "1", "true", "yes", "on" ].any fun yes => yes.toList == word

def locationFor (environment : Environment) : Location :=
  match environment.get? databaseVariable with
  | some path => .ofPath path
  | none =>
      if (environment.get? testModeVariable).any isTruthy then .memory
      else if environment.isSet charmDirectoryVariable || environment.isSet unitNameVariable then
        .file (Path.join ((environment.get? charmDirectoryVariable).getD "") databaseName)
      else .memory

/-- Milliseconds below `2 ^ 64`, written in digits with an optional plus sign. -/
def milliseconds? (text : String) : Option Nat :=
  (Decimal.unsigned? text.toList).filter (· < 18446744073709551616)

def busyFor (environment : Environment) : Except InvalidSetting Nat :=
  match environment.get? busyVariable with
  | none => .ok defaultBusyMilliseconds
  | some text =>
      match milliseconds? text with
      | some milliseconds => .ok milliseconds
      | none => .error ⟨busyVariable, text⟩

def resolve (environment : Environment) : Except InvalidSetting Settings :=
  (busyFor environment).map fun milliseconds => ⟨locationFor environment, milliseconds⟩

end Settings

end UnitState
