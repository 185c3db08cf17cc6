import UnitState.Attempt
import UnitState.Database
import UnitState.Store.Error

/-!
# Stores

A store is a handle on a database file. Several handles can be open on one file: they
share its committed contents and its one write lock, and nothing else. The handle that
holds the lock works on contents of its own until it commits them or throws them away;
all others go on reading what was committed last.
-/

set_option autoImplicit false

namespace UnitState

/-- What all handles on one database share. -/
structure DatabaseFile where
  contents : Database
  /-- Whether the tables of the schema exist. Without them there are no contents. -/
  hasTables : Bool
  /-- The schema version that is recorded in the file; zero in a new one. -/
  version : Int
  /-- Whether some handle has a transaction open. -/
  locked : Bool
deriving DecidableEq

namespace DatabaseFile

def fresh : DatabaseFile := ⟨.empty, false, 0, false⟩

instance : Inhabited DatabaseFile := ⟨fresh⟩

/-- Brings the schema up to date. Its statements leave existing tables and rows alone,
and the version is recorded only after them, so a refusal to write shows at the first
step that has something to do. -/
def migrate (readOnly : Bool) : Attempt DatabaseFile StoreError Unit := fun file =>
  let step := if file.hasTables then Schema.Step.recordVersion else .createTables
  if file.version = Schema.currentVersion then (.ok (), file)
  else if file.version ≠ 0 then (.error (.schema .tooNew), file)
  else if readOnly then (.error (.schema (.failed step .readOnly)), file)
  else if file.locked then (.error (.schema (.failed step .locked)), file)
  else (.ok (), { file with hasTables := true, version := Schema.currentVersion })

end DatabaseFile

inductive Connection where
  | closed
  /-- No transaction is open: reads see the committed contents, and a write commits. -/
  | idle
  | writing (pending : Database)
deriving DecidableEq

/-- One holder's view of a database file. -/
structure Handle where
  location : Location
  readOnly : Bool
  connection : Connection
  /-- The revision under which writes are recorded. -/
  revision : Option Int
deriving DecidableEq

namespace Handle

def ofLocation (location : Location) (readOnly : Bool) : Handle :=
  ⟨location, readOnly, .idle, none⟩

def isClosed (handle : Handle) : Bool := decide (handle.connection = .closed)

def description (handle : Handle) : String :=
  let revision :=
    match handle.revision with
    | none => "None"
    | some revision => "Some(Revision(" ++ String.ofList (Json.integerText revision) ++ "))"
  "Storage \x7b path: " ++ handle.location.description ++ ", revision: " ++ revision
    ++ ", closed: " ++ (if handle.isClosed then "true" else "false") ++ " \x7d"

end Handle

structure Store where
  handle : Handle
  file : DatabaseFile
deriving DecidableEq

abbrev Action (Result : Type) : Type := Attempt Store StoreError Result

namespace Store

def connect (location : Location) (readOnly : Bool) (file : DatabaseFile) :
    Except StoreError Store :=
  match DatabaseFile.migrate readOnly file with
  | (.ok (), file) => .ok ⟨.ofLocation location readOnly, file⟩
  | (.error error, _) => .error error

def inMemory : Store :=
  ⟨.ofLocation .memory false, ⟨.empty, true, Schema.currentVersion, false⟩⟩

def view (store : Store) (table : String) : Except StoreError Database :=
  match store.handle.connection with
  | .closed => .error .closed
  | .idle =>
      if store.file.hasTables then .ok store.file.contents
      else .error (.engine (.noTable table))
  | .writing pending => .ok pending

/-- Runs one writing statement. Outside a transaction it takes the write lock for
itself and commits. -/
def statement (edit : Database → Except EngineFault Database) : Action Unit := fun store =>
  match store.handle.connection with
  | .closed => (.error .closed, store)
  | .idle =>
      if store.handle.readOnly then (.error (.engine .readOnly), store)
      else if store.file.locked then (.error (.engine .locked), store)
      else
        match edit store.file.contents with
        | .error fault => (.error (.engine fault), store)
        | .ok contents => (.ok (), { store with file.contents := contents })
  | .writing pending =>
      match edit pending with
      | .error fault => (.error (.engine fault), store)
      | .ok contents => (.ok (), { store with handle.connection := .writing contents })

/-- Ends the open transaction, if there is one, and with it the active revision. What
it wrote is committed or thrown away. -/
def flush (save : Bool) : Action Unit := fun store =>
  match store.handle.connection with
  | .closed => (.ok (), store)
  | .idle => (.ok (), { store with handle.revision := none })
  | .writing pending =>
      let handle := { store.handle with connection := .idle, revision := none }
      let contents := if save then pending else store.file.contents
      (.ok (), ⟨handle, { store.file with contents := contents, locked := false }⟩)

def close : Action Unit := do
  flush false
  Attempt.modify fun store => { store with handle.connection := .closed }

end Store

end UnitState
