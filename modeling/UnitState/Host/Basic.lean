import UnitState.Hook
import UnitState.Store.Request
import UnitState.Timestamp

/-!
# Hosts

A host is what stores live in: files and the databases in them, the environment, a
clock, the stores that are open under names, and a slot for one store that the whole
program shares. While the shared store is in use it goes by a name of its own.
-/

set_option autoImplicit false

namespace UnitState

inductive TimeSource where
  | hostClock
  /-- The wall clock, whose readings are not known and stand as a mark. -/
  | wallClock
deriving DecidableEq

structure OpenStore where
  handle : Handle
  database : Int
  /-- The place of the file beside which the store keeps a log. -/
  logged : Option Files.Place
  /-- The name under which a database in memory is shared. -/
  sharedAs : Option String
  time : TimeSource
deriving DecidableEq

structure Slot where
  held : Bool
  store : Option OpenStore
deriving DecidableEq

namespace Slot

def empty : Slot := ⟨false, none⟩

/-- Whether a store has been opened; a slot in use counts as opened. -/
def isInitialized (slot : Slot) : Bool := slot.held || slot.store.isSome

end Slot

inductive Rejection where
  | noSuchStore
  | storeInUse
  | editRefused
  /-- A part of the request is missing or of the wrong type. -/
  | malformed (part : String)
deriving DecidableEq

namespace Rejection

def message : Rejection → String
  | noSuchStore => "no such store"
  | storeInUse => "store in use"
  | editRefused => "raw write refused"
  | malformed part => part

end Rejection

inductive Failure where
  | store (error : StoreError)
  | missingKey (missing : MissingKey)
  | json (fault : Json.Fault)
  | rejected (rejection : Rejection)
deriving DecidableEq

structure Host where
  program : String
  files : Files
  databases : Table Int DatabaseFile
  /-- What the files of the databases with a log hold themselves. -/
  kept : Table Int DatabaseFile
  environment : Environment
  clock : Timestamp
  stores : Table String OpenStore
  /-- The names of the stores that are inside a scope. -/
  inScope : List String
  slot : Slot

namespace Host

def initial (program : String) (clock : Timestamp) : Host :=
  { program := program
    files := .initial
    databases := ∅
    kept := ∅
    environment := ∅
    clock := clock
    stores := ∅
    inScope := []
    slot := .empty }

/-- The name of the shared store while it is in use. -/
def slotName : String := "kv"

def store? (host : Host) (name : String) : Option OpenStore :=
  if name = slotName ∧ host.slot.held then host.slot.store else host.stores.get? name

def putStore (host : Host) (name : String) (store : OpenStore) : Host :=
  if name = slotName ∧ host.slot.held then { host with slot.store := some store }
  else { host with stores := host.stores.insert name store }

/-- Whether a store is inside a scope or a use, so that its name cannot be given away. -/
def isInUse (host : Host) (name : String) : Bool :=
  host.inScope.contains name || (decide (name = slotName) && host.slot.held)

def database (host : Host) (number : Int) : DatabaseFile :=
  (host.databases.get? number).getD default

def putDatabase (host : Host) (number : Int) (file : DatabaseFile) : Host :=
  { host with databases := host.databases.insert number file }

def freshNumber (host : Host) : Int := host.databases.size

/-- All stores that have a name or are in the slot, closed ones included. -/
def openStores (host : Host) : List OpenStore :=
  host.stores.entries.map (·.2) ++ host.slot.store.toList

def isConnected (host : Host) (number : Int) : Bool :=
  host.openStores.any fun opened => opened.database == number && !opened.handle.isClosed

def logSuffix : String := "-wal"

def indexSuffix : String := "-shm"

/-- Ends a connection that kept a log beside a file. The last one puts the contents of
the log into the file and removes the log, unless it may only read, or another file
stands at the place by now. -/
def retire (place : Files.Place) (number : Int) (readOnly : Bool) (host : Host) : Host :=
  match host.files.node? place with
  | some (.file _ (.database found)) =>
      if readOnly || host.isConnected number || found != number then host
      else
        { host with
          files := (host.files.discard (Files.beside place logSuffix)).discard
            (Files.beside place indexSuffix)
          kept := host.kept.insert number (host.database number) }
  | _ => host

def retireStore (opened : OpenStore) (host : Host) : Host :=
  match opened.logged with
  | some place => host.retire place opened.database opened.handle.readOnly
  | none => host

def act {Result : Type} (action : Action Result) (opened : OpenStore) (host : Host) :
    Except StoreError Result × OpenStore × Host :=
  let (result, store) := action ⟨opened.handle, host.database opened.database⟩
  (result, { opened with handle := store.handle }, host.putDatabase opened.database store.file)

abbrev Work (Result : Type) : Type := Attempt Host Failure Result

def on {Result : Type} (name : String) (action : Action Result) : Work Result := fun host =>
  match host.store? name with
  | none => (.error (.rejected .noSuchStore), host)
  | some opened =>
      let (result, later, host) := act action opened host
      let host := host.putStore name later
      let host :=
        if later.handle.isClosed && !opened.handle.isClosed then host.retireStore later
        else host
      (result.mapError .store, host)

def revisionOf? (host : Host) (name : String) : Option (Option Int) :=
  (host.store? name).map fun opened => opened.handle.revision

def wallClockMark : String := "<now>"

def hookRow (host : Host) (store name : String) : HookRow :=
  let time := ((host.store? store).map fun opened => opened.time).getD .hostClock
  .opening host.program name
    (match time with
      | .hostClock => host.clock.text
      | .wallClock => wallClockMark)

end Host

end UnitState
