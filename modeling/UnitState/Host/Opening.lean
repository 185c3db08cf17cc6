import UnitState.Host.Connection
import UnitState.Store.Edit

/-!
# Opening stores

A store on a file prepares the file first: it creates it if need be and leaves it to
its owner only. Then the engine connects to what the path means to it, the database
gets a log, and its schema is brought up to date.
-/

set_option autoImplicit false

namespace UnitState

inductive StoreSource where
  | settings (settings : Settings) (time : TimeSource)
  /-- The settings that an environment asks for; by default the host's. -/
  | environment (environment : Option Environment)

namespace Host

def greatestBusyMilliseconds : Nat := 2147483647

abbrev OpeningWork (Result : Type) : Type := Attempt Host StoreError Result

/-- What the holder of a store is told of its opening: the store, and whether its schema
had to be brought up to date. -/
abbrev Opened : Type := OpenStore × Bool

def connect (location : Location) (time : TimeSource) (readOnly : Bool) (number : Int) :
    OpeningWork Opened := fun host =>
  let file := host.database number
  match Store.connect location readOnly file with
  | .error error => (.error error, host)
  | .ok store =>
      (.ok (⟨store.handle, number, none, none, time⟩,
          decide (file.version ≠ store.file.version)),
        host.putDatabase number store.file)

def connectMemory (location : Location) (time : TimeSource) (readOnly : Bool)
    (contents : DatabaseFile) : OpeningWork Opened := fun host =>
  let number := host.freshNumber
  connect location time readOnly number (host.putDatabase number contents)

/-- A handle on the database in a file. If its schema cannot be brought up to date, the
connection ends. -/
def connectFile (location : Location) (time : TimeSource) (place : Files.Place)
    (readOnly lockless : Bool) : OpeningWork Opened := do
  let found ← (reach place readOnly lockless).mapError StoreError.engine
  let number ← (startLog place found readOnly lockless).mapError StoreError.engine
  if lockless then connect location time readOnly number
  else
    (openLog place).mapError fun fault => StoreError.schema (.failed .readVersion fault)
    fun host =>
      match connect location time readOnly number host with
      | (.ok (opened, changed), host) =>
          (.ok ({ opened with logged := some place }, changed), host)
      | (.error error, host) => (.error error, host.retire place number readOnly)

def connectTo (location : Location) (time : TimeSource) (contact : Contact) :
    OpeningWork Opened :=
  match contact.target with
  | .memory sharedAs => do
      let shared ← Attempt.inspect fun host => .ok (host.sharedNumber? sharedAs)
      let (opened, changed) ←
        match shared with
        | some number => connect location time contact.readOnly number
        | none => connectMemory location time contact.readOnly .fresh
      return ({ opened with sharedAs := sharedAs }, changed)
  | .file place lockless => connectFile location time place contact.readOnly lockless
  | .frozen place => do
      let contents ← Attempt.inspect fun host =>
        (host.frozenContents place).mapError StoreError.engine
      connectMemory location time true contents

/-- Opens a store, for a program that may share databases in memory with the open stores
or not. A waiting time that the engine does not take is a crash. -/
def openWith (settings : Settings) (time : TimeSource) (sharing : Bool) :
    Body Host StoreError Opened := fun host =>
  match settings.location with
  | .memory =>
      let (result, host) := connectMemory .memory time false .fresh host
      (.ofExcept result, host)
  | .file path =>
      match host.files.prepare path with
      | .error fault => (.failed (.file fault), host)
      | .ok files =>
          match contact path { host with files := files } with
          | (.error fault, host) => (.failed (.engine fault), host)
          | (.ok contact, host) =>
              if settings.busyMilliseconds > greatestBusyMilliseconds then (.crashed, host)
              else
                let contact := if sharing then contact else contact.alone
                let (result, host) := connectTo settings.location time contact host
                (.ofExcept result, host)

def settingsOf (host : Host) : StoreSource → Except StoreError (Settings × TimeSource)
  | .settings settings time => .ok (settings, time)
  | .environment environment =>
      match Settings.resolve (environment.getD host.environment) with
      | .ok settings => .ok (settings, .wallClock)
      | .error setting => .error (.invalidSetting setting)

def openFrom (source : StoreSource) : Body Host StoreError Opened := fun host =>
  match host.settingsOf source with
  | .error error => (.failed error, host)
  | .ok (settings, time) => openWith settings time true host

/-- Gives a store up that is nowhere else any more; what it did not commit is lost. -/
def release (opened : OpenStore) (host : Host) : Host :=
  if opened.handle.isClosed then host
  else
    let (_, closed, host) := act Store.close opened host
    host.retireStore closed

def releaseName (host : Host) (name : String) : Host :=
  match host.stores.get? name with
  | none => host
  | some opened => release opened { host with stores := host.stores.erase name }

/-- Edits the database in a file from outside. A new database has no tables yet, so only
its schema version can be edited. -/
def editFile (place : Files.Place) (readOnly lockless : Bool) (edit : Edit) :
    EngineWork Nat := do
  let found ← reach place readOnly lockless
  fun host =>
    let number := found.getD host.freshNumber
    let database := if found.isSome then host.database number else .fresh
    let retired (host : Host) : Host :=
      if host.isLogged number then host.retire place number readOnly else host
    match if readOnly then none else database.edit edit with
    | none => (.error .readOnly, retired host)
    | some database =>
        if host.isLogged number then
          (.ok edit.rows, retired (host.putDatabase number database))
        else
          match journalChange place host with
          | (.error fault, host) => (.error fault, host)
          | (.ok (), host) => (.ok edit.rows, host.putInFile place number database)

def editMemory (sharedAs : Option String) (readOnly : Bool) (edit : Edit) :
    EngineWork Nat := fun host =>
  let shared := host.sharedNumber? sharedAs
  let database := (shared.map host.database).getD .fresh
  match if readOnly then none else database.edit edit with
  | none => (.error .readOnly, host)
  | some database =>
      (.ok edit.rows,
        match shared with
        | some number => host.putDatabase number database
        | none => host)

def edit (path : String) (edit : Edit) : Work Nat :=
  Attempt.mapError (fun _ => .rejected .editRefused) do
    let contact ← contact path
    match contact.target with
    | .memory sharedAs => editMemory sharedAs contact.readOnly edit
    | .file place lockless => editFile place contact.readOnly lockless edit
    | .frozen _ => Attempt.fail .readOnly

end Host

end UnitState
