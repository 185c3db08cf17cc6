import UnitState.Address
import UnitState.Host.Basic

/-!
# Connections

How the engine finds the database of a path and makes itself at home there. It reads
the path by rules of its own, under which some paths name no file but a database in
memory. A file is looked at first when the connection is used first: what an earlier
connection left beside it is settled then, and whatever is no database is refused. A
database that stores work on keeps a log beside its file as long as some store is
connected to it; a new one gets a journal while it is created.
-/

set_option autoImplicit false

namespace UnitState

namespace Files

/-- The most bytes of a whole path beside which there is room for the longest suffix. -/
def longestEnginePath : Nat := 504

/-- The place that names lead to, where a name before `..` counts for nothing, even if
nothing of that name exists. A name that cannot be looked at leads nowhere. -/
def enginePlace? (files : Files) (place : Place) : List String → Option Place
  | [] => some place
  | name :: later =>
      if name = "." then files.enginePlace? place later
      else if name = ".." then files.enginePlace? place.dropLast later
      else
        match files.walk [] (place ++ [name]) with
        | .ok _ | .error .notFound => files.enginePlace? (place ++ [name]) later
        | .error _ => none

def engineLocate? (files : Files) (path : String) : Option Place := do
  let place ← files.enginePlace? (start path) (Path.names path)
  let bytes := place.foldl (fun total name => total + 1 + name.utf8ByteSize) 0
  if place.isEmpty ∨ bytes > longestEnginePath ∨ path.toList.contains '\x00' then none
  else some place

end Files

inductive Target where
  /-- A database in memory, which others may share under a name. -/
  | memory (sharedAs : Option String)
  | file (place : Files.Place) (lockless : Bool)
  | frozen (place : Files.Place)
deriving DecidableEq

structure Contact where
  target : Target
  readOnly : Bool
deriving DecidableEq

def Contact.alone (contact : Contact) : Contact :=
  match contact.target with
  | .memory _ => { contact with target := .memory none }
  | .file .. | .frozen _ => contact

inductive Holding where
  | nothing
  | database (number : Int)
  | other
deriving DecidableEq

namespace Host

abbrev EngineWork (Result : Type) : Type := Attempt Host EngineFault Result

def journalSuffix : String := "-journal"

def contactFile (path : String) (address : Address) : EngineWork Contact := fun host =>
  match host.files.engineLocate? address.name with
  | none => (.error (.cannotOpenPath path), host)
  | some place =>
      let contact : Contact :=
        { target := if address.frozen then .frozen place else .file place address.isLockless
          readOnly := address.access = .read }
      match host.files.walk [] place, host.files.node? place with
      | .ok _, some (.file ..) => (.ok contact, host)
      | .ok _, none =>
          if address.access = .create then
            let node : Node := .file Files.ordinary (.bytes [])
            (.ok contact, { host with files := host.files.put place node })
          else (.error (.cannotOpenPath path), host)
      | _, _ => (.error (.cannotOpenPath path), host)

def contact (path : String) : EngineWork Contact := do
  let address ← (Attempt.ofExcept (Address.ofPath path)).mapError EngineFault.address
  if address.isInMemory || address.name.isEmpty then
    return {
      target := .memory (if address.shared && address.isInMemory then some address.name else none)
      readOnly := address.access = .read }
  else contactFile path address

/-- What the file at a place holds. The engine takes a single byte for nothing. -/
def holding (host : Host) (place : Files.Place) : Holding :=
  match host.files.node? place with
  | some (.file _ (.database number)) => .database number
  | some (.file _ (.bytes (_ :: _ :: _))) => .other
  | _ => .nothing

def discardBeside (place : Files.Place) (suffix : String) : EngineWork Unit :=
  Attempt.modify fun host =>
    { host with files := host.files.discard (Files.beside place suffix) }

/-- Sees that a file stands beside another one, with the same permissions. A new one
starts with these bytes. -/
def ensureBeside (place : Files.Place) (suffix : String) (head : List UInt8) :
    EngineWork Unit := fun host =>
  let beside := Files.beside place suffix
  match host.files.node? beside, host.files.node? place with
  | some (.file ..), _ => (.ok (), host)
  | none, some (.file mode _) =>
      if (beside.getLast?.getD "").utf8ByteSize > Files.longestName then
        (.error .cannotOpen, host)
      else
        (.ok (), { host with files := host.files.put beside (.file mode (.bytes head)) })
  | _, _ => (.error .cannotOpen, host)

def logHead : List UInt8 := [0x37, 0x7F, 0x06, 0x82]

def indexHead : List UInt8 := [0x18, 0xE2, 0x2D, 0x00]

def openLog (place : Files.Place) : EngineWork Unit := do
  ensureBeside place logSuffix logHead
  ensureBeside place indexSuffix indexHead

/-- Settles the journal that an earlier connection may have left. A journal beside a
database is rolled back, for which nobody else may be connected. -/
def settleJournal (place : Files.Place) (readOnly : Bool) : EngineWork Unit := fun host =>
  let discarded := discardBeside place journalSuffix host
  match host.files.node? (Files.beside place journalSuffix), host.holding place with
  | none, _ | some (.file _ (.bytes [])), _ | some (.directory _), .nothing => (.ok (), host)
  | some (.file ..), .nothing => if readOnly then (.ok (), host) else discarded
  | some (.directory _), _ => (.error .inputOutput, host)
  | some (.file _ (.bytes (0 :: _))), _ => (.ok (), host)
  | some (.file ..), .other => if readOnly then (.error .readOnly, host) else discarded
  | some (.file ..), .database number =>
      if readOnly then (.error .readOnly, host)
      else if host.isConnected number then (.error .locked, host)
      else discarded

def keepsLog (host : Host) (place : Files.Place) : Bool :=
  host.openStores.any fun opened => opened.logged == some place && !opened.handle.isClosed

/-- Settles the log that stands beside a file. Only a database can have one. -/
def settleLog (place : Files.Place) (lockless : Bool) : EngineWork Unit := fun host =>
  match host.files.node? (Files.beside place logSuffix), host.holding place with
  | none, _ | some (.file _ (.bytes [])), _ => (.ok (), host)
  | some (.directory _), .nothing => (.error .inputOutput, host)
  | some (.file ..), .nothing => discardBeside place logSuffix host
  | some (.directory _), _ => (.error .cannotOpen, host)
  | some (.file ..), found =>
      if lockless then (.error .cannotOpen, host)
      else if found = .other ∧ !host.keepsLog place then discardBeside place logSuffix host
      else (.ok (), host)

def isLogged (host : Host) (number : Int) : Bool := (host.kept.get? number).isSome

/-- Looks at a file for the first time. Gives the database in it, if there is one. -/
def reach (place : Files.Place) (readOnly lockless : Bool) : EngineWork (Option Int) := do
  settleJournal place readOnly
  settleLog place lockless
  match ← Attempt.inspect fun host => .ok (host.holding place) with
  | .nothing => return none
  | .other => Attempt.fail .notDatabase
  | .database number =>
      if ← Attempt.inspect fun host => .ok (host.isLogged number) then
        if lockless then Attempt.fail .cannotOpen
        openLog place
      return some number

/-- Writes a journal beside a file, which is gone again when the change is done. -/
def journalChange (place : Files.Place) : EngineWork Unit := do
  ensureBeside place journalSuffix []
  discardBeside place journalSuffix

def putInFile (place : Files.Place) (number : Int) (database : DatabaseFile) (host : Host) :
    Host :=
  let host := host.putDatabase number database
  match host.files.node? place with
  | some (.file mode _) =>
      { host with files := host.files.put place (.file mode (.database number)) }
  | _ => host

/-- Gives the database of a file a log, creating the database if there is none. -/
def startLog (place : Files.Place) (found : Option Int) (readOnly lockless : Bool) :
    EngineWork Int := fun host =>
  let number := found.getD host.freshNumber
  let database := if found.isSome then host.database number else .fresh
  if lockless then
    (.ok number,
      if readOnly then host.putDatabase number database
      else host.putInFile place number database)
  else if found.any host.isLogged then (.ok number, host)
  else if readOnly then (.error .readOnly, host)
  else
    match journalChange place host with
    | (.error fault, host) => (.error fault, host)
    | (.ok (), host) =>
        (.ok number,
          { host.putInFile place number database with
            kept := host.kept.insert number database })

/-- Whether the file of a path holds a database that is in its log as a whole. What the
file holds does not matter then until the log is put into it. -/
def isWholeInLog (host : Host) (path : String) : Bool :=
  match (host.files.locateForWriting path).toOption.bind host.files.node? with
  | some (.file _ (.database number)) =>
      host.isConnected number && (host.database number).hasTables
        && (host.kept.get? number).any fun kept => !kept.hasTables
  | _ => false

def changeFiles (change : Files.Change) : Attempt Host FileFault Unit := fun host =>
  let (result, files) := change host.files
  (result, { host with files := files })

/-- Writes a file, also over a database, unless it stands in its log. -/
def writeFile (path : String) (bytes : List UInt8) : Attempt Host FileFault Unit :=
  fun host =>
    if host.isWholeInLog path then (.ok (), host)
    else changeFiles (Files.write path bytes) host

/-- What a connection finds that takes its file never to change: what the file itself
holds. -/
def frozenContents (place : Files.Place) (host : Host) : Except EngineFault DatabaseFile :=
  match host.holding place with
  | .nothing => .ok .fresh
  | .other => .error .notDatabase
  | .database number =>
      .ok { (host.kept.get? number).getD (host.database number) with locked := false }

def sharedNumber? (host : Host) (sharedAs : Option String) : Option Int := do
  let name ← sharedAs
  let opened ← host.openStores.find? fun opened =>
    opened.sharedAs == some name && !opened.handle.isClosed
  return opened.database

end Host

end UnitState
