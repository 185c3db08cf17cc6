import UnitState.CommandLine.Call
import UnitState.Host.Opening

/-!
# Running a call

What each command does to a store and what the program leaves behind: its exit code,
its output, and an error message. A value that cannot be read ends with code 1, an error
of the store with 2, and a store that cannot be opened with 3.
-/

set_option autoImplicit false

namespace UnitState

open Json

structure ProgramEnd where
  exit : Nat
  output : String
  message : Option String
  /-- Whether a log line about the schema stands before the message. -/
  logged : Bool
deriving DecidableEq

namespace ProgramEnd

def silent (exit : Nat) : ProgramEnd := ⟨exit, "", none, false⟩

def printed (output : String) : ProgramEnd := ⟨0, output, none, false⟩

def complaint (exit : Nat) (message : String) : ProgramEnd :=
  ⟨exit, "", some ("Error: " ++ message ++ "\n"), false⟩

def unopened (error : StoreError) : ProgramEnd :=
  complaint 3 ("failed to open unit state: " ++ error.message)

def errorOutput? (ended : ProgramEnd) : Option String :=
  if ended.logged then none else ended.message

end ProgramEnd

namespace Command

def line (value : Value) : ProgramEnd := .printed (value.canonical.compact ++ "\n")

/-- A store error; a conflict with another writer is told apart. -/
def refused (error : StoreError) : ProgramEnd :=
  .complaint 2
    (if error.isLocked then "unit state is locked by another process: " ++ error.message
      else error.message)

def ofResult {Result : Type} (print : Result → ProgramEnd) :
    Except StoreError Result → ProgramEnd
  | .ok result => print result
  | .error error => refused error

/-- The value of a command's text: a document on demand, else the text itself. -/
def valueOf (text : String) (json : Bool) : Except Fault Value :=
  if json then Value.parse text else .ok (.string text)

def run : Command → Store → ProgramEnd × Store
  | get key, store =>
      (ofResult (fun value => line (value.getD .null)) (store.get key), store)
  | getRange stem strip, store =>
      (ofResult (fun range => line (range.elim .null Value.ofObject))
        (store.getRange stem strip), store)
  | set key text json, store =>
      match valueOf text json with
      | .error fault =>
          (.complaint 1 ("invalid JSON value '" ++ text ++ "': " ++ fault.message), store)
      | .ok value =>
          let (result, store) := (do Store.set key value; Store.flush true : Action Unit) store
          (ofResult (fun _ => .silent 0) result, store)
  | unset key, store =>
      let (result, store) :=
        (do let _ ← Store.unset key; Store.flush true : Action Unit) store
      (ofResult (fun _ => .silent 0) result, store)
  | history key deserialize, store =>
      (ofResult (fun entries => line (.array (entries.map HistoryEntry.toValue)))
        (store.getHistory key deserialize), store)
  | debug, store => (ofResult (fun dump => .printed dump.text) store.dump, store)

end Command

namespace Host

/-- The store of a call: the location may come from the call, all else is settled by
the environment. -/
def openFor (database : Option String) : Body Host StoreError Opened := fun host =>
  match Settings.resolve host.environment with
  | .error setting => (.failed (.invalidSetting setting), host)
  | .ok settings =>
      let settings :=
        match database with
        | some path => { settings with location := .file path }
        | none => settings
      openWith settings .wallClock false host

def runCall (words : List String) (host : Host) : ProgramEnd × Host :=
  match Call.ofWords words with
  | .error .help => (.silent 0, host)
  | .error .misuse => (.silent 2, host)
  | .ok call =>
      match openFor call.database host with
      | (.crashed, host) => (.silent 101, host)
      | (.failed error, host) => (.unopened error, host)
      | (.returned (opened, logged), host) =>
          let (ended, store) := call.command.run ⟨opened.handle, host.database opened.database⟩
          let host := host.putDatabase opened.database store.file
          ({ ended with logged := logged },
            release { opened with handle := store.handle } host)

end Host

end UnitState
