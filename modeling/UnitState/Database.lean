import UnitState.EngineFault
import UnitState.Table

/-!
# Contents of a database

The live texts by key, one row per hook that ever opened a revision, and what every
revision recorded: for each key that it wrote, the text, or nothing for a removed key.
Revision numbers go up from the greatest one that was ever in use, also by a hook that
was recorded from outside. A history row is accepted only for a revision with a hook.
-/

set_option autoImplicit false

namespace UnitState

structure HookRow where
  hook : String
  date : String
deriving DecidableEq

structure Database where
  live : Table String String
  hooks : Table Int HookRow
  history : Table (Int × String) (Option String)
  /-- The greatest revision number that was ever in use, and at least zero. -/
  sequence : Int
deriving DecidableEq

namespace Database

def lastRevision : Int := 9223372036854775807

def empty : Database := ⟨∅, ∅, ∅, 0⟩

instance : Inhabited Database := ⟨empty⟩

/-- Adds the hook of a new revision, with the number after the greatest one in use. -/
def openRevision (database : Database) (row : HookRow) : Except EngineFault (Int × Database) :=
  let revision := database.sequence + 1
  if database.sequence < lastRevision then
    .ok (revision,
      { database with hooks := database.hooks.insert revision row, sequence := revision })
  else .error .full

def setLive (database : Database) (key text : String) : Database :=
  { database with live := database.live.insert key text }

def eraseLive (database : Database) (key : String) : Database :=
  { database with live := database.live.erase key }

def record (database : Database) (revision : Int) (key : String) (data : Option String) :
    Except EngineFault Database :=
  if database.hooks.contains revision then
    .ok { database with history := database.history.insert (revision, key) data }
  else .error .unknownRevision

/-- Adds the hook of a revision of any number; none if the number is taken. -/
def addHook (database : Database) (revision : Int) (row : HookRow) : Option Database :=
  if database.hooks.contains revision then none
  else some
    { database with
      hooks := database.hooks.insert revision row
      sequence := max database.sequence revision }

/-- Whether a key starts with a stem. A key is looked at up to its first NUL only, so
no key starts with a stem that contains one. -/
def startsWith (stem key : String) : Bool :=
  (key.toList.takeWhile (· != '\x00')).take stem.toList.length == stem.toList

def range (database : Database) (stem : String) : List (String × String) :=
  database.live.entries.filter fun binding => startsWith stem binding.1

/-- The history rows of a key by increasing revision, each with its hook. -/
def historyOf (database : Database) (key : String) : List (Int × Option String × HookRow) :=
  database.history.entries.filterMap fun entry =>
    if entry.1.2 = key then
      (database.hooks.get? entry.1.1).map fun row => (entry.1.1, entry.2, row)
    else none

end Database

end UnitState
