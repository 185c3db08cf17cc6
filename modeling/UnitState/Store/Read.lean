import UnitState.History
import UnitState.Json.Canonical
import UnitState.Store.Basic

/-!
# Reading a store

Every read sees the contents of the holder's own transaction, or the committed ones if
none is open. A stored text is decoded when it is asked for, so a text that is no
document fails the reads that decode it and no others.
-/

set_option autoImplicit false

namespace UnitState.Store

open Json

def decode {Result : Type} (read : String → Except Fault Result) (text : String) :
    Except StoreError Result :=
  (read text).mapError .serialization

def getRaw (store : Store) (key : String) : Except StoreError (Option String) := do
  return (← store.view Schema.liveTable).live.get? key

def getWith {Result : Type} (read : String → Except Fault Result) (store : Store)
    (key : String) : Except StoreError (Option Result) := do
  match ← store.getRaw key with
  | some text => return some (← decode read text)
  | none => return none

def get (store : Store) (key : String) : Except StoreError (Option Value) :=
  store.getWith Value.parse key

def getOr (store : Store) (key : String) (default : Value) : Except StoreError Value := do
  return (← store.get key).getD default

def getAs (store : Store) (key : String) (shape : Shape) :
    Except StoreError (Option Value) :=
  store.getWith shape.read key

def getRecord (store : Store) (key : String) : Except StoreError (Option Record) := do
  match ← store.get key with
  | none => return none
  | some value =>
      match Record.ofValue value with
      | .ok record => return some record
      | .error _ => throw (.notARecord key)

/-- Decodes the texts of rows, up to the first that is no document. -/
def decodeRows : List (String × String) → Except StoreError (List (String × Value))
  | [] => .ok []
  | (key, text) :: later => do
      let value ← decode Value.parse text
      return (key, value) :: (← decodeRows later)

def stripStem (stem key : String) : String :=
  String.ofList (key.toList.drop stem.toList.length)

/-- The values whose keys start with a stem, or nothing if there are none. -/
def getRange (store : Store) (stem : String) (strip : Bool) :
    Except StoreError (Option Object) := do
  match (← store.view Schema.liveTable).range stem with
  | [] => return none
  | rows =>
      let values ← decodeRows rows
      return some (.ofList (values.map fun (key, value) =>
        (if strip then stripStem stem key else key, value)))

/-- How a mapping differs from the values under a stem; nothing if it does not. -/
def delta (store : Store) (mapping : Object) (stem : String) :
    Except StoreError (Option DeltaSet) := do
  let previous := (← store.getRange stem true).getD ∅
  let deltas := computeDelta previous mapping
  return if deltas.isEmpty then none else some deltas

def historyData (deserialize : Bool) : Option String → Except StoreError HistoryData
  | none => .ok .deleted
  | some text =>
      if deserialize then HistoryData.value <$> decode Value.parse text
      else .ok (.raw text)

def historyEntries (key : String) (deserialize : Bool) :
    List (Int × Option String × HookRow) → Except StoreError (List HistoryEntry)
  | [] => .ok []
  | (revision, data, row) :: later => do
      let data ← historyData deserialize data
      let entries ← historyEntries key deserialize later
      return ⟨revision, key, data, row.hook, row.date⟩ :: entries

def getHistory (store : Store) (key : String) (deserialize : Bool) :
    Except StoreError (List HistoryEntry) := do
  historyEntries key deserialize ((← store.view Schema.historyTable).historyOf key)

def dump (store : Store) : Except StoreError Dump := do
  let contents ← store.view Schema.liveTable
  return {
    live := contents.live.entries.map fun (key, text) => ⟨key, text⟩
    revisions := contents.history.entries.map fun ((revision, key), data) =>
      ⟨revision, key, data⟩ }

end UnitState.Store
