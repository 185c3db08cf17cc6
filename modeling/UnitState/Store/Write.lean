import UnitState.Datum
import UnitState.Store.Read

/-!
# Writing to a store

A value is stored as its canonical text. Storing the text that is already there writes
nothing; removing a key is a write also if the key is not there. Under an active
revision every change of a live row is recorded in the history as well.
-/

set_option autoImplicit false

namespace UnitState.Store

open Json

/-- Records what a key now has under the active revision, if there is one. -/
def record (key : String) (data : Option String) : Action Unit := fun store =>
  match store.handle.revision with
  | none => (.ok (), store)
  | some revision => statement (fun database => database.record revision key data) store

/-- Stores a text under a key, unless it is stored there already. -/
def setText (key text : String) : Action Unit := do
  if (← Attempt.inspect fun store => store.getRaw key) = some text then return
  statement fun database => .ok (database.setLive key text)
  record key (some text)

def set (key : String) (value : Value) : Action Unit := setText key value.storedText

def setDatum (key : String) (datum : Datum) : Action Unit :=
  match datum.toValue with
  | .ok value => setText key value.compact
  | .error cause => Attempt.fail (.serialization (.unplaced cause))

def update (mapping : Object) (stem : String) : Action Unit :=
  Attempt.forEach (fun (key, value) => set (stem ++ key) value) mapping.entries

def unset (key : String) : Action Bool := do
  let present := (← Attempt.inspect fun store => store.getRaw key).isSome
  statement fun database => .ok (database.eraseLive key)
  if present then record key none
  return present

def unsetAll : List String → Action Nat
  | [] => return 0
  | key :: later => do
      let present ← unset key
      let count ← unsetAll later
      return if present then count + 1 else count

/-- Removes the named keys after a stem, or all keys that start with it. -/
def unsetRange (names : Option (List String)) (stem : String) : Action Nat := do
  match names with
  | some names => unsetAll (names.map (stem ++ ·))
  | none =>
      let contents ← Attempt.inspect fun store => store.view Schema.liveTable
      unsetAll ((contents.range stem).map (·.1))

end UnitState.Store
