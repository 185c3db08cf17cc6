import Mathlib.Logic.Function.Basic
import UnitState.Proofs.Operation

/-!
# Fleets

A fleet is all the stores that are open on one file. Its events are the opening of a store,
an operation on one of the stores, and the loss of a store by its holder; they come in any
order, from any of the holders.
-/

set_option autoImplicit false

namespace UnitState

/-- Stores that are open on one file, by name. A closed store has its name still. -/
structure Fleet (Name : Type) where
  handles : Name → Option Handle
  file : DatabaseFile

namespace Fleet

inductive Event where
  | connect (location : Location) (readOnly : Bool)
  | perform (operation : Operation)
  /-- Loses the store, closing it. -/
  | drop

namespace Event

def kind : Event → Kind
  | connect .. => .look
  | perform operation => operation.kind
  | drop => .discard

def writes (event : Event) (live : Table String String) : List Write :=
  match event with
  | perform operation => operation.writes live
  | connect .. | drop => []

/-- What an event that ends scopes leaves of a handle. -/
def remainder (event : Event) (handle : Handle) : Option Handle :=
  match event with
  | perform operation => some (operation.remainder handle)
  | connect .. => some handle
  | drop => none

end Event

variable {Name : Type}

def ofFile (file : DatabaseFile) : Fleet Name := ⟨fun _ => none, file⟩

variable [DecidableEq Name]

def put (fleet : Fleet Name) (name : Name) (handle : Option Handle) (file : DatabaseFile) :
    Fleet Name :=
  ⟨Function.update fleet.handles name handle, file⟩

/-- What the holder of a name is told of an event, and the fleet after it. An event that
does not apply is not answered: a name in use cannot be given to another store, and without
a store there is nothing to act on. -/
def step (fleet : Fleet Name) (name : Name) (event : Event) :
    Option (Except StoreError Outcome) × Fleet Name :=
  match event, fleet.handles name with
  | .connect location readOnly, none =>
      match Store.connect location readOnly fleet.file with
      | .ok store => (some (.ok .done), fleet.put name (some store.handle) store.file)
      | .error error => (some (.error error), fleet)
  | .perform operation, some handle =>
      let (result, store) := operation.action ⟨handle, fleet.file⟩
      (some result, fleet.put name (some store.handle) store.file)
  | .drop, some handle =>
      let (result, store) := Store.close ⟨handle, fleet.file⟩
      (some ((fun _ => .done) <$> result), fleet.put name none store.file)
  | .connect .., some _ | .perform _, none | .drop, none => (none, fleet)

def run (fleet : Fleet Name) (events : List (Name × Event)) : Fleet Name :=
  events.foldl (fun fleet event => (fleet.step event.1 event.2).2) fleet

/-- Whether the store of a name is in a scope with this revision and these contents. -/
def Holds (fleet : Fleet Name) (name : Name) (revision : Int) (pending : Database) : Prop :=
  ∃ location readOnly,
    fleet.handles name = some ⟨location, readOnly, .writing pending, some revision⟩

/-- The contents that the store of a name sees, or anybody who has none. -/
def seen (fleet : Fleet Name) (name : Name) : Database :=
  match fleet.handles name with
  | some handle => (Store.mk handle fleet.file).seen
  | none => fleet.file.contents

omit [DecidableEq Name] in
theorem Holds.seen {fleet : Fleet Name} {name : Name} {revision : Int} {pending : Database}
    (holds : fleet.Holds name revision pending) : fleet.seen name = pending := by
  obtain ⟨location, readOnly, named⟩ := holds
  simp only [Fleet.seen, named, Store.seen]

omit [DecidableEq Name] in
theorem Holds.unique {fleet : Fleet Name} {name : Name} {revision other : Int}
    {pending otherPending : Database} (holds : fleet.Holds name revision pending)
    (held : fleet.Holds name other otherPending) : revision = other ∧ pending = otherPending := by
  obtain ⟨_, _, named⟩ := holds
  obtain ⟨_, _, otherNamed⟩ := held
  rw [named] at otherNamed
  cases otherNamed
  exact ⟨rfl, rfl⟩

@[simp] theorem run_nil (fleet : Fleet Name) : fleet.run [] = fleet := rfl

@[simp] theorem run_cons (fleet : Fleet Name) (event : Name × Event)
    (events : List (Name × Event)) :
    fleet.run (event :: events) = (fleet.step event.1 event.2).2.run events := rfl

theorem run_append (fleet : Fleet Name) (events later : List (Name × Event)) :
    fleet.run (events ++ later) = (fleet.run events).run later := by
  simp only [run, List.foldl_append]

section Put

variable (fleet : Fleet Name) (name : Name) (handle : Option Handle) (file : DatabaseFile)

@[simp] theorem file_put : (fleet.put name handle file).file = file := rfl

@[simp] theorem handles_put_self : (fleet.put name handle file).handles name = handle := by
  simp only [put, Function.update_self]

@[simp] theorem handles_put_of_ne {other : Name} (different : other ≠ name) :
    (fleet.put name handle file).handles other = fleet.handles other := by
  simp only [put, Function.update_of_ne different]

theorem put_eq_of_named {fleet : Fleet Name} {name : Name} {handle : Option Handle}
    (named : fleet.handles name = handle) (file : DatabaseFile) :
    fleet.put name handle file = { fleet with file := file } := by
  subst named
  simp only [put, Function.update_eq_self]

theorem holds_put_of_ne {other : Name} (different : other ≠ name) (revision : Int)
    (pending : Database) :
    (fleet.put name handle file).Holds other revision pending ↔
      fleet.Holds other revision pending := by
  simp only [Holds, handles_put_of_ne fleet name handle file different]

end Put

end Fleet

end UnitState
