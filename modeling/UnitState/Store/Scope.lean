import UnitState.Store.Write

/-!
# Scopes

A scope is a transaction with a revision of its own, under which its writes are
recorded. A body that runs inside a scope commits it by returning; an error and a
crash throw everything away. The same holds of a state that a store is only a part of,
so the rule is stated for any state with a way in and two ways out.
-/

set_option autoImplicit false

namespace UnitState

inductive Ending (Error Result : Type) where
  | returned (result : Result)
  | failed (error : Error)
  | crashed
deriving DecidableEq

namespace Ending

def ofExcept {Error Result : Type} : Except Error Result → Ending Error Result
  | .ok result => returned result
  | .error error => failed error

end Ending

abbrev Body (State Error Result : Type) : Type := State → Ending Error Result × State

/-- Runs a body inside a scope. What went wrong while leaving it by another way than
a return is not reported. -/
def withinScope {State Error Result : Type} (enter : Attempt State Error Int)
    (commit discard : Attempt State Error Unit) (body : Int → Body State Error Result) :
    Body State Error Result := fun state =>
  match enter state with
  | (.error error, state) => (.failed error, state)
  | (.ok revision, state) =>
      match body revision state with
      | (.returned result, state) =>
          match commit state with
          | (.ok (), state) => (.returned result, state)
          | (.error error, state) => (.failed error, state)
      | (.failed error, state) => (.failed error, (discard state).2)
      | (.crashed, state) => (.crashed, (discard state).2)

namespace Store

/-- Takes the write lock and opens a transaction with a new revision. If the revision
cannot be written down, the lock is given up again. A handle that may only read takes
no lock, and fails when it writes. -/
def beginScope (row : HookRow) : Action Int := fun store =>
  match store.handle.revision with
  | some revision => (.error (.scopeActive revision), store)
  | none =>
      match store.handle.connection with
      | .closed => (.error .closed, store)
      | .writing _ => (.error (.engine .nestedTransaction), store)
      | .idle =>
          if store.file.locked ∧ ¬store.handle.readOnly then (.error (.engine .locked), store)
          else if !store.file.hasTables then
            (.error (.engine (.noTable Schema.hookTable)), store)
          else if store.handle.readOnly then (.error (.engine .readOnly), store)
          else
            match store.file.contents.openRevision row with
            | .error fault => (.error (.engine fault), store)
            | .ok (revision, pending) =>
                let handle :=
                  { store.handle with connection := .writing pending, revision := some revision }
                (.ok revision, ⟨handle, { store.file with locked := true }⟩)

def hookScope {Result : Type} (row : HookRow) (body : Int → Body Store StoreError Result) :
    Body Store StoreError Result :=
  withinScope (beginScope row) (flush true) (flush false) body

end Store

end UnitState
