import UnitState.Proofs.Fleet

/-!
# The fleets of a host

The stores of a host that are open on one database are a fleet, and whatever is done with a
store of a host is a step of its fleet that leaves the fleets of the other databases alone.
-/

set_option autoImplicit false

namespace UnitState.Host

/-- The stores that are open on one of the databases. -/
def fleet (host : Host) (number : Int) : Fleet String where
  handles name :=
    match host.store? name with
    | some opened => if opened.database = number then some opened.handle else none
    | none => none
  file := host.database number

theorem store_put_self (host : Host) (name : String) (opened : OpenStore) :
    (host.putStore name opened).store? name = some opened := by
  unfold putStore store?
  by_cases shared : name = slotName ∧ host.slot.held
  · simp only [shared, and_self, if_true]
  · simp only [shared, if_false]
    exact Table.get?_insert_self host.stores name opened

theorem store_put_of_ne (host : Host) {name other : String} (opened : OpenStore)
    (different : other ≠ name) :
    (host.putStore name opened).store? other = host.store? other := by
  unfold putStore store?
  by_cases shared : name = slotName ∧ host.slot.held
  · have unshared : other ≠ slotName := by
      rw [← shared.1]
      exact different
    simp only [shared, and_self, if_true, unshared, false_and, if_false]
  · simp only [shared, if_false]
    rw [Table.get?_insert_of_ne host.stores opened different]

theorem database_put_store (host : Host) (name : String) (opened : OpenStore) (number : Int) :
    (host.putStore name opened).database number = host.database number := by
  unfold putStore
  split <;> rfl

theorem database_put_self (host : Host) (number : Int) (file : DatabaseFile) :
    (host.putDatabase number file).database number = file := by
  simp only [database, putDatabase, Table.get?_insert_self, Option.getD_some]

theorem database_put_of_ne (host : Host) {number other : Int} (file : DatabaseFile)
    (different : other ≠ number) :
    (host.putDatabase number file).database other = host.database other := by
  simp only [database, putDatabase, Table.get?_insert_of_ne host.databases file different]

theorem database_eq {before after : Host} (same : after.databases = before.databases)
    (number : Int) : after.database number = before.database number := by
  unfold database
  rw [same]

theorem databases_retire (place : Files.Place) (number : Int) (readOnly : Bool) (host : Host) :
    (host.retire place number readOnly).databases = host.databases := by
  unfold retire
  split
  · split <;> rfl
  · rfl

theorem databases_retire_store (opened : OpenStore) (host : Host) :
    (host.retireStore opened).databases = host.databases := by
  unfold retireStore
  split
  · exact databases_retire _ _ _ host
  · rfl

theorem fleet_retire_store (host : Host) (opened : OpenStore) (number : Int) :
    (host.retireStore opened).fleet number = host.fleet number := by
  unfold retireStore
  split
  · unfold retire
    split
    · split <;> rfl
    · rfl
  · rfl

theorem file_close (handle : Handle) (file : DatabaseFile) :
    (Store.close ⟨handle, file⟩).2.file =
      match handle.connection with
      | .writing _ => { file with locked := false }
      | .closed | .idle => file := by
  unfold Store.close
  cases connection : handle.connection with
  | closed =>
      have flushed : Store.flush false ⟨handle, file⟩ = (.ok (), ⟨handle, file⟩) := by
        simp only [Store.flush, connection]
      rw [Attempt.bind_ok flushed]
      rfl
  | idle =>
      have flushed : Store.flush false ⟨handle, file⟩ =
          (.ok (), ⟨{ handle with revision := none }, file⟩) := by
        simp only [Store.flush, connection]
      rw [Attempt.bind_ok flushed]
      rfl
  | writing pending =>
      have flushed : Store.flush false ⟨handle, file⟩ =
          (.ok (), ⟨{ handle with connection := .idle, revision := none },
            { file with locked := false }⟩) := by
        simp only [Store.flush, connection]
        rfl
      rw [Attempt.bind_ok flushed]
      rfl

section Put

variable (host : Host) (name : String) (opened : OpenStore) (handle : Handle)
  (file : DatabaseFile)

def leave : Host :=
  (host.putDatabase opened.database file).putStore name { opened with handle := handle }

theorem fleet_leave :
    (host.leave name opened handle file).fleet opened.database =
      (host.fleet opened.database).put name (some handle) file := by
  have files : (host.leave name opened handle file).database opened.database = file := by
    rw [leave, database_put_store, database_put_self]
  have handles : ((host.leave name opened handle file).fleet opened.database).handles =
      ((host.fleet opened.database).put name (some handle) file).handles := by
    funext other
    by_cases acts : other = name
    · subst acts
      rw [Fleet.handles_put_self]
      simp only [leave, fleet, store_put_self, if_true]
    · rw [Fleet.handles_put_of_ne _ _ _ _ acts]
      simp only [leave, fleet, store_put_of_ne _ _ acts]
      rfl
  exact congrArg₂ Fleet.mk handles files

theorem fleet_leave_of_ne (named : host.store? name = some opened) {number : Int}
    (different : number ≠ opened.database) :
    (host.leave name opened handle file).fleet number = host.fleet number := by
  have files : (host.leave name opened handle file).database number = host.database number := by
    rw [leave, database_put_store, database_put_of_ne host file different]
  have handles : ((host.leave name opened handle file).fleet number).handles =
      (host.fleet number).handles := by
    funext other
    by_cases acts : other = name
    · subst acts
      simp only [leave, fleet, store_put_self, named, Ne.symm different, if_false]
    · simp only [leave, fleet, store_put_of_ne _ _ acts]
      rfl
  exact congrArg₂ Fleet.mk handles files

end Put

theorem fleet_on {Result : Type} (host : Host) {name : String} {opened : OpenStore}
    (named : host.store? name = some opened) (action : Action Result) (number : Int) :
    (on name action host).2.fleet number =
      (host.leave name opened
        (action ⟨opened.handle, host.database opened.database⟩).2.handle
        (action ⟨opened.handle, host.database opened.database⟩).2.file).fleet number := by
  unfold on act
  simp only [named]
  split
  · rw [fleet_retire_store]
    rfl
  · rfl

/-- An operation on a store of a host is a step of the fleet of the store's database, and of
no other fleet. -/
theorem on_steps (host : Host) {name : String} {opened : OpenStore}
    (named : host.store? name = some opened) (operation : Operation) :
    let later := (on name operation.action host).2
    let step := (host.fleet opened.database).step name (.perform operation)
    step.1.map (Except.mapError Failure.store) = some (on name operation.action host).1 ∧
      later.fleet opened.database = step.2 ∧
        ∀ number, number ≠ opened.database → later.fleet number = host.fleet number := by
  have handle : (host.fleet opened.database).handles name = some opened.handle := by
    simp only [fleet, named, if_true]
  refine ⟨?_, ?_, fun number different => ?_⟩
  · simp only [Fleet.step, handle, on, act, named, Option.map_some]
    rfl
  · have stepped : ((host.fleet opened.database).step name (.perform operation)).2 =
        (host.fleet opened.database).put name
          (some (operation.action ⟨opened.handle, host.database opened.database⟩).2.handle)
          (operation.action ⟨opened.handle, host.database opened.database⟩).2.file := by
      simp only [Fleet.step, handle]
      rfl
    rw [stepped]
    exact (fleet_on host named operation.action _).trans (fleet_leave host name opened _ _)
  · exact (fleet_on host named operation.action number).trans
      (fleet_leave_of_ne host name opened _ _ named different)

end UnitState.Host
