import UnitState.Proofs.Coherence

/-!
# Failed operations

An operation on several keys is no transaction of its own: outside a scope each of its writes is
committed by itself, and an error does not undo what came before it. That a failed operation has
nothing to undo is a matter of when it fails. In a scope only a value that denotes nothing is
refused, before the first write; out of a scope either nothing stands against any of the writes,
or the first one that has something to change is refused.
-/

set_option autoImplicit false

namespace UnitState

namespace Operation

open Store

theorem writes_of_failed_reply {request : Request} {live : Table String String}
    {error : StoreError} (failure : Outcome.reply <$> (request.plan live).1 = .error error) :
    (request.plan live).2 = [] := by
  cases planned : (request.plan live).1 with
  | error cause => exact Request.writes_of_error planned
  | ok reply =>
      rw [planned] at failure
      cases failure

theorem failed_in_scope {operation : Operation} (store : Store) (revision : Int)
    {pending : Database} (known : pending.hooks.contains revision = true) {error : StoreError}
    (failure : (operation.action (store.inScope revision pending)).1 = .error error) :
    (operation.action (store.inScope revision pending)).2 = store.inScope revision pending := by
  cases kind : operation.kind with
  | look => exact (look_spec kind _).1
  | write =>
      obtain ⟨request, rfl, writing⟩ := eq_ask_of_write kind
      have answered := (Request.answer_follows writing).inScope store revision pending known
      rw [action, Attempt.map_run, answered] at failure ⊢
      simp only [writes_of_failed_reply failure, Database.assign_all_nil]
  | enter =>
      obtain ⟨entry, rfl⟩ := eq_enter_of_enter kind
      rw [action, Attempt.map_run, enter_in_scope]
  | commit =>
      obtain ⟨outcome, acted⟩ := commit_in_scope kind store revision pending
      rw [acted] at failure
      cases failure
  | discard =>
      obtain ⟨outcome, acted⟩ := discard_in_scope kind store revision pending
      rw [acted] at failure
      cases failure

theorem failed_free {operation : Operation} (stays : operation.kind.ends = false) {store : Store}
    (free : store.Free) {error : StoreError}
    (failure : (operation.action store).1 = .error error) : (operation.action store).2 = store := by
  cases kind : operation.kind with
  | look => exact (look_spec kind store).1
  | write =>
      obtain ⟨result, _, acted, nothing⟩ := write_free kind free
      rw [acted] at failure ⊢
      rw [nothing error failure]
      rfl
  | enter =>
      obtain ⟨entry, rfl⟩ := eq_enter_of_enter kind
      rw [enter_free entry free] at failure ⊢
      cases opens : entry.opening store.file.contents with
      | error cause => rfl
      | ok opening =>
          rw [opens] at failure
          cases failure
  | commit | discard => simp [kind, Kind.ends] at stays

theorem failed_outside {operation : Operation} {handle : Handle} (outside : handle.Outside)
    (file : DatabaseFile) {error : StoreError}
    (failure : (operation.action ⟨handle, file⟩).1 = .error error) :
    (operation.action ⟨handle, file⟩).2 = ⟨handle, file⟩ := by
  cases ends : operation.kind.ends with
  | true =>
      have noRevision : (Store.mk handle file).handle.revision = none := outside.revision
      obtain ⟨outcome, acted⟩ := end_outside ends noRevision outside.idle
      rw [acted] at failure
      cases failure
  | false =>
      rcases free_or_barred outside file with free | barred
      · exact failed_free ends free failure
      · exact (Operation.barred ends barred).1

/-- An operation that fails on a store whose revision and transaction belong together leaves the
store as it was. -/
theorem failed_keeps {operation : Operation} {handle : Handle} (coherent : handle.Coherent)
    (file : DatabaseFile) {error : StoreError}
    (failure : (operation.action ⟨handle, file⟩).1 = .error error) :
    (operation.action ⟨handle, file⟩).2 = ⟨handle, file⟩ := by
  cases coherent with
  | closed location readOnly =>
      have outside : Handle.Outside ⟨location, readOnly, .closed, none⟩ := ⟨rfl, nofun⟩
      exact failed_outside outside file failure
  | idle location readOnly =>
      have outside : Handle.Outside ⟨location, readOnly, .idle, none⟩ := ⟨rfl, nofun⟩
      exact failed_outside outside file failure
  | @writing location readOnly revision pending opened =>
      exact failed_in_scope ⟨⟨location, readOnly, .idle, none⟩, file⟩ revision opened.known failure

end Operation

namespace Fleet

variable {Name : Type} [DecidableEq Name]

/-- An operation that fails changes nothing: the committed contents, the contents, the revision
and the transaction of every store, and the lock are as before. -/
theorem Reachable.failure_keeps {fleet : Fleet Name} (reachable : fleet.Reachable) {name : Name}
    {operation : Operation} {error : StoreError}
    (failure : (fleet.step name (.perform operation)).1 = some (.error error)) :
    (fleet.step name (.perform operation)).2 = fleet := by
  cases named : fleet.handles name with
  | none =>
      have unanswered : (fleet.step name (.perform operation)).1 = none := by
        simp only [Fleet.step, named]
      rw [unanswered] at failure
      cases failure
  | some handle =>
      have performed : fleet.step name (.perform operation) =
          (some (operation.action ⟨handle, fleet.file⟩).1,
            fleet.put name (some (operation.action ⟨handle, fleet.file⟩).2.handle)
              (operation.action ⟨handle, fleet.file⟩).2.file) := by
        simp only [Fleet.step, named]
      rw [performed] at failure ⊢
      rw [Operation.failed_keeps (reachable.coherent.handles named) fleet.file
        (Option.some.inj failure)]
      exact put_eq_of_named named fleet.file

def scopeElsewhere : Fleet Nat :=
  (ofFile .fresh).run
    [(0, .connect .memory false), (1, .connect .memory false),
      (1, .perform (.ask (.update (.ofList [("a", .null), ("b", .null)]) ""))),
      (0, .perform (.enter (.scope ⟨"install", "today"⟩)))]

def togglingUpdate : Operation :=
  .ask (.update (.ofList [("a", .null), ("b", .bool true), ("c", .null)]) "")

/-- An update whose first text is there already is refused at the second one. -/
theorem update_refused_whole :
    (scopeElsewhere.step 1 (.perform togglingUpdate)).1 = some (.error (.engine .locked)) ∧
      (scopeElsewhere.step 1 (.perform togglingUpdate)).2 = scopeElsewhere := by
  have reachable : scopeElsewhere.Reachable :=
    (((Reachable.fresh.step 0 _).step 1 _).step 1 _).step 0 _
  have refused : (scopeElsewhere.step 1 (.perform togglingUpdate)).1 =
      some (.error (.engine .locked)) := by rfl
  exact ⟨refused, reachable.failure_keeps refused⟩

end Fleet

end UnitState
