import UnitState.Proofs.Operation
import UnitState.Timestamp

/-!
# All or nothing

A body is laid out as a routine: a tree of operations, each of which is chosen in view of
the answers so far, down to an ending. A routine neither flushes nor closes its store. If it
returns, the store has the contents from before with a new revision and everything that was
written in the scope; if it ends in any other way, or the scope could not be entered, the
store is the one from before.
-/

set_option autoImplicit false

namespace UnitState

/-- A body that does not end the scope in which it runs. -/
inductive Routine (Result : Type) where
  | done (ending : Ending StoreError Result)
  | perform (operation : Operation) (stays : operation.kind.ends = false)
      (next : Except StoreError Outcome → Routine Result)

namespace Routine

variable {Result : Type}

def run : Routine Result → Body Store StoreError Result
  | done ending, store => (ending, store)
  | perform operation _ next, store =>
      (next (operation.action store).1).run (operation.action store).2

def writes : Routine Result → Store → List Write
  | done _, _ => []
  | perform operation _ next, store =>
      operation.writes store.seen.live ++
        (next (operation.action store).1).writes (operation.action store).2

/-- A routine in a scope carries out its writes in the contents of the scope, and leaves
everything else alone. -/
theorem run_in_scope (routine : Routine Result) (store : Store) (revision : Int)
    {pending : Database} (known : pending.hooks.contains revision = true) :
    (routine.run (store.inScope revision pending)).2 =
      store.inScope revision
        (pending.assignAll (some revision)
          (routine.writes (store.inScope revision pending))) := by
  induction routine generalizing pending with
  | done ending => rfl
  | perform operation stays next hypothesis =>
      obtain ⟨answer, _, acted⟩ := Operation.in_scope stays store revision known
      have stillKnown : (pending.assignAll (some revision)
          (operation.writes pending.live)).hooks.contains revision = true := by
        rw [Database.hooks_assign_all]
        exact known
      have rest := hypothesis answer stillKnown
      have seen : (store.inScope revision pending).seen = pending := rfl
      simp only [run, writes, acted, seen]
      rw [rest, Database.assign_all_append]

end Routine

namespace Store

theorem enter_cases (entry : Entry) (store : Store) :
    (∃ error, enter entry store = (.error error, store)) ∨
      store.Free ∧ ∃ opening, entry.opening store.file.contents = .ok opening ∧
        enter entry store = (.ok (opening.revision, opening.changes),
          store.locked.inScope opening.revision opening.pending) := by
  obtain ⟨handle, file⟩ := store
  cases active : handle.revision with
  | some revision =>
      refine .inl ⟨.scopeActive revision, ?_⟩
      simp only [enter, beginScope, active]
  | none =>
      by_cases writing : ∃ pending, handle.connection = .writing pending
      · obtain ⟨pending, writing⟩ := writing
        refine .inl ⟨.engine .nestedTransaction, ?_⟩
        simp only [enter, beginScope, active, writing]
      · have outside : handle.Outside := ⟨active, not_exists.1 writing⟩
        rcases free_or_barred outside file with free | barred
        · rw [enter_free free]
          cases opens : entry.opening file.contents with
          | error error => exact .inl ⟨error, rfl⟩
          | ok opening => exact .inr ⟨free, opening, rfl, rfl⟩
        · obtain ⟨error, _, refused⟩ := enter_barred barred entry
          exact .inl ⟨error, refused⟩

/-- The committed contents after a scope: those before with a new revision, and the writes
of the bookkeeping and of the body recorded under it. -/
def afterScope {Result : Type} (entry : Entry) (body : Routine Result) (store opened : Store) :
    Database :=
  let contents := store.file.contents
  (contents.revised entry.row).assignAll (some (contents.sequence + 1))
    (entry.writes contents.live ++ body.writes opened)

theorem after_scope_eq {Result : Type} {entry : Entry} {store : Store} {opening : Opening}
    (opens : entry.opening store.file.contents = .ok opening) (body : Routine Result)
    (opened : Store) :
    opening.pending.assignAll (some opening.revision) (body.writes opened) =
      afterScope entry body store opened := by
  obtain ⟨number, contents⟩ := Entry.opening_ok opens
  rw [afterScope, Database.assign_all_append, ← number, ← contents]

def endingOf {Result : Type} (entry : Entry) (body : Int → HookChanges → Routine Result)
    (store : Store) : Ending StoreError Result :=
  match enter entry store with
  | (.error error, _) => .failed error
  | (.ok (revision, changes), opened) => ((body revision changes).run opened).1

/-- What is left after a body was run inside a scope, and how it is said to have ended. -/
structure WholeOrNothing {Result : Type} (entry : Entry)
    (body : Int → HookChanges → Routine Result) (store : Store)
    (ran : Ending StoreError Result × Store) : Prop where
  own : ran.1 = endingOf entry body store
  /-- If the body returned, all of it is there: nothing but the contents has changed. -/
  whole : ∀ result, ran.1 = .returned result → ∃ changes opened,
    enter entry store = (.ok (store.file.contents.sequence + 1, changes), opened) ∧
      ran.2 = store.withContents
        (afterScope entry (body (store.file.contents.sequence + 1) changes) store opened)
  /-- If it failed or crashed, or was not run, nothing has changed. -/
  nothing : (∀ result, ran.1 ≠ .returned result) → ran.2 = store

theorem WholeOrNothing.unchanged {Result : Type} {entry : Entry}
    {body : Int → HookChanges → Routine Result} {store : Store}
    {ending : Ending StoreError Result} (own : ending = endingOf entry body store)
    (unreturned : ∀ result, ending ≠ .returned result) :
    WholeOrNothing entry body store (ending, store) where
  own := own
  whole result returned := absurd returned (unreturned result)
  nothing _ := rfl

theorem within_whole_or_nothing {Result : Type} (entry : Entry)
    (body : Int → HookChanges → Routine Result) (store : Store) :
    WholeOrNothing entry body store
      (within entry (fun revision changes => (body revision changes).run) store) := by
  rcases enter_cases entry store with ⟨error, refused⟩ | ⟨free, opening, opens, entered⟩
  · rw [within_refused refused]
    apply WholeOrNothing.unchanged
    · simp only [endingOf, refused]
    · intro result returned
      cases returned
  · obtain ⟨number, _⟩ := Entry.opening_ok opens
    have ran : (body opening.revision opening.changes).run
        (store.locked.inScope opening.revision opening.pending) =
          (endingOf entry body store, store.locked.inScope opening.revision
            (afterScope entry (body opening.revision opening.changes) store
              (store.locked.inScope opening.revision opening.pending))) := by
      rw [← after_scope_eq opens, ← Routine.run_in_scope _ _ _ (Entry.opening_known opens)]
      simp only [endingOf, entered]
    rw [within_entered entered]
    by_cases returned : ∃ result, endingOf entry body store = .returned result
    · obtain ⟨result, returned⟩ := returned
      rw [returned] at ran
      rw [scope_returned free ran]
      refine ⟨returned.symm, fun _ _ => ?_, fun other => absurd rfl (other result)⟩
      rw [← number]
      exact ⟨opening.changes, _, entered, rfl⟩
    · have unreturned := not_exists.1 returned
      rw [scope_unreturned free ran unreturned]
      exact .unchanged rfl unreturned

theorem begin_scope_eq (row : HookRow) (store : Store) :
    beginScope row store =
      ((·.1) <$> (enter (.scope row) store).1, (enter (.scope row) store).2) := by
  simp only [enter, Entry.row, Entry.bookkeeping]
  cases beginScope row store with
  | mk result later => cases result <;> rfl

/-- What is left of a guard when its user, who held it while a body ran, ends it. -/
structure GuardedWholeOrNothing {Result : Type} (row : HookRow) (body : Int → Routine Result)
    (store : Store) (begun : Except StoreError Int × Store) : Prop where
  refused : ∀ error later, begun = (.error error, later) → later = store
  /-- However the body ended, the way in which the guard ends decides. -/
  ended : ∀ revision opened, begun = (.ok revision, opened) →
    let left := ((body revision).run opened).2
    revision = store.file.contents.sequence + 1 ∧
      endGuard .commit left =
        (.ok (), store.withContents (afterScope (.scope row) (body revision) store opened)) ∧
      endGuard .rollback left = (.ok (), store) ∧ endGuard .drop left = (.ok (), store)

theorem guarded_whole_or_nothing {Result : Type} (row : HookRow) (body : Int → Routine Result)
    (store : Store) : GuardedWholeOrNothing row body store (beginScope row store) := by
  rcases enter_cases (.scope row) store with ⟨error, refused⟩ | ⟨free, opening, opens, entered⟩
  · constructor
    · intro other later begun
      rw [begin_scope_eq, refused] at begun
      cases begun
      rfl
    · intro revision opened begun
      rw [begin_scope_eq, refused] at begun
      cases begun
  · constructor
    · intro other later begun
      rw [begin_scope_eq, entered] at begun
      cases begun
    · intro revision opened begun
      rw [begin_scope_eq, entered] at begun
      cases begun
      have inside := (body opening.revision).run_in_scope store.locked opening.revision
        (Entry.opening_known opens)
      simp only [inside, endGuard]
      refine ⟨(Entry.opening_ok opens).1, ?_, flush_false_locked free _ _,
        flush_false_locked free _ _⟩
      rw [flush_true_locked free, after_scope_eq opens]

theorem opening_row_eq (program name date : String) :
    HookRow.opening program name date = ⟨if name = "" then program else name, date⟩ := by
  simp only [HookRow.opening, String.isEmpty_iff]

/-- A scope is all or nothing, whether it is held by a call, by a hook or by a guard. The row that
it adds has the name of the scope, or that of the program if it has none, and the time. -/
theorem scopes_all_or_nothing {Result : Type} (store : Store) (program name : String)
    (clock : Timestamp) :
    let row (name : String) : HookRow := ⟨if name = "" then program else name, clock.text⟩
    let opening (name : String) : HookRow := .opening program name clock.text
    (∀ body : Int → Routine Result,
      WholeOrNothing (.scope (row name)) (fun revision _ => body revision) store
        (hookScope (opening name) (fun revision => (body revision).run) store)) ∧
    (∀ invocation revisionFile (body : Int → HookChanges → Routine Result),
      WholeOrNothing (.hook (row invocation.hookName) invocation revisionFile) body store
        (runHook (opening invocation.hookName) invocation revisionFile
          (fun revision changes => (body revision changes).run) store)) ∧
    ∀ body : Int → Routine Result,
      GuardedWholeOrNothing (row name) body store (beginScope (opening name) store) := by
  intro row opening
  have same (name : String) : opening name = row name := opening_row_eq program name clock.text
  refine ⟨fun body => ?_, fun invocation revisionFile body => ?_, fun body => ?_⟩
  · rw [same, hook_scope_eq]
    exact within_whole_or_nothing (.scope (row name)) (fun revision _ => body revision) store
  · rw [same, run_hook_eq]
    exact within_whole_or_nothing (.hook (row invocation.hookName) invocation revisionFile) body
      store
  · rw [same]
    exact guarded_whole_or_nothing (row name) body store

def storesMode (ending : Ending StoreError Unit) : Int → Routine Unit := fun _ =>
  .perform (.ask (.set "mode" (.bool false))) rfl fun _ => .done ending

/-- A scope without a name, which stores a mode: all of it is there if its body returns, and
nothing if the body crashes. -/
theorem unnamed_scope_all_or_nothing :
    let scope (ending : Ending StoreError Unit) :=
      hookScope (.opening "bin/unit" "" (Timestamp.mk 951782400 0).text)
        (fun revision => (storesMode ending revision).run) inMemory
    let contents : Database :=
      { live := .ofList [("mode", "false")]
        hooks := .ofList [(1, ⟨"bin/unit", "2000-02-29T00:00:00.000000Z"⟩)]
        history := .ofList [((1, "mode"), some "false")]
        sequence := 1 }
    scope (.returned ()) = (.returned (), inMemory.withContents contents) ∧
      scope .crashed = (.crashed, inMemory) := by
  intro scope contents
  have promised (ending : Ending StoreError Unit) :=
    (scopes_all_or_nothing inMemory "bin/unit" "" ⟨951782400, 0⟩).1 (storesMode ending)
  have returned : (scope (.returned ())).1 = .returned () := (promised (.returned ())).own
  have crashed : (scope .crashed).1 = .crashed := (promised .crashed).own
  obtain ⟨changes, opened, entered, left⟩ := (promised (.returned ())).whole () returned
  cases entered
  refine ⟨Prod.ext returned (left.trans ?_), Prod.ext crashed ?_⟩
  · decide +kernel
  · exact (promised .crashed).nothing fun result other => nomatch crashed.symm.trans other

end Store

end UnitState
