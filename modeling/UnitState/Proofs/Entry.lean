import UnitState.Proofs.HookPlans
import UnitState.Scenario.Basic

/-!
# Ways into a scope and out of it

A scope is entered plainly or for a hook, whose bookkeeping is the first thing that is
done in it. It is left by a flush, from whichever place: the end of a body, the end of a
guard and a flush of the store itself come down to the same. A bookkeeping that fails gives
back the store as it was.
-/

set_option autoImplicit false

namespace UnitState

/-- A way into a scope. -/
inductive Entry where
  | scope (row : HookRow)
  | hook (row : HookRow) (invocation : Invocation)
      (revisionFile : Option (Except FileFault String))

namespace Entry

def row : Entry → HookRow
  | scope row => row
  | hook row _ _ => row

/-- What is done first in the scope. A plain scope has no changes to tell of. -/
def bookkeeping : Entry → Action HookChanges
  | scope _ => pure ⟨∅, ∅⟩
  | hook _ invocation revisionFile => Store.recordInvocation invocation revisionFile

def plan : Entry → Plan HookChanges
  | scope _ => pure ⟨∅, ∅⟩
  | hook _ invocation revisionFile => Store.invocationPlan invocation revisionFile

theorem bookkeeping_follows (entry : Entry) : Store.Follows entry.bookkeeping entry.plan := by
  cases entry with
  | scope row => exact Store.Follows.pure _
  | hook row invocation revisionFile =>
      exact Store.record_invocation_follows invocation revisionFile

def writes (entry : Entry) (live : Table String String) : List Write := (entry.plan live).2

theorem writes_agreeing (entry : Entry) (live : Table String String) :
    Agreeing (entry.writes live) := by
  cases entry with
  | scope row => exact Agreeing.nil
  | hook row invocation revisionFile =>
      exact Store.invocation_plan_agreeing invocation revisionFile live

end Entry

/-- A scope that has been entered: its number, what it tells of changes, and its contents. -/
structure Opening where
  revision : Int
  changes : HookChanges
  pending : Database

def Entry.opening (entry : Entry) (contents : Database) : Except StoreError Opening :=
  match contents.openRevision entry.row with
  | .error fault => .error (.engine fault)
  | .ok (revision, opened) =>
      match entry.plan opened.live with
      | (.error error, _) => .error error
      | (.ok changes, writes) =>
          .ok ⟨revision, changes, opened.assignAll (some revision) writes⟩

def Database.revised (contents : Database) (row : HookRow) : Database :=
  { contents with
    hooks := contents.hooks.insert (contents.sequence + 1) row
    sequence := contents.sequence + 1 }

theorem Database.open_revision_ok {contents opened : Database} {row : HookRow} {revision : Int}
    (success : contents.openRevision row = .ok (revision, opened)) :
    revision = contents.sequence + 1 ∧ opened = contents.revised row := by
  unfold openRevision at success
  split at success
  · cases success
    exact ⟨rfl, rfl⟩
  · cases success

theorem Database.revised_known (contents : Database) (row : HookRow) :
    (contents.revised row).hooks.contains (contents.sequence + 1) = true := by
  simp [revised, Table.contains_insert]

theorem Database.open_revision_error {contents : Database} {row : HookRow} {fault : EngineFault}
    (failure : contents.openRevision row = .error fault) : fault = .full := by
  unfold openRevision at failure
  split at failure
  · cases failure
  · cases failure
    rfl

namespace Store

def locked (store : Store) : Store := { store with file.locked := true }

/-- Enters a scope. If the bookkeeping fails, the scope is discarded. -/
def enter (entry : Entry) : Action (Int × HookChanges) := fun store =>
  match beginScope entry.row store with
  | (.error error, store) => (.error error, store)
  | (.ok revision, store) =>
      match entry.bookkeeping store with
      | (.ok changes, store) => (.ok (revision, changes), store)
      | (.error error, store) => (.error error, (flush false store).2)

/-- Ends a guard. The scope of a detached guard stays open. -/
def endGuard : GuardEnd → Action Unit
  | .commit => flush true
  | .rollback | .drop => flush false
  | .detach => pure ()

def within {Result : Type} (entry : Entry)
    (body : Int → HookChanges → Body Store StoreError Result) :
    Body Store StoreError Result := fun store =>
  match enter entry store with
  | (.error error, store) => (.failed error, store)
  | (.ok (revision, changes), store) =>
      match body revision changes store with
      | (.returned result, store) =>
          match flush true store with
          | (.ok (), store) => (.returned result, store)
          | (.error error, store) => (.failed error, store)
      | (.failed error, store) => (.failed error, (flush false store).2)
      | (.crashed, store) => (.crashed, (flush false store).2)

section Within

variable {Result : Type} {entry : Entry} {store opened : Store}

theorem within_refused {error : StoreError}
    (refused : enter entry store = (.error error, opened))
    (body : Int → HookChanges → Body Store StoreError Result) :
    within entry body store = (.failed error, opened) := by
  simp only [within, refused]

/-- Once it is entered, a scope is its body and the end that follows it. -/
theorem within_entered {revision : Int} {changes : HookChanges}
    (entered : enter entry store = (.ok (revision, changes), opened))
    (body : Int → HookChanges → Body Store StoreError Result) :
    within entry body store =
      withinScope (fun _ => (.ok revision, opened)) (flush true) (flush false)
        (fun _ => body revision changes) store := by
  simp only [within, entered, withinScope]
  cases body revision changes opened with
  | mk ending left =>
      cases ending with
      | returned result =>
          simp only
          cases flush true left with
          | mk flushed after => cases flushed <;> rfl
      | failed | crashed => rfl

theorem hook_scope_eq (row : HookRow) (body : Int → Body Store StoreError Result) :
    hookScope row body = within (.scope row) fun revision _ => body revision := by
  funext store
  cases begun : beginScope row store with
  | mk answer opened =>
      cases answer with
      | error error =>
          have refused : enter (.scope row) store = (.error error, opened) := by
            simp only [enter, Entry.row, begun]
          rw [within_refused refused]
          simp only [hookScope, withinScope, begun]
      | ok revision =>
          have entered : enter (.scope row) store = (.ok (revision, ⟨∅, ∅⟩), opened) := by
            simp only [enter, Entry.row, begun, Entry.bookkeeping, Attempt.run_pure]
          rw [within_entered entered]
          simp only [hookScope, withinScope, begun]

theorem run_hook_eq (row : HookRow) (invocation : Invocation)
    (revisionFile : Option (Except FileFault String))
    (body : Int → HookChanges → Body Store StoreError Result) :
    runHook row invocation revisionFile body =
      within (.hook row invocation revisionFile) body := by
  funext store
  cases begun : beginScope row store with
  | mk answer opened =>
      cases answer with
      | error error =>
          have refused : enter (.hook row invocation revisionFile) store =
              (.error error, opened) := by
            simp only [enter, Entry.row, begun]
          rw [within_refused refused]
          simp only [runHook, hookScope, withinScope, begun]
      | ok revision =>
          cases recorded : recordInvocation invocation revisionFile opened with
          | mk told later =>
              cases told with
              | error error =>
                  have refused : enter (.hook row invocation revisionFile) store =
                      (.error error, (flush false later).2) := by
                    simp only [enter, Entry.row, begun, Entry.bookkeeping, recorded]
                  rw [within_refused refused]
                  simp only [runHook, hookScope, withinScope, begun, Body.after, recorded]
              | ok changes =>
                  have entered : enter (.hook row invocation revisionFile) store =
                      (.ok (revision, changes), later) := by
                    simp only [enter, Entry.row, begun, Entry.bookkeeping, recorded]
                  rw [within_entered entered]
                  simp only [runHook, hookScope, withinScope, begun, Body.after, recorded]

end Within

/-! ## Entering -/

theorem begin_scope_free {store : Store} (free : store.Free) (row : HookRow) :
    beginScope row store =
      match store.file.contents.openRevision row with
      | .error fault => (.error (.engine fault), store)
      | .ok (revision, opened) => (.ok revision, store.locked.inScope revision opened) := by
  unfold beginScope
  simp only [free.outside, free.idle, free.unlocked, free.writable, free.hasTables,
    Bool.false_eq_true, false_and, if_false, Bool.not_true]
  cases store.file.contents.openRevision row with
  | error fault => rfl
  | ok found =>
      simp only [locked, inScope, free.writable, free.hasTables]

theorem begin_scope_barred {store : Store} (barred : store.Barred) (row : HookRow) :
    ∃ error, error.Ordinary ∧ beginScope row store = (.error error, store) := by
  unfold beginScope
  simp only [barred.outside]
  rcases barred.bar with closed | ⟨idle, bar⟩
  · simp only [closed]
    exact ⟨.closed, ⟨nofun, nofun⟩, rfl⟩
  · simp only [idle]
    split
    · exact ⟨.engine .locked, ⟨nofun, nofun⟩, rfl⟩
    · rename_i unlocked
      split
      · exact ⟨.engine (.noTable Schema.hookTable), ⟨nofun, nofun⟩, rfl⟩
      · rename_i hasTables
        split
        · exact ⟨.engine .readOnly, ⟨nofun, nofun⟩, rfl⟩
        · rename_i writable
          rcases bar with missing | readOnly | locked
          · simp [missing] at hasTables
          · exact absurd readOnly writable
          · exact absurd ⟨locked, writable⟩ unlocked

theorem flush_locked {store : Store} (free : store.Free) (revision : Int) (pending : Database)
    (save : Bool) :
    flush save (store.locked.inScope revision pending) =
      (.ok (), store.withContents (if save then pending else store.file.contents)) := by
  obtain ⟨⟨location, readOnly, connection, active⟩, contents, hasTables, version, locked⟩ := store
  obtain ⟨idle, outside, _, _, unlocked⟩ := free
  simp only at idle outside unlocked
  subst idle outside unlocked
  rfl

theorem flush_false_locked {store : Store} (free : store.Free) (revision : Int)
    (pending : Database) : flush false (store.locked.inScope revision pending) = (.ok (), store) :=
  flush_locked free revision pending false

theorem flush_true_locked {store : Store} (free : store.Free) (revision : Int)
    (pending : Database) :
    flush true (store.locked.inScope revision pending) = (.ok (), store.withContents pending) :=
  flush_locked free revision pending true

section Left

variable {Result : Type} {store : Store} (free : store.Free) {revision left : Int}
  {pending : Database} {opened : Store} {body : Body Store StoreError Result}

include free

theorem scope_returned {result : Result}
    (ran : body opened = (.returned result, store.locked.inScope left pending)) :
    withinScope (fun _ => (.ok revision, opened)) (flush true) (flush false) (fun _ => body)
      store = (.returned result, store.withContents pending) := by
  simp only [withinScope, ran, flush_true_locked free]

theorem scope_unreturned {ending : Ending StoreError Result}
    (ran : body opened = (ending, store.locked.inScope left pending))
    (unreturned : ∀ result, ending ≠ .returned result) :
    withinScope (fun _ => (.ok revision, opened)) (flush true) (flush false) (fun _ => body)
      store = (ending, store) := by
  cases ending with
  | returned result => exact absurd rfl (unreturned result)
  | failed error => simp only [withinScope, ran, flush_false_locked free]
  | crashed => simp only [withinScope, ran, flush_false_locked free]

end Left

theorem enter_free {store : Store} (free : store.Free) (entry : Entry) :
    enter entry store =
      match entry.opening store.file.contents with
      | .error error => (.error error, store)
      | .ok opening =>
          (.ok (opening.revision, opening.changes),
            store.locked.inScope opening.revision opening.pending) := by
  unfold enter Entry.opening
  rw [begin_scope_free free]
  cases success : store.file.contents.openRevision entry.row with
  | error fault => rfl
  | ok found =>
      obtain ⟨revision, opened⟩ := found
      obtain ⟨number, revised⟩ := Database.open_revision_ok success
      have known : opened.hooks.contains revision = true := by
        rw [number, revised]
        exact Database.revised_known _ _
      -- the bookkeeping runs in the scope that has just been opened
      simp only [entry.bookkeeping_follows.inScope store.locked revision opened known]
      cases entry.plan opened.live with
      | mk result writes =>
          cases result with
          | error error => simp only [flush_false_locked free]
          | ok changes => rfl

theorem enter_barred {store : Store} (barred : store.Barred) (entry : Entry) :
    ∃ error, error.Ordinary ∧ enter entry store = (.error error, store) := by
  obtain ⟨error, ordinary, refused⟩ := begin_scope_barred barred entry.row
  refine ⟨error, ordinary, ?_⟩
  simp only [enter, refused]

theorem enter_in_scope (store : Store) (revision : Int) (pending : Database) (entry : Entry) :
    enter entry (store.inScope revision pending) =
      (.error (.scopeActive revision), store.inScope revision pending) := rfl

end Store

theorem Entry.opening_ordinarily (entry : Entry) (contents : Database) :
    Ordinarily (entry.opening contents) := by
  unfold opening
  split
  · rename_i fault failure
    have full := Database.open_revision_error failure
    subst full
    exact Ordinarily.of_error ⟨nofun, nofun⟩
  · rename_i revision opened _
    have ordinary := entry.bookkeeping_follows.ordinary opened.live
    split
    · rename_i error writes planned
      rw [planned] at ordinary
      exact Ordinarily.of_error (ordinary error rfl)
    · exact Ordinarily.of_ok _

/-- The contents of a scope that has been entered, in terms of the committed ones. -/
theorem Entry.opening_ok {entry : Entry} {contents : Database} {opening : Opening}
    (success : entry.opening contents = .ok opening) :
    opening.revision = contents.sequence + 1 ∧
      opening.pending =
        (contents.revised entry.row).assignAll (some opening.revision)
          (entry.writes contents.live) := by
  unfold Entry.opening at success
  split at success
  · cases success
  · rename_i revision opened found
    obtain ⟨number, rfl⟩ := Database.open_revision_ok found
    split at success
    · cases success
    · rename_i changes writes planned
      cases success
      have carried : entry.writes contents.live = writes := congrArg Prod.snd planned
      exact ⟨number, by rw [carried]⟩

theorem Entry.opening_numbered {entry : Entry} {contents : Database} {opening : Opening}
    (success : entry.opening contents = .ok opening) :
    contents.sequence < Database.lastRevision := by
  unfold Entry.opening Database.openRevision at success
  by_contra exhausted
  rw [if_neg exhausted] at success
  cases success

theorem Entry.opening_known {entry : Entry} {contents : Database} {opening : Opening}
    (success : entry.opening contents = .ok opening) :
    opening.pending.hooks.contains opening.revision = true := by
  obtain ⟨number, pending⟩ := Entry.opening_ok success
  rw [pending, Database.hooks_assign_all, number]
  exact contents.revised_known entry.row

end UnitState
