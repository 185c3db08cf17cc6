import UnitState.Proofs.Branches

/-!
# Stores that may write

A store may write if it is in a scope of its own, or if it is open for writing and no store has a
scope open on the file. An action that follows a plan then carries out the writes of the plan on
the contents that the store sees, and gives the result of the plan. Where a store may not write,
an action that succeeds all the same has found everything as it would have left it, so what holds
after a success is the same for every store.
-/

set_option autoImplicit false

namespace UnitState

namespace Store

def withSeen (store : Store) (contents : Database) : Store :=
  match store.handle.connection with
  | .writing _ => { store with handle := { store.handle with connection := .writing contents } }
  | .closed | .idle => store.withContents contents

theorem Free.with_seen {store : Store} (free : store.Free) (contents : Database) :
    store.withSeen contents = store.withContents contents := by
  unfold withSeen
  rw [free.idle]

/-- A store that sees these contents and may write to them. -/
inductive Editable : Store → Database → Prop
  | inScope (store : Store) (revision : Int) {pending : Database}
      (known : pending.hooks.contains revision = true) :
      Editable (store.inScope revision pending) pending
  | free {store : Store} (free : store.Free) : Editable store store.file.contents

namespace Editable

variable {store : Store} {contents : Database}

theorem view (editable : store.Editable contents) (table : String) :
    store.view table = .ok contents := by
  cases editable with
  | inScope => rfl
  | free free => exact free.view table

theorem assigned (editable : store.Editable contents) (writes : List Write) :
    (store.withSeen (contents.assignAll store.handle.revision writes)).Editable
      (contents.assignAll store.handle.revision writes) := by
  cases editable with
  | inScope base revision known =>
      apply Editable.inScope
      rw [Database.hooks_assign_all]
      exact known
  | free free =>
      rw [free.with_seen]
      exact .free ⟨free.idle, free.outside, free.writable, free.hasTables, free.unlocked⟩

theorem with_seen_self (editable : store.Editable contents) : store.withSeen contents = store := by
  cases editable with
  | inScope => rfl
  | free free => exact free.with_seen store.file.contents

theorem run (editable : store.Editable contents) {Result : Type} {action : Action Result}
    {plan : Plan Result} (follows : Follows action plan) :
    action store =
      ((plan contents.live).1,
        store.withSeen
          (contents.assignAll store.handle.revision (plan contents.live).2)) := by
  cases editable with
  | inScope base revision known => exact follows.inScope base revision contents known
  | free free => rw [follows.free store free, free.with_seen, free.outside]

end Editable

/-- A store that sees these contents: it may write to them, or something stands against it. -/
structure Sees (store : Store) (contents : Database) : Prop where
  visible : store.view Schema.liveTable = .ok contents
  allowed : store.Editable contents ∨ store.Barred

theorem sees_of_view {handle : Handle} (coherent : handle.Coherent) {file : DatabaseFile}
    {contents : Database}
    (visible : (Store.mk handle file).view Schema.liveTable = .ok contents) :
    (Store.mk handle file).Sees contents := by
  refine ⟨visible, ?_⟩
  have outOfScope : handle.Outside →
      (Store.mk handle file).Editable contents ∨ (Store.mk handle file).Barred := by
    intro outside
    rcases free_or_barred outside file with free | barred
    · cases (view_outside outside visible).2
      exact .inl (.free free)
    · exact .inr barred
  cases coherent with
  | closed location readOnly => exact outOfScope ⟨rfl, nofun⟩
  | idle location readOnly => exact outOfScope ⟨rfl, nofun⟩
  | @writing location readOnly revision pending opened =>
      cases visible
      exact .inl (.inScope ⟨⟨location, readOnly, .idle, none⟩, file⟩ revision opened.known)

section Success

variable {Result : Type} {action : Action Result} {plan : Plan Result} {contents : Database}
  {store later : Store} {result : Result}

/-- Where something stands against writing, only what changes nothing succeeds. -/
theorem Barred.success (barred : store.Barred) (follows : Follows action plan)
    (visible : store.view Schema.liveTable = .ok contents)
    (ran : action store = (.ok result, later)) :
    later = store ∧ (plan contents.live).1 = .ok result ∧
      contents.live.Has (plan contents.live).2 := by
  cases barred.view_ok visible
  obtain ⟨kept, _, reached⟩ := follows.barred store barred
  rw [ran] at kept reached
  exact ⟨kept, reached result rfl⟩

/-- An action that follows a plan and succeeds leaves what the plan says, at whichever store. -/
theorem Sees.after (sees : store.Sees contents) (follows : Follows action plan)
    (ran : action store = (.ok result, later)) :
    (plan contents.live).1 = .ok result ∧
      later.Sees (contents.assignAll store.handle.revision (plan contents.live).2) := by
  rcases sees.allowed with editable | barred
  · obtain ⟨planned, rfl⟩ := Prod.mk.inj ((editable.run follows).symm.trans ran)
    have assigned := editable.assigned (plan contents.live).2
    exact ⟨planned, assigned.view _, .inl assigned⟩
  · obtain ⟨rfl, planned, present⟩ := barred.success follows sees.visible ran
    rw [Database.assign_all_present _ _ present]
    exact ⟨planned, sees⟩

end Success

end Store

namespace Fleet

variable {Name : Type}

/-- The store of a name is open for writing, and no other store has a scope open on the file. -/
structure MayWrite (fleet : Fleet Name) (name : Name) (handle : Handle) : Prop where
  named : fleet.handles name = some handle
  writable : handle.readOnly = false
  alone : ∀ other revision pending, fleet.Holds other revision pending → other = name

variable [DecidableEq Name]

theorem Reachable.editable {fleet : Fleet Name} (reachable : fleet.Reachable) {name : Name}
    {handle : Handle} (may : fleet.MayWrite name handle) {contents : Database}
    (visible : (Store.mk handle fleet.file).view Schema.liveTable = .ok contents) :
    (Store.mk handle fleet.file).Editable contents := by
  have named := may.named
  have sees := Store.sees_of_view (reachable.coherent.handles named) visible
  rcases sees.allowed with editable | barred
  · exact editable
  · have idle : handle.connection = .idle :=
      (Store.view_outside barred.handle_outside visible).1
    rcases barred.bar with closed | ⟨_, noTables | readOnly | locked⟩
    · cases idle.symm.trans closed
    · have missing : fleet.file.hasTables = false := noTables
      rw [Store.view, idle] at visible
      simp only [missing, Bool.false_eq_true, if_false] at visible
      cases visible
    · cases may.writable.symm.trans readOnly
    · obtain ⟨other, revision, pending, holds⟩ := reachable.coherent.locked.1 locked
      -- the one store that may have a scope open is this one, which has none
      cases may.alone other revision pending holds
      obtain ⟨_, _, held⟩ := holds
      cases (Option.some.inj (held.symm.trans named)).symm
      cases idle

end Fleet

/-! ## The rows of an open scope -/

/-- Every row of a revision has the live text of its key. -/
def Database.UpToDate (database : Database) (revision : Int) : Prop :=
  ∀ key data, database.history.get? (revision, key) = some data → data = database.live.get? key

theorem Database.UpToDate.assign_all {database : Database} {revision : Int}
    (upToDate : database.UpToDate revision) (writes : List Write) :
    (database.assignAll (some revision) writes).UpToDate revision := by
  intro key data found
  rcases recorded_or_unchanged database revision key writes with recorded | ⟨row, text⟩
  · rw [recorded] at found
    exact (Option.some.inj found).symm
  · rw [row] at found
    rw [text]
    exact upToDate key data found

/-- Where the rows of the active revision have the live texts, agreeing writes change just the rows
of that revision whose key gets another text. -/
theorem Database.row_changed_iff {database : Database} {active : Option Int}
    (upToDate : ∀ revision, active = some revision → database.UpToDate revision)
    {writes : List Write} (agreeing : Agreeing writes) (revision : Int) (key : String) :
    (database.assignAll active writes).history.get? (revision, key) ≠
        database.history.get? (revision, key) ↔
      active = some revision ∧
        (database.live.changeAll writes).get? key ≠ database.live.get? key := by
  rw [row_assign_all_agreeing database active agreeing]
  split
  · rename_i written
    refine iff_of_true (fun same => written.2 ?_) written
    exact upToDate revision written.1 key _ same.symm
  · rename_i unwritten
    exact iff_of_false (fun changed => changed rfl) unwritten

theorem Entry.opening_up_to_date {entry : Entry} {contents : Database} {opening : Opening}
    (sound : contents.Sound) (success : entry.opening contents = .ok opening) :
    opening.pending.UpToDate opening.revision := by
  obtain ⟨number, pending⟩ := Entry.opening_ok success
  have before : (contents.revised entry.row).UpToDate opening.revision := by
    intro key data found
    rw [number] at found
    cases (sound.unrecorded key).symm.trans found
  rw [pending]
  exact before.assign_all _

theorem Fleet.Reachable.up_to_date {Name : Type} [DecidableEq Name] {fleet : Fleet Name}
    (reachable : fleet.Reachable) {name : Name} {revision : Int} {pending : Database}
    (holds : fleet.Holds name revision pending) : pending.UpToDate revision := by
  induction reachable generalizing name revision pending with
  | fresh =>
      obtain ⟨_, _, named⟩ := holds
      cases named
  | step before actor event hypothesis =>
      have move := (step_move before.coherent actor event).1
      cases (move.continues before.coherent holds).2 with
      | kept held => exact hypothesis held
      | entered _ _ _ opens number =>
          exact number ▸ Entry.opening_up_to_date before.coherent.sound opens
      | performed _ _ held => exact (hypothesis held).assign_all _
  | edit before edit edited hypothesis => exact hypothesis holds

end UnitState
