import UnitState.Proofs.CharmRevisions
import UnitState.Proofs.EarlyEnds

/-!
# The hook after a hook

What the bookkeeping of a hook leaves behind is read by the bookkeeping of the next one. If every
value that it stores under its stems is nested no deeper than a document may be, the next hook
reaches its body. The writer knows no such limit: a hook with a deeper value returns all the same,
and no hook after it reaches its body.
-/

set_option autoImplicit false

namespace UnitState

open Json

/-- A body that changes nothing along its run, except that it may end the scope. -/
def Procedure.Silent {Result : Type} : Procedure Result → Store → Prop
  | done _, _ => True
  | perform operation next, store =>
      (operation.kind.ends = true ∨ (operation.action store).2 = store) ∧
        (next (operation.action store).1).Silent (operation.action store).2

/-! ## What the bookkeeping reads and leaves -/

/-- Live texts with which the bookkeeping of a hook does not fail. -/
structure Legible (live : Table String String) : Prop where
  revisions : Listed live
  config : Readable live Store.configStem
  relations : Readable live Store.relationsStem

def SortedObject (object : Object) : Prop :=
  ∀ name value, object.get? name = some value → value.Canonical

namespace Legible

variable {live : Table String String} {invocation : Invocation}
  {revisionFile : Option (Except FileFault String)}

theorem after_charm (legible : Legible live) (invocation : Invocation) :
    (Store.afterCharmPlan invocation).Succeeds live := by
  obtain ⟨config, configWrites, configured⟩ :=
    legible.config.snapshot invocation.config
  have configTag := (Store.snapshot_plan_tagged invocation.config
    Store.config_stem_long).tagged live
  rw [configured] at configTag
  -- the first snapshot writes under its own stem only
  have kept := (readable_change_all_iff Store.relations_stem_long configTag (by decide)).2
    legible.relations
  obtain ⟨relations, relationsWrites, related⟩ := kept.snapshot invocation.relations
  exact Plan.Succeeds.bind configured (Plan.Succeeds.bind related ⟨_, _, rfl⟩)

theorem succeeds (legible : Legible live) (invocation : Invocation)
    (found : ∀ file, revisionFile = some file →
      ∃ revision, Store.charmRevision file = .ok revision) :
    (Store.invocationPlan invocation revisionFile).Succeeds live := by
  cases revisionFile with
  | none => exact legible.after_charm invocation
  | some file =>
      obtain ⟨revision, known⟩ := found file rfl
      obtain ⟨_, writes, charmed⟩ := Store.charm_plan_succeeds legible.revisions known
      have tag := (Store.charm_plan_tagged file).tagged live
      have lists := Store.charm_plan_lists file live
      rw [charmed] at tag lists
      have kept : Legible (live.changeAll writes) :=
        ⟨legible.revisions.change_all lists,
          (readable_change_all_iff Store.config_stem_long tag (by decide)).2 legible.config,
          (readable_change_all_iff Store.relations_stem_long tag (by decide)).2 legible.relations⟩
      exact Plan.Succeeds.bind charmed (kept.after_charm invocation)

end Legible

section Bookkeeping

variable {live : Table String String} {invocation : Invocation}
  {revisionFile : Option (Except FileFault String)} {changes : HookChanges} {writes : List Write}

theorem legible_of_planned
    (planned : Store.invocationPlan invocation revisionFile live = (.ok changes, writes))
    (listed : Listed live) : Legible live := by
  obtain ⟨charm, config, _, _, charmTag, configured, related, _⟩ :=
    Store.invocation_plan_parts planned
  have configTag := (Store.snapshot_plan_tagged invocation.config
    Store.config_stem_long).tagged (live.changeAll charm)
  rw [configured] at configTag
  obtain ⟨_, configRead, _⟩ := of_snapshot configured
  obtain ⟨_, relationsRead, _⟩ := of_snapshot related
  refine ⟨listed, ?_, ?_⟩
  · apply (readable_change_all_iff Store.config_stem_long charmTag (by decide)).1
    exact (of_get_range (by decide) configRead).1
  · apply (readable_change_all_iff Store.relations_stem_long charmTag (by decide)).1
    apply (readable_change_all_iff Store.relations_stem_long configTag (by decide)).1
    exact (of_get_range (by decide) relationsRead).1

theorem readable_after_parts
    (planned : Store.invocationPlan invocation revisionFile live = (.ok changes, writes)) :
    ∃ beforeConfig config beforeRelations relations,
      Store.snapshotPlan invocation.config Store.configStem beforeConfig =
        (.ok changes.config, config) ∧
      (Readable (live.changeAll writes) Store.configStem ↔
        Readable (beforeConfig.changeAll config) Store.configStem) ∧
      Store.snapshotPlan invocation.relations Store.relationsStem beforeRelations =
        (.ok changes.relations, relations) ∧
      (Readable (live.changeAll writes) Store.relationsStem ↔
        Readable (beforeRelations.changeAll relations) Store.relationsStem) := by
  obtain ⟨charm, config, relations, identity, _, configured, related, identityTag, whole⟩ :=
    Store.invocation_plan_parts planned
  have relationsTag := (Store.snapshot_plan_tagged invocation.relations
    Store.relations_stem_long).tagged ((live.changeAll charm).changeAll config)
  rw [related] at relationsTag
  refine ⟨_, config, _, relations, configured, ?_, related, ?_⟩
  · rw [whole, readable_change_all_iff Store.config_stem_long identityTag (by decide),
      readable_change_all_iff Store.config_stem_long relationsTag (by decide)]
  · rw [whole, readable_change_all_iff Store.relations_stem_long identityTag (by decide)]

theorem shallow_of_legible_after
    (planned : Store.invocationPlan invocation revisionFile live = (.ok changes, writes))
    (configSorted : SortedObject invocation.config)
    (relationsSorted : SortedObject invocation.relations)
    (legible : Legible (live.changeAll writes)) :
    Shallow invocation.config ∧ Shallow invocation.relations := by
  obtain ⟨_, _, _, _, configured, config, related, relations⟩ := readable_after_parts planned
  constructor
  · exact .of_readable configSorted (by decide) Store.config_stem_long configured
      (config.1 legible.config)
  · exact .of_readable relationsSorted (by decide) Store.relations_stem_long related
      (relations.1 legible.relations)

end Bookkeeping

namespace Store

/-! ## Reaching the body -/

/-- The body of a hook is reached: what the hook does, whatever its body, is to run the body on a
store in a scope and to end the scope. -/
def Reached (row : HookRow) (invocation : Invocation)
    (revisionFile : Option (Except FileFault String)) (store : Store) : Prop :=
  ∃ revision changes opened,
    ∀ {Result : Type} (body : Int → HookChanges → Body Store StoreError Result),
      runHook row invocation revisionFile body store =
        withinScope (fun _ => (.ok revision, opened)) (flush true) (flush false)
          (fun _ => body revision changes) store

variable {row : HookRow} {invocation : Invocation}
  {revisionFile : Option (Except FileFault String)} {store : Store}

theorem run_hook_entered {revision : Int} {changes : HookChanges} {opened : Store}
    (entered : enter (.hook row invocation revisionFile) store = (.ok (revision, changes), opened))
    {Result : Type} (body : Int → HookChanges → Body Store StoreError Result) :
    runHook row invocation revisionFile body store =
      withinScope (fun _ => (.ok revision, opened)) (flush true) (flush false)
        (fun _ => body revision changes) store := by
  rw [run_hook_eq, within_entered entered]

theorem Reached.entered (reached : Reached row invocation revisionFile store) :
    ∃ revision changes opened,
      enter (.hook row invocation revisionFile) store = (.ok (revision, changes), opened) := by
  obtain ⟨revision, changes, opened, same⟩ := reached
  cases entered : enter (.hook row invocation revisionFile) store with
  | mk answer left =>
      cases answer with
      | ok told => exact ⟨told.1, told.2, left, rfl⟩
      | error error =>
          -- a body that crashes would not be heard of
          have crashes := same fun _ _ store => ((.crashed, store) : Ending StoreError Unit × Store)
          rw [run_hook_eq, within_refused entered] at crashes
          simp only [withinScope] at crashes
          cases (Prod.mk.inj crashes).1

theorem opening_of_planned {entry : Entry} {contents : Database} {changes : HookChanges}
    {writes : List Write} (numbered : contents.sequence < Database.lastRevision)
    (planned : entry.plan contents.live = (.ok changes, writes)) :
    entry.opening contents =
      .ok ⟨contents.sequence + 1, changes,
        (contents.revised entry.row).assignAll (some (contents.sequence + 1)) writes⟩ := by
  have numbering : contents.openRevision entry.row =
      .ok (contents.sequence + 1, contents.revised entry.row) := by
    unfold Database.openRevision
    rw [if_pos numbered]
    rfl
  have sameLive : (contents.revised entry.row).live = contents.live := rfl
  simp only [Entry.opening, numbering, sameLive, planned]

theorem Reached.opening (reached : Reached row invocation revisionFile store) :
    ∃ opening,
      (Entry.hook row invocation revisionFile).opening store.file.contents = .ok opening := by
  obtain ⟨revision, changes, opened, entered⟩ := reached.entered
  rcases enter_cases (.hook row invocation revisionFile) store with
    ⟨error, refused⟩ | ⟨_, opening, opens, _⟩
  · rw [refused] at entered
    cases entered
  · exact ⟨opening, opens⟩

/-! ## After a body that writes nothing -/

/-- The store after a scope: what was pending is committed or thrown away. -/
structure Ended (base : Store) (pending : Database) (store : Store) : Prop where
  handle : ∃ connection, (connection = .idle ∨ connection = .closed) ∧
    store.handle = { base.handle with connection := connection, revision := none }
  file : store.file = base.file ∨ store.file = (base.withContents pending).file

namespace Ended

variable {base : Store} {pending : Database}

theorem outside (ended : Ended base pending store) : store.handle.Outside := by
  obtain ⟨connection, kind, shape⟩ := ended.handle
  rw [shape]
  refine ⟨rfl, fun pending writing => ?_⟩
  rcases kind with rfl | rfl <;> cases writing

theorem free (ended : Ended base pending store) (free : base.Free)
    (opened : store.handle.connection ≠ .closed) : store.Free := by
  obtain ⟨connection, kind, shape⟩ := ended.handle
  obtain ⟨handle, file⟩ := store
  have same := ended.file
  simp only at shape same
  subst shape
  rcases kind with rfl | rfl
  · rcases same with rfl | rfl
    · exact ⟨rfl, rfl, free.writable, free.hasTables, free.unlocked⟩
    · exact ⟨rfl, rfl, free.writable, free.hasTables, free.unlocked⟩
  · exact absurd rfl opened

theorem ends {operation : Operation} (ended : Ended base pending store)
    (ends : operation.kind.ends = true) :
    Ended base pending (operation.action store).2 := by
  obtain ⟨outcome, acted⟩ :=
    Operation.end_outside ends ended.outside.revision ended.outside.idle
  obtain ⟨connection, kind, shape⟩ := ended.handle
  rw [acted]
  refine ⟨?_, ended.file⟩
  unfold Operation.remainder
  split
  · exact ⟨.closed, .inr rfl, by rw [shape]⟩
  · refine ⟨_, ?_, by rw [shape]⟩
    split
    · exact .inr rfl
    · exact .inl rfl

theorem run {Result : Type} {procedure : Procedure Result} (ended : Ended base pending store)
    (silent : procedure.Silent store) : Ended base pending (procedure.run store).2 := by
  induction procedure generalizing store with
  | done ending => exact ended
  | perform operation next hypothesis =>
      obtain ⟨step, rest⟩ := silent
      refine hypothesis _ ?_ rest
      rcases step with ending | same
      · exact ended.ends ending
      · rw [same]
        exact ended

theorem of_silent {Result : Type} {procedure : Procedure Result} (free : base.Free)
    {revision : Int} (silent : procedure.Silent (base.locked.inScope revision pending)) :
    (procedure.run (base.locked.inScope revision pending)).2 =
        base.locked.inScope revision pending ∨
      Ended base pending (procedure.run (base.locked.inScope revision pending)).2 := by
  induction procedure with
  | done ending => exact .inl rfl
  | perform operation next hypothesis =>
      obtain ⟨step, rest⟩ := silent
      rcases step with ending | same
      · have ended : Ended base pending
            (operation.action (base.locked.inScope revision pending)).2 := by
          obtain ⟨answer, connection, kind, acted⟩ :=
            Operation.end_in_scope ending base.locked revision pending
          rw [acted]
          refine ⟨⟨connection, kind, rfl⟩, ?_⟩
          have unlocked : base.file.locked = false := free.unlocked
          split
          · right
            simp only [withContents, locked, ← unlocked]
          · left
            simp only [locked, ← unlocked]
        exact .inr (ended.run rest)
      · rw [same] at rest
        rw [Procedure.run, same]
        exact hypothesis _ rest

end Ended

/-- After a hook that returned, whose body wrote nothing, the bookkeeping is committed, unless the
body has thrown it away. -/
theorem ended_of_returned {Result : Type} {body : Int → HookChanges → Procedure Result}
    {result : Result} {later : Store}
    (ran : runHook row invocation revisionFile (fun revision changes =>
      (body revision changes).run) store = (.returned result, later))
    (silent : ∀ revision changes opened,
      enter (.hook row invocation revisionFile) store = (.ok (revision, changes), opened) →
        (body revision changes).Silent opened) :
    store.Free ∧ ∃ opening,
      (Entry.hook row invocation revisionFile).opening store.file.contents = .ok opening ∧
        Ended store opening.pending later := by
  rw [run_hook_eq] at ran
  rcases enter_cases (.hook row invocation revisionFile) store with
    ⟨error, refused⟩ | ⟨free, opening, opens, entered⟩
  · rw [within_refused refused] at ran
    cases ran
  · refine ⟨free, opening, opens, ?_⟩
    have left := Ended.of_silent free (silent _ _ _ entered)
    rw [within_entered entered] at ran
    simp only [withinScope] at ran
    cases bodyRan : (body opening.revision opening.changes).run
        (store.locked.inScope opening.revision opening.pending) with
    | mk ending middle =>
        rw [bodyRan] at ran left
        cases ending with
        | failed | crashed => cases ran
        | returned found =>
            rcases left with held | ended
            · simp only at held
              subst held
              simp only [flush_true_locked free] at ran
              cases ran
              refine ⟨⟨.idle, .inl rfl, ?_⟩, .inr rfl⟩
              rw [← free.idle, ← free.outside]
              rfl
            · simp only [flush_outside ended.outside] at ran
              cases ran
              exact ended

theorem shallow_of_opening {contents : Database} {opening further : Opening}
    (listed : Listed contents.live)
    (opens : (Entry.hook row invocation revisionFile).opening contents = .ok opening)
    (configSorted : SortedObject invocation.config)
    (relationsSorted : SortedObject invocation.relations) {nextRow : HookRow} {next : Invocation}
    {nextFile : Option (Except FileFault String)}
    (opensNext : (Entry.hook nextRow next nextFile).opening opening.pending = .ok further) :
    Shallow invocation.config ∧ Shallow invocation.relations := by
  have live : opening.pending.live = contents.live.changeAll
      ((Entry.hook row invocation revisionFile).writes contents.live) := by
    rw [(Entry.opening_ok opens).2, Database.live_assign_all]
    rfl
  have lists := (Entry.hook row invocation revisionFile).writes_list contents.live
  have stillListed : Listed opening.pending.live := by
    rw [live]
    exact listed.change_all lists
  have legible := legible_of_planned (Entry.opening_planned opensNext) stillListed
  rw [live] at legible
  exact shallow_of_legible_after (Entry.opening_planned opens) configSorted relationsSorted legible

end Store

namespace Fleet

variable {Name : Type} [DecidableEq Name]

section Next

variable {fleet : Fleet Name} {handle : Handle} {row : HookRow} {invocation : Invocation}
  {revisionFile : Option (Except FileFault String)} {Result : Type}
  {body : Int → HookChanges → Procedure Result} {result : Result} {later : Store}

/-- If a value was nested too deep and the hook was committed, no hook on the file reaches its
body any more. -/
theorem deep_hook_blocks_next (keeps : fleet.KeepsList)
    (ran : Store.runHook row invocation revisionFile (fun revision changes =>
      (body revision changes).run) ⟨handle, fleet.file⟩ = (.returned result, later))
    (silent : ∀ revision changes opened,
      Store.enter (.hook row invocation revisionFile) ⟨handle, fleet.file⟩ =
        (.ok (revision, changes), opened) → (body revision changes).Silent opened)
    (configSorted : SortedObject invocation.config)
    (relationsSorted : SortedObject invocation.relations)
    (deep : ¬(Shallow invocation.config ∧ Shallow invocation.relations))
    (saved : later.file.contents.sequence ≠ fleet.file.contents.sequence) {next : Store}
    (same : next.file = later.file) (nextRow : HookRow) (other : Invocation)
    (nextFile : Option (Except FileFault String)) :
    ¬Store.Reached nextRow other nextFile next := by
  intro reached
  obtain ⟨_, opening, opens, ended⟩ := Store.ended_of_returned ran silent
  rcases ended.file with kept | committed
  · rw [kept] at saved
    exact saved rfl
  · have contents : next.file.contents = opening.pending := by
      rw [same, committed]
      rfl
    obtain ⟨further, opensNext⟩ := reached.opening
    rw [contents] at opensNext
    exact deep (Store.shallow_of_opening keeps.listed.committed opens configSorted
      relationsSorted opensNext)

end Next

def plainInvocation (config : Object) : Invocation where
  hookName := "install"
  unit := none
  relationId := none
  charmDirectory := none
  environment := ∅
  config := config
  relations := ∅

def plainHook (config : Object) : Body Store StoreError Unit :=
  Store.runHook ⟨"install", "today"⟩ (plainInvocation config) none
    fun _ _ => (Procedure.done (.returned ())).run

def oneNumberLeft : DatabaseFile :=
  { Store.inMemory.file with
    contents := { Database.empty with
      hooks := .ofList [(9223372036854775806, ⟨"max", "x"⟩)]
      sequence := 9223372036854775806 } }

end Fleet

end UnitState
