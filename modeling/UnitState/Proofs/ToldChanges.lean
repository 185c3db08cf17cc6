import UnitState.Proofs.Snapshots

/-!
# What a hook is told

The body of a hook is told what has changed since the last hook. Over a row of calls on one
store this is what has changed since the last call that returned: its configuration and its
relation data are what the store keeps under the two stems, and a call that failed has left no
trace there.
-/

set_option autoImplicit false

namespace UnitState

open Json

theorem Plan.of_bind_ok {Result Other : Type} {plan : Plan Result} {next : Result → Plan Other}
    {live : Table String String} {other : Other} {writes : List Write}
    (planned : (plan >>= next) live = (.ok other, writes)) :
    ∃ result first later, plan live = (.ok result, first) ∧
      next result (live.changeAll first) = (.ok other, later) ∧ writes = first ++ later := by
  cases shape : plan live with
  | mk result first =>
      cases result with
      | error error =>
          rw [bind_error shape] at planned
          cases planned
      | ok result =>
          rw [bind_ok shape] at planned
          obtain ⟨succeeds, whole⟩ := Prod.mk.inj planned
          exact ⟨result, first, _, rfl, Prod.ext succeeds rfl, whole.symm⟩

theorem Table.change_all_append (live : Table String String) (writes later : List Write) :
    live.changeAll (writes ++ later) = (live.changeAll writes).changeAll later :=
  List.foldl_append

theorem Store.config_stem_long : 4 ≤ configStem.toList.length := by decide

theorem Store.relations_stem_long : 4 ≤ relationsStem.toList.length := by decide

structure Recorded (live : Table String String) (config relations : Object) : Prop where
  config : Stored live Store.configStem config
  relations : Stored live Store.relationsStem relations

namespace Recorded

variable {live : Table String String} {config relations : Object}

theorem keep (recorded : Recorded live config relations) {writes : List Write}
    (apart : ∀ write ∈ writes, ∀ name,
      write.key ≠ Store.configStem ++ name ∧ write.key ≠ Store.relationsStem ++ name) :
    Recorded (live.changeAll writes) config relations where
  config := recorded.config.keep fun write member name => (apart write member name).1
  relations := recorded.relations.keep fun write member name => (apart write member name).2

theorem keep_tagged (recorded : Recorded live config relations) {writes : List Write}
    {tags : List (List Char)} (tagged : ∀ write ∈ writes, Store.keyTag write.key ∈ tags)
    (apart : Store.keyTag Store.configStem ∉ tags ∧ Store.keyTag Store.relationsStem ∉ tags) :
    Recorded (live.changeAll writes) config relations where
  config := recorded.config.keep_tagged Store.config_stem_long tagged apart.1
  relations := recorded.relations.keep_tagged Store.relations_stem_long tagged apart.2

end Recorded

theorem Store.invocation_plan_after_charm {invocation : Invocation}
    {revisionFile : Option (Except FileFault String)} {live : Table String String}
    {changes : HookChanges} {writes : List Write}
    (planned : invocationPlan invocation revisionFile live = (.ok changes, writes)) :
    ∃ charm rest, (∀ write ∈ charm, keyTag write.key ∈ [keyTag charmRevisionsKey]) ∧
      afterCharmPlan invocation (live.changeAll charm) = (.ok changes, rest) ∧
      writes = charm ++ rest := by
  cases revisionFile with
  | none => exact ⟨[], writes, List.forall_mem_nil _, planned, rfl⟩
  | some file =>
      obtain ⟨_, charm, rest, charmed, planned, whole⟩ := Plan.of_bind_ok planned
      refine ⟨charm, rest, fun write member => ?_, planned, whole⟩
      have tags := (charm_plan_tagged file).tagged live
      rw [charmed] at tags
      exact tags write member

theorem Store.after_charm_plan_parts {invocation : Invocation} {live : Table String String}
    {changes : HookChanges} {writes : List Write}
    (planned : afterCharmPlan invocation live = (.ok changes, writes)) :
    ∃ config relations identity,
      snapshotPlan invocation.config configStem live = (.ok changes.config, config) ∧
      snapshotPlan invocation.relations relationsStem (live.changeAll config) =
        (.ok changes.relations, relations) ∧
      (∀ texts, identityPlan invocation texts = (.ok (), identity)) ∧
      writes = config ++ (relations ++ identity) := by
  obtain ⟨_, config, _, configured, afterConfig, rfl⟩ := Plan.of_bind_ok planned
  obtain ⟨_, relations, _, related, afterRelations, rfl⟩ := Plan.of_bind_ok afterConfig
  obtain ⟨_, identity, _, identified, ended, rfl⟩ := Plan.of_bind_ok afterRelations
  cases ended
  refine ⟨config, relations, identity, configured, related, fun texts => identified, ?_⟩
  rw [List.append_nil]

theorem Store.invocation_plan_parts {invocation : Invocation}
    {revisionFile : Option (Except FileFault String)} {live : Table String String}
    {changes : HookChanges} {writes : List Write}
    (planned : invocationPlan invocation revisionFile live = (.ok changes, writes)) :
    ∃ charm config relations identity,
      (∀ write ∈ charm, keyTag write.key ∈ [keyTag charmRevisionsKey]) ∧
      snapshotPlan invocation.config configStem (live.changeAll charm) =
        (.ok changes.config, config) ∧
      snapshotPlan invocation.relations relationsStem
        ((live.changeAll charm).changeAll config) = (.ok changes.relations, relations) ∧
      (∀ write ∈ identity, keyTag write.key ∈ [keyTag "env", keyTag "unit", keyTag "relid"]) ∧
      live.changeAll writes =
        (((live.changeAll charm).changeAll config).changeAll relations).changeAll identity := by
  obtain ⟨charm, _, charmTag, afterCharm, rfl⟩ := invocation_plan_after_charm planned
  obtain ⟨config, relations, identity, configured, related, identified, rfl⟩ :=
    after_charm_plan_parts afterCharm
  have identityTag := (identity_plan_tagged invocation).tagged live
  rw [identified] at identityTag
  refine ⟨charm, config, relations, identity, charmTag, configured, related, identityTag, ?_⟩
  simp only [Table.change_all_append]

/-- The bookkeeping of a hook tells the deltas against what is stored, and stores what is there
now. -/
theorem Recorded.invocation {live : Table String String} {config relations : Object}
    (recorded : Recorded live config relations) (configBefore : Retrievable config)
    (relationsBefore : Retrievable relations) {invocation : Invocation}
    (configAfter : Retrievable invocation.config)
    (relationsAfter : Retrievable invocation.relations)
    {revisionFile : Option (Except FileFault String)} {changes : HookChanges}
    {writes : List Write}
    (planned : Store.invocationPlan invocation revisionFile live = (.ok changes, writes)) :
    changes = ⟨computeDelta config invocation.config,
        computeDelta relations invocation.relations⟩ ∧
      Recorded (live.changeAll writes) invocation.config invocation.relations := by
  obtain ⟨charm, configWrites, relationsWrites, identity, charmTag, configured, related,
    identityTag, whole⟩ := Store.invocation_plan_parts planned
  have charmed := recorded.keep_tagged charmTag (by decide)
  -- each snapshot replaces the rows under its own stem and leaves those under the other alone
  obtain ⟨_, toldConfig, configTag, configStored⟩ :=
    charmed.config.snapshot (by decide) Store.config_stem_long configBefore configAfter
  rw [configured] at toldConfig
  obtain ⟨config, rfl⟩ := Prod.mk.inj toldConfig
  have relationsKept :=
    charmed.relations.keep_tagged Store.relations_stem_long configTag (by decide)
  obtain ⟨_, toldRelations, relationsTag, relationsStored⟩ :=
    relationsKept.snapshot (by decide) Store.relations_stem_long relationsBefore relationsAfter
  rw [related] at toldRelations
  obtain ⟨relations, rfl⟩ := Prod.mk.inj toldRelations
  have configKept := configStored.keep_tagged Store.config_stem_long relationsTag (by decide)
  have after := (Recorded.mk configKept relationsStored).keep_tagged identityTag (by decide)
  rw [whole]
  refine ⟨?_, after⟩
  rw [← Except.ok.inj config, ← Except.ok.inj relations]

theorem Entry.opening_planned {entry : Entry} {contents : Database} {opening : Opening}
    (success : entry.opening contents = .ok opening) :
    entry.plan contents.live = (.ok opening.changes, entry.writes contents.live) := by
  unfold Entry.opening at success
  split at success
  · cases success
  · rename_i revision opened found
    obtain ⟨_, rfl⟩ := Database.open_revision_ok found
    split at success
    · cases success
    · rename_i changes writes planned
      cases success
      have same : (contents.revised entry.row).live = contents.live := rfl
      rw [same] at planned
      exact Prod.ext (by rw [planned]) rfl

/-! ## Calls of hooks -/

structure HookCall (Result : Type) where
  row : HookRow
  invocation : Invocation
  revisionFile : Option (Except FileFault String)
  body : Int → HookChanges → Routine Result

namespace HookCall

variable {Result : Type}

def entry (call : HookCall Result) : Entry :=
  .hook call.row call.invocation call.revisionFile

def run (call : HookCall Result) : Body Store StoreError Result :=
  Store.runHook call.row call.invocation call.revisionFile
    fun revision changes => (call.body revision changes).run

theorem whole_or_nothing (call : HookCall Result) (store : Store) :
    Store.WholeOrNothing call.entry call.body store (call.run store) := by
  rw [run, Store.run_hook_eq]
  exact Store.within_whole_or_nothing call.entry call.body store

/-- A call whose configuration and relation data can be read back, and whose body writes under
neither of the stems. -/
structure Admissible (call : HookCall Result) (store : Store) : Prop where
  config : Retrievable call.invocation.config
  relations : Retrievable call.invocation.relations
  clear : ∀ revision changes opened,
    Store.enter call.entry store = (.ok (revision, changes), opened) →
      ∀ write ∈ (call.body revision changes).writes opened,
        Database.startsWith Store.configStem write.key = false ∧
          Database.startsWith Store.relationsStem write.key = false

end HookCall

structure Course where
  store : Store
  config : Object
  relations : Object

namespace Course

variable {Result : Type}

def start (store : Store) : Course := ⟨store, ∅, ∅⟩

def after (course : Course) (call : HookCall Result) : Course :=
  match call.run course.store with
  | (.returned _, store) => ⟨store, call.invocation.config, call.invocation.relations⟩
  | (.failed _, store) | (.crashed, store) => { course with store := store }

def run (course : Course) (calls : List (HookCall Result)) : Course := calls.foldl after course

def Admits (course : Course) : List (HookCall Result) → Prop
  | [] => True
  | call :: later => call.Admissible course.store ∧ (course.after call).Admits later

/-- What the store keeps under the stems is what the last call that returned had. -/
structure Kept (course : Course) : Prop where
  recorded : Recorded course.store.file.contents.live course.config course.relations
  config : Retrievable course.config
  relations : Retrievable course.relations

theorem start_kept {store : Store}
    (clear : ∀ key, store.file.contents.live.contains key = true →
      Database.startsWith Store.configStem key = false ∧
        Database.startsWith Store.relationsStem key = false) : (start store).Kept := by
  have absent : ∀ {stem : String}, '\x00' ∉ stem.toList →
      (∀ key, store.file.contents.live.contains key = true →
        Database.startsWith stem key = false) → Stored store.file.contents.live stem ∅ := by
    intro stem plain apart name
    cases found : store.file.contents.live.get? (stem ++ name) with
    | none => rfl
    | some text =>
        have outside := apart (stem ++ name) (by rw [Table.contains, found]; rfl)
        rw [(Database.starts_with_iff plain).2 ⟨name, rfl⟩] at outside
        cases outside
  constructor
  · constructor
    · exact absent (by decide) fun key known => (clear key known).1
    · exact absent (by decide) fun key known => (clear key known).2
  · intro name value found
    cases found
  · intro name value found
    cases found

namespace Kept

variable {course : Course} {call : HookCall Result}

/-- A call whose body is reached tells the changes since the last call that returned. -/
theorem told (kept : course.Kept) (admissible : call.Admissible course.store) {opening : Opening}
    (opens : call.entry.opening course.store.file.contents = .ok opening) :
    opening.changes = ⟨computeDelta course.config call.invocation.config,
        computeDelta course.relations call.invocation.relations⟩ ∧
      Recorded
        (course.store.file.contents.live.changeAll
          (call.entry.writes course.store.file.contents.live))
        call.invocation.config call.invocation.relations :=
  kept.recorded.invocation kept.config kept.relations admissible.config admissible.relations
    (Entry.opening_planned opens)

/-- A call that returns leaves its own configuration and relation data under the stems, and any
other call leaves what was there. -/
theorem after (kept : course.Kept) (admissible : call.Admissible course.store) :
    (course.after call).Kept := by
  have whole := call.whole_or_nothing course.store
  unfold Course.after
  split
  · rename_i result store ran
    rw [ran] at whole
    obtain ⟨changes, opened, entered, left⟩ := whole.whole result rfl
    rcases Store.enter_cases call.entry course.store with
      ⟨error, refused⟩ | ⟨_, opening, opens, _⟩
    · rw [refused] at entered
      cases entered
    · have bookkept := (kept.told admissible opens).2
      have apart := admissible.clear _ _ _ entered
      refine ⟨?_, admissible.config, admissible.relations⟩
      have live : store.file.contents.live =
          (course.store.file.contents.live.changeAll
            (call.entry.writes course.store.file.contents.live)).changeAll
              ((call.body (course.store.file.contents.sequence + 1) changes).writes opened) := by
        simp only at left
        rw [left, ← Table.change_all_append]
        exact Database.live_assign_all _ _ _
      rw [live]
      apply bookkept.keep
      intro write member name
      obtain ⟨configClear, relationsClear⟩ := apart write member
      constructor
      · intro same
        rw [(Database.starts_with_iff (by decide)).2 ⟨name, same⟩] at configClear
        cases configClear
      · intro same
        rw [(Database.starts_with_iff (by decide)).2 ⟨name, same⟩] at relationsClear
        cases relationsClear
  · rename_i error store ran
    rw [ran] at whole
    have same : store = course.store := whole.nothing nofun
    rw [same]
    exact kept
  · rename_i store ran
    rw [ran] at whole
    have same : store = course.store := whole.nothing nofun
    rw [same]
    exact kept

theorem run (kept : course.Kept) {calls : List (HookCall Result)}
    (admits : course.Admits calls) : (course.run calls).Kept := by
  induction calls generalizing course with
  | nil => exact kept
  | cons call later hypothesis =>
      obtain ⟨admissible, rest⟩ := admits
      exact hypothesis (kept.after admissible) rest

end Kept

theorem Admits.split {course : Course} {earlier later : List (HookCall Result)}
    {call : HookCall Result} (admits : course.Admits (earlier ++ call :: later)) :
    course.Admits earlier ∧ call.Admissible (course.run earlier).store := by
  induction earlier generalizing course with
  | nil => exact ⟨trivial, admits.1⟩
  | cons first rest hypothesis =>
      obtain ⟨admissible, others⟩ := admits
      obtain ⟨before, turn⟩ := hypothesis others
      exact ⟨⟨admissible, before⟩, turn⟩

/-- In a row of calls on one store that starts with nothing under the two stems, a body is told
what has changed since the last call that returned. -/
theorem told_since_last_return (store : Store)
    (clear : ∀ key, store.file.contents.live.contains key = true →
      Database.startsWith Store.configStem key = false ∧
        Database.startsWith Store.relationsStem key = false)
    (earlier : List (HookCall Result)) (call : HookCall Result) (later : List (HookCall Result))
    (admits : (start store).Admits (earlier ++ call :: later)) :
    let course := (start store).run earlier
    let changes : HookChanges := ⟨computeDelta course.config call.invocation.config,
      computeDelta course.relations call.invocation.relations⟩
    ∀ {Other : Type} (body : Int → HookChanges → Body Store StoreError Other),
      Store.runHook call.row call.invocation call.revisionFile body course.store =
        Store.runHook call.row call.invocation call.revisionFile
          (fun revision _ => body revision changes) course.store := by
  intro course changes Other body
  obtain ⟨before, admissible⟩ := admits.split
  have kept : course.Kept := (start_kept clear).run before
  rw [Store.run_hook_eq, Store.run_hook_eq]
  rcases Store.enter_cases call.entry course.store with
    ⟨error, refused⟩ | ⟨_, opening, opens, entered⟩
  · rw [HookCall.entry] at refused
    rw [Store.within_refused refused, Store.within_refused refused]
  · have told : opening.changes = changes := (kept.told admissible opens).1
    rw [HookCall.entry, told] at entered
    rw [Store.within_entered entered, Store.within_entered entered]

def portCall (port : Int) (inRange : InIntegerRange port) (ending : Ending StoreError Unit) :
    HookCall Unit where
  row := ⟨"config-changed", "today"⟩
  invocation := {
    hookName := "config-changed", unit := some "web/0", relationId := none
    charmDirectory := none, environment := ∅
    config := .ofList [("port", .number (.integer port inRange))], relations := ∅ }
  revisionFile := some (.ok "7")
  body _ _ := .perform (.ask (.set "mode" (.bool true))) rfl fun _ => .done ending

theorem port_call_admissible (port : Int) (inRange : InIntegerRange port)
    (ending : Ending StoreError Unit) (store : Store) :
    (portCall port inRange ending).Admissible store where
  config := by
    intro name value found
    have member := Table.get?_eq_some_iff.1 found
    cases List.mem_singleton.1 member
    exact ⟨⟨trivial, rfl⟩, Nat.zero_le _⟩
  relations := by
    intro name value found
    cases found
  clear := by
    intro revision changes opened _ write member
    cases List.mem_singleton.1 member
    exact ⟨by decide, by decide⟩

def portCalls : List (HookCall Unit) :=
  [portCall 80 (by decide) (.returned ()), portCall 81 (by decide) .crashed]

theorem port_calls_admitted (last : HookCall Unit) (admissible : ∀ store, last.Admissible store) :
    (start Store.inMemory).Admits (portCalls ++ last :: []) :=
  ⟨port_call_admissible 80 _ _ _, port_call_admissible 81 _ _ _, admissible _, trivial⟩

/-- The call that crashed is not what the next one is compared with. -/
theorem port_told_across_crash :
    let course := (start Store.inMemory).run portCalls
    let first := (portCall 80 (by decide) (.returned ())).invocation
    let last := portCall 82 (by decide) (.returned ())
    course.config = first.config ∧ (last.run course.store).1 = .returned () ∧
      Store.runHook last.row last.invocation last.revisionFile
          (fun _ changes store => (.returned changes, store)) course.store =
        Store.runHook last.row last.invocation last.revisionFile
          (fun _ _ store => (.returned ⟨computeDelta first.config last.invocation.config,
            computeDelta course.relations last.invocation.relations⟩, store)) course.store := by
  have config : ((start Store.inMemory).run portCalls).config =
      (portCall 80 (by decide) (.returned ())).invocation.config := by decide
  refine ⟨config, by decide, ?_⟩
  have told := told_since_last_return Store.inMemory (by intro key known; cases known) portCalls
    (portCall 82 (by decide) (.returned ())) []
    (port_calls_admitted _ (port_call_admissible 82 _ _))
    (fun _ changes store => (.returned changes, store))
  rw [config] at told
  exact told

end Course

end UnitState
