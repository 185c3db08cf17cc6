import UnitState.Proofs.NextHook
import UnitState.Proofs.SnapshotOutcome

/-!
# A hook that is run again

Each part of the bookkeeping of a hook reads what the same part has left the last time: a list of
revisions that has the charm's in it, under either stem an object that is alike to the current
one, and the identity of the invocation as it is written now. The parts write keys of their own,
so none of them spoils what another has left. With the same invocation and the same revision of
the charm there is nothing to tell and nothing to write, and all that a second run adds is a
revision. It cannot do without: once the numbers are used up, the second run fails.
-/

set_option autoImplicit false

namespace UnitState

open Json

namespace Store

/-! ## What a part finds of itself -/

section Again

variable {live after : Table String String} {writes : List Write}

theorem get_with_congr {Result : Type} (read : String → Except Fault Result) {key : String}
    (same : after.get? key = live.get? key) :
    (holding after).getWith read key = (holding live).getWith read key := by
  have raw : ∀ texts, (holding texts).getRaw key = .ok (texts.get? key) := fun _ => rfl
  rw [getWith, getWith, raw, raw, same]

theorem charm_plan_of_seen {file : Except FileFault String} {revision : String}
    {stored : Option (List String)} (known : charmRevision file = .ok revision)
    (looked : (holding live).getWith (Decoder.list Decoder.text).run charmRevisionsKey = .ok stored)
    (seen : (stored.getD []).contains revision = true) : charmPlan file live = (.ok (), []) := by
  have knownPlan : Plan.ofExcept (charmRevision file) live = (.ok revision, []) := by
    rw [Plan.ofExcept, known]
  have lookedPlan : Plan.look (fun store =>
      store.getWith (Decoder.list Decoder.text).run charmRevisionsKey) live = (.ok stored, []) :=
    congrArg (·, []) looked
  have whole := Plan.bind_ok lookedPlan fun stored =>
    if (stored.getD []).contains revision then pure ()
    else Plan.carryOut [⟨charmRevisionsKey, some (revisionsText (stored.getD [] ++ [revision]))⟩]
  rw [seen] at whole
  exact (Plan.bind_ok knownPlan _).trans whole

theorem charm_plan_again {file : Except FileFault String}
    (planned : charmPlan file live = (.ok (), writes))
    (same : after.get? charmRevisionsKey = (live.changeAll writes).get? charmRevisionsKey) :
    charmPlan file after = (.ok (), []) := by
  obtain ⟨revision, _, _, read, rest, rfl⟩ := Plan.of_bind_ok planned
  obtain ⟨stored, _, _, looked, written, rfl⟩ := Plan.of_bind_ok rest
  obtain ⟨known, rfl⟩ := Prod.mk.inj read
  obtain ⟨found, rfl⟩ := Prod.mk.inj looked
  simp only [List.nil_append] at same
  simp only at written
  split at written
  · rename_i seen
    cases written
    exact charm_plan_of_seen known ((get_with_congr _ same).trans found) seen
  · cases written
    have text : after.get? charmRevisionsKey =
        some (revisionsText (stored.getD [] ++ [revision])) :=
      same.trans (Table.get?_insert_self _ _ _)
    have read := get_with_found text (revisions_text_read (stored.getD [] ++ [revision]))
    exact charm_plan_of_seen known read (by simp)

theorem get_range_congr {stem : String} (plain : '\x00' ∉ stem.toList)
    (same : ∀ name, after.get? (stem ++ name) = live.get? (stem ++ name)) (strip : Bool) :
    (holding after).getRange stem strip = (holding live).getRange stem strip := by
  have rows : after.filter (fun key _ => Database.startsWith stem key) =
      live.filter (fun key _ => Database.startsWith stem key) := by
    apply Table.ext_get?
    intro key
    rw [Table.get?_filter, Table.get?_filter]
    by_cases starts : Database.startsWith stem key = true
    · obtain ⟨name, rfl⟩ := (Database.starts_with_iff plain).1 starts
      rw [same name]
    · simp [starts]
  have ranges : ({ Database.empty with live := after } : Database).range stem =
      ({ Database.empty with live := live } : Database).range stem := congrArg Table.entries rows
  have looked : ∀ texts, (holding texts).view Schema.liveTable =
      .ok { Database.empty with live := texts } := fun _ => rfl
  unfold getRange
  simp only [looked, Bind.bind, Except.bind, ranges]

theorem snapshot_plan_again {current : Object} {stem : String} {deltas : DeltaSet}
    (plain : '\x00' ∉ stem.toList) (storable : Storable current)
    (planned : snapshotPlan current stem live = (.ok deltas, writes))
    (same : ∀ name, after.get? (stem ++ name) = (live.changeAll writes).get? (stem ++ name)) :
    snapshotPlan current stem after = (.ok ∅, []) := by
  obtain ⟨before, left, _, ranged, told, readBack, _⟩ :=
    snapshot_plan_outcome plain storable.rereadable planned
  have unchanged : (computeDelta (left.getD ∅) current).isEmpty = true := by
    rw [readBack]
    split
    · rename_i empty
      rw [← told, empty]
    · exact compute_delta_empty_iff.2 (Value.alike_refl storable.sorted)
  have looked : Plan.look (fun store => store.delta current stem) after = (.ok none, []) := by
    have found := (get_range_congr plain same true).trans ranged
    simp only [Plan.look, delta, found, Bind.bind, Except.bind, unchanged]
    rfl
  rw [snapshotPlan, Plan.bind_ok looked]
  rfl

end Again

/-! ## The bookkeeping run again -/

section Whole

variable {invocation : Invocation} {live : Table String String} {changes : HookChanges}
  {writes : List Write}

theorem after_charm_plan_again (config : Storable invocation.config)
    (relations : Storable invocation.relations)
    (planned : afterCharmPlan invocation live = (.ok changes, writes)) :
    ∃ again, afterCharmPlan invocation (live.changeAll writes) = (.ok ⟨∅, ∅⟩, again) ∧
      (live.changeAll writes).Has again := by
  obtain ⟨configWrites, relationsWrites, identity, configured, related, identified, rfl⟩ :=
    after_charm_plan_parts planned
  have relationsTag := (snapshot_plan_tagged invocation.relations
    relations_stem_long).tagged (live.changeAll configWrites)
  rw [related] at relationsTag
  have identityTag := (identity_plan_tagged invocation).tagged live
  have agreeing := (identity_plan_tagged invocation).agreeing live
  rw [identified] at identityTag agreeing
  simp only [Table.change_all_append]
  generalize left : ((live.changeAll configWrites).changeAll relationsWrites).changeAll identity =
    after
  have configKept : ∀ name, after.get? (configStem ++ name) =
      (live.changeAll configWrites).get? (configStem ++ name) := by
    intro name
    rw [← left, Table.get?_change_all_of_ne
        (key_ne_of_tagged config_stem_long identityTag (by decide) name),
      Table.get?_change_all_of_ne
        (key_ne_of_tagged config_stem_long relationsTag (by decide) name)]
  have relationsKept : ∀ name, after.get? (relationsStem ++ name) =
      ((live.changeAll configWrites).changeAll relationsWrites).get? (relationsStem ++ name) := by
    intro name
    rw [← left]
    exact Table.get?_change_all_of_ne
      (key_ne_of_tagged relations_stem_long identityTag (by decide) name)
  have configAgain := snapshot_plan_again (by decide) config configured configKept
  have relationsAgain := snapshot_plan_again (by decide) relations related relationsKept
  refine ⟨identity, ?_, ?_⟩
  · simp only [afterCharmPlan, Bind.bind, Plan.bind, configAgain, relationsAgain, identified,
      Table.changeAll, List.foldl_nil, Pure.pure, Plan.pure, List.append_nil, List.nil_append]
  · rw [← left]
    exact Table.has_change_all agreeing

/-- The bookkeeping on what it has left tells nothing, and writes what is there already. -/
theorem invocation_plan_again {revisionFile : Option (Except FileFault String)}
    (config : Storable invocation.config) (relations : Storable invocation.relations)
    (planned : invocationPlan invocation revisionFile live = (.ok changes, writes)) :
    ∃ again, invocationPlan invocation revisionFile (live.changeAll writes) =
        (.ok ⟨∅, ∅⟩, again) ∧ (live.changeAll writes).Has again := by
  cases revisionFile with
  | none => exact after_charm_plan_again config relations planned
  | some file =>
      obtain ⟨_, charm, rest, charmed, afterCharm, rfl⟩ := Plan.of_bind_ok planned
      have later : afterCharmPlan invocation (live.changeAll charm) = (.ok changes, rest) :=
        afterCharm
      have restTag := (after_charm_plan_tagged invocation).tagged (live.changeAll charm)
      rw [later] at restTag
      rw [Table.change_all_append]
      have charmKept : ∀ write ∈ rest, write.key ≠ charmRevisionsKey := by
        rintro write member same
        have tag := restTag write member
        rw [same] at tag
        exact absurd tag (by decide)
      have charmAgain := charm_plan_again charmed (Table.get?_change_all_of_ne charmKept)
      obtain ⟨again, told, present⟩ := after_charm_plan_again config relations later
      refine ⟨again, ?_, present⟩
      exact (Plan.bind_ok charmAgain fun _ => afterCharmPlan invocation).trans
        (Prod.ext (congrArg Prod.fst told) (congrArg Prod.snd told))

end Whole

/-! ## The keys of the bookkeeping -/

inductive Bookkept : String → Prop
  | charm : Bookkept charmRevisionsKey
  | config (name : String) : Bookkept (configStem ++ name)
  | relations (name : String) : Bookkept (relationsStem ++ name)
  | environment : Bookkept "env"
  | unit : Bookkept "unit"
  | relation : Bookkept "relid"

theorem charm_plan_keys (file : Except FileFault String) :
    (charmPlan file).Writes fun write => Bookkept write.key := by
  refine Plan.Writes.bind (.silent (fun _ => rfl) _) fun revision => ?_
  refine Plan.Writes.bind (.silent (fun _ => rfl) _) fun stored => ?_
  simp only
  split
  · exact .silent (fun _ => rfl) _
  · intro live write member
    rw [List.mem_singleton.1 member]
    exact .charm

theorem identity_plan_keys (invocation : Invocation) :
    (identityPlan invocation).Writes fun write => Bookkept write.key := by
  intro live
  exact List.forall_mem_cons.2 ⟨.environment,
    List.forall_mem_cons.2 ⟨.unit, List.forall_mem_singleton.2 .relation⟩⟩

theorem after_charm_plan_keys {invocation : Invocation} {live : Table String String}
    {changes : HookChanges} {writes : List Write}
    (planned : afterCharmPlan invocation live = (.ok changes, writes)) :
    ∀ write ∈ writes, Bookkept write.key := by
  obtain ⟨config, relations, identity, configured, related, identified, rfl⟩ :=
    after_charm_plan_parts planned
  have identityKeys := identity_plan_keys invocation live
  rw [identified] at identityKeys
  simp only [List.forall_mem_append]
  refine ⟨fun write member => ?_, fun write member => ?_, identityKeys⟩
  · obtain ⟨name, key⟩ := snapshot_plan_keys configured write member
    exact key ▸ .config name
  · obtain ⟨name, key⟩ := snapshot_plan_keys related write member
    exact key ▸ .relations name

theorem invocation_plan_keys {invocation : Invocation}
    {revisionFile : Option (Except FileFault String)} {live : Table String String}
    {changes : HookChanges} {writes : List Write}
    (planned : invocationPlan invocation revisionFile live = (.ok changes, writes)) :
    ∀ write ∈ writes, Bookkept write.key := by
  cases revisionFile with
  | none => exact after_charm_plan_keys planned
  | some file =>
      obtain ⟨_, charm, rest, charmed, afterCharm, rfl⟩ := Plan.of_bind_ok planned
      have charmKeys := charm_plan_keys file live
      rw [charmed] at charmKeys
      exact List.forall_mem_append.2 ⟨charmKeys, after_charm_plan_keys afterCharm⟩

end Store

/-! ## The second run -/

/-- Whether a body leaves the end of its scope to the hook, or commits it itself. -/
def Procedure.Saves {Result : Type} (procedure : Procedure Result) (store : Store) : Prop :=
  ∀ operation rest, procedure.firstEnd store = some (operation, rest) → operation.kind = .commit

namespace Store

/-- A body that writes nothing and does not throw its scope away leaves what was pending to be
committed, or committed already. -/
theorem kept_of_silent {Result : Type} {procedure : Procedure Result} {base : Store}
    (free : base.Free) {revision : Int} {pending : Database}
    (silent : procedure.Silent (base.locked.inScope revision pending))
    (saves : procedure.Saves (base.locked.inScope revision pending)) :
    (procedure.run (base.locked.inScope revision pending)).2 =
        base.locked.inScope revision pending ∨
      Ended (base.withContents pending) pending
        (procedure.run (base.locked.inScope revision pending)).2 := by
  induction procedure with
  | done ending => exact .inl rfl
  | perform operation next hypothesis =>
      obtain ⟨step, rest⟩ := silent
      cases ends : operation.kind.ends with
      | true =>
          have commits : operation.kind = .commit :=
            saves operation next (by simp only [Procedure.firstEnd, ends, if_true])
          have ended : Ended (base.withContents pending) pending
              (operation.action (base.locked.inScope revision pending)).2 := by
            obtain ⟨answer, connection, kind, acted⟩ :=
              Operation.end_in_scope ends base.locked revision pending
            have unlocked : base.file.locked = false := free.unlocked
            rw [acted, if_pos commits]
            refine ⟨⟨connection, kind, rfl⟩, .inl ?_⟩
            simp only [withContents, locked, ← unlocked]
          exact .inr (ended.run rest)
      | false =>
          have same := step.resolve_left (by rw [ends]; exact Bool.false_ne_true)
          rw [same] at rest
          rw [Procedure.run, same]
          apply hypothesis _ rest
          intro other later first
          apply saves other later
          simp only [Procedure.firstEnd, ends, Bool.false_eq_true, if_false, same]
          exact first

theorem flush_kept {base left : Store} (free : base.Free) {revision : Int} {pending : Database}
    (kept : left = base.locked.inScope revision pending ∨
      Ended (base.withContents pending) pending left) :
    ∃ last, flush true left = (.ok (), last) ∧ last.file = (base.withContents pending).file := by
  rcases kept with rfl | ended
  · exact ⟨_, flush_true_locked free revision pending, rfl⟩
  · refine ⟨left, flush_outside ended.outside true, ?_⟩
    rcases ended.file with same | same <;> exact same

/-- A run of a hook that has nothing to do. -/
structure RunsIdly (row : HookRow) (invocation : Invocation)
    (revisionFile : Option (Except FileFault String)) (store : Store) : Prop where
  /-- The revision of the run has a number that no hook has. -/
  fresh : store.file.contents.hooks.contains (store.file.contents.sequence + 1) = false
  /-- A body is told of no changes, and starts with the contents as they were but for the hook. -/
  told : ∀ {Result : Type} (body : Int → HookChanges → Body Store StoreError Result),
    runHook row invocation revisionFile body store =
      withinScope
        (fun _ => (.ok (store.file.contents.sequence + 1),
          store.locked.inScope (store.file.contents.sequence + 1)
            (store.file.contents.revised row)))
        (flush true) (flush false) (fun revision => body revision ⟨∅, ∅⟩) store
  /-- With a body that writes nothing, does not throw its scope away and returns, the run commits
  the contents as they were but for the hook. -/
  commits : ∀ {Result : Type} (body : Int → HookChanges → Procedure Result) (result : Result),
    let opened := store.locked.inScope (store.file.contents.sequence + 1)
      (store.file.contents.revised row)
    let procedure := body (store.file.contents.sequence + 1) ⟨∅, ∅⟩
    procedure.Silent opened → procedure.Saves opened →
      (procedure.run opened).1 = .returned result →
        ∃ last, runHook row invocation revisionFile
            (fun revision changes => (body revision changes).run) store = (.returned result, last) ∧
          last.file = (store.withContents (store.file.contents.revised row)).file

theorem runs_idly {invocation : Invocation} {revisionFile : Option (Except FileFault String)}
    {store : Store} {again : List Write} (free : store.Free)
    (sound : store.file.contents.Sound)
    (numbered : store.file.contents.sequence < Database.lastRevision)
    (planned : invocationPlan invocation revisionFile store.file.contents.live =
      (.ok ⟨∅, ∅⟩, again))
    (present : store.file.contents.live.Has again) (row : HookRow) :
    store.RunsIdly row invocation revisionFile := by
  have hookPlanned : (Entry.hook row invocation revisionFile).plan store.file.contents.live =
      (.ok ⟨∅, ∅⟩, again) := planned
  have presentLater : (store.file.contents.revised row).live.Has again := present
  have opens := opening_of_planned numbered hookPlanned
  have nothing : (store.file.contents.revised row).assignAll
      (some (store.file.contents.sequence + 1)) again = store.file.contents.revised row :=
    Database.assign_all_present _ _ presentLater
  have entered := enter_free free (.hook row invocation revisionFile)
  simp only [opens, Entry.row, nothing] at entered
  refine ⟨?_, run_hook_entered entered, ?_⟩
  · by_contra taken
    have bound := sound.bounded _ (eq_true_of_ne_false taken)
    omega
  · intro Result body result
    dsimp only
    intro silent saves returned
    obtain ⟨last, flushed, file⟩ := flush_kept free (kept_of_silent free silent saves)
    refine ⟨last, ?_, file⟩
    rw [run_hook_entered entered]
    cases ran : (body (store.file.contents.sequence + 1) ⟨∅, ∅⟩).run
        (store.locked.inScope (store.file.contents.sequence + 1)
          (store.file.contents.revised row)) with
    | mk ending middle =>
        rw [ran] at returned flushed
        cases returned
        simp only [withinScope, ran, flushed]

end Store

namespace Fleet

variable {Name : Type} [DecidableEq Name]

/-- What holds after a hook that was committed and whose body wrote nothing. -/
structure AllowsRepeat (fleet : Fleet Name) (invocation : Invocation)
    (revisionFile : Option (Except FileFault String)) (later : Store) : Prop where
  free : later.handle.connection ≠ .closed → later.Free
  /-- Keys that are not the bookkeeping's have the texts and the history that they had. -/
  others : ∀ key, ¬Store.Bookkept key →
    later.file.contents.live.get? key = fleet.file.contents.live.get? key ∧
      ∀ revision, later.file.contents.history.get? (revision, key) =
        fleet.file.contents.history.get? (revision, key)
  /-- As long as there is a number for its revision, the same hook has nothing to do. -/
  again : ∀ next : Store, next.Free → next.file = later.file →
    next.file.contents.sequence < Database.lastRevision →
      ∀ row, next.RunsIdly row invocation revisionFile

/-- Running the same hook twice is running it once, but for the revision of the second run. -/
theorem Reachable.hook_repeats_idly {fleet : Fleet Name} (reachable : fleet.Reachable)
    {handle : Handle} {row : HookRow} {invocation : Invocation}
    {revisionFile : Option (Except FileFault String)} (config : Storable invocation.config)
    (relations : Storable invocation.relations) {Result : Type}
    {body : Int → HookChanges → Procedure Result} {result : Result} {later : Store}
    (ran : Store.runHook row invocation revisionFile (fun revision changes =>
      (body revision changes).run) ⟨handle, fleet.file⟩ = (.returned result, later))
    (silent : ∀ revision changes opened,
      Store.enter (.hook row invocation revisionFile) ⟨handle, fleet.file⟩ =
        (.ok (revision, changes), opened) → (body revision changes).Silent opened)
    (committed : later.file.contents.sequence ≠ fleet.file.contents.sequence) :
    fleet.AllowsRepeat invocation revisionFile later := by
  obtain ⟨free, opening, opens, ended⟩ := Store.ended_of_returned ran silent
  obtain ⟨number, pending⟩ := Entry.opening_ok opens
  have planned := Entry.opening_planned opens
  have contents : later.file.contents = opening.pending := by
    rcases ended.file with kept | saved
    · rw [kept] at committed
      exact absurd rfl committed
    · rw [saved]
      rfl
  have live : opening.pending.live = fleet.file.contents.live.changeAll
      ((Entry.hook row invocation revisionFile).writes fleet.file.contents.live) := by
    rw [pending, Database.live_assign_all]
    rfl
  refine ⟨ended.free free, fun key other => ?_, fun next nextFree same numbered nextRow => ?_⟩
  · have apart : ∀ write ∈ (Entry.hook row invocation revisionFile).writes
        fleet.file.contents.live, write.key ≠ key := by
      rintro write member rfl
      exact other (Store.invocation_plan_keys planned write member)
    rw [contents]
    refine ⟨?_, fun revision => ?_⟩
    · rw [live]
      exact Table.get?_change_all_of_ne apart
    · rw [pending]
      apply Database.history_assign_all_of_ne
      intro write member same
      exact apart write member (congrArg Prod.snd same).symm
  · have nextContents : next.file.contents = opening.pending := by
      rw [same, contents]
    obtain ⟨again, plannedAgain, present⟩ :=
      Store.invocation_plan_again config relations planned
    have sound := (Entry.opening_opened reachable.coherent.sound opens).sound
    rw [← live, ← nextContents] at plannedAgain present
    rw [← nextContents] at sound
    exact Store.runs_idly nextFree sound numbered plannedAgain present nextRow

def portHook (day : String) : Body Store StoreError Unit :=
  Store.runHook ⟨"install", day⟩ (plainInvocation (.ofList [("port", .ofInt 80)]))
    (some (.ok "7")) fun _ _ => (Procedure.done (.returned ())).run

/-- A port is stored, and the same hook on the next day adds its row and nothing else. -/
theorem port_hook_repeated :
    let fleet : Fleet Nat := ((ofFile .fresh).step 0 (.connect .memory false)).2
    let later := (portHook "today" ⟨.ofLocation .memory false, fleet.file⟩).2
    later.file.contents.live.get? "config.port" = some "80" ∧
      ∃ last, portHook "tomorrow" later = (.returned (), last) ∧
        last.file.contents = later.file.contents.revised ⟨"install", "tomorrow"⟩ := by
  intro fleet later
  have ran : portHook "today" ⟨.ofLocation .memory false, fleet.file⟩ = (.returned (), later) :=
    Prod.ext (by decide) rfl
  have free : later.Free := ⟨by decide, by decide, by decide, by decide, by decide⟩
  have config : Storable (.ofList [("port", .ofInt 80)]) := by
    refine ⟨⟨Table.increasing _, trivial, trivial⟩, ?_, ?_⟩
    · intro name value found
      cases List.mem_singleton.1 (Table.get?_eq_some_iff.1 found)
      exact Nat.zero_le _
    · intro name value found
      cases List.mem_singleton.1 (Table.get?_eq_some_iff.1 found)
      exact fun float => absurd float (by decide)
  have relations : Storable ∅ := by
    refine ⟨⟨.nil, trivial⟩, ?_, ?_⟩ <;>
      · intro name value found
        cases found
  have reachable : fleet.Reachable := .step .fresh 0 _
  have allows := reachable.hook_repeats_idly config relations ran (fun _ _ _ _ => trivial)
    (by decide)
  have idle := allows.again later free rfl (by decide) ⟨"install", "tomorrow"⟩
  obtain ⟨last, again, file⟩ := idle.commits (fun _ _ => Procedure.done (.returned ())) ()
    trivial nofun rfl
  exact ⟨by decide, last, again, congrArg DatabaseFile.contents file⟩

/-- The last number is taken by a hook that commits. The same hook fails after it. -/
theorem last_number_not_repeated :
    let fleet : Fleet Nat :=
      { ((ofFile .fresh).step 0 (.connect .memory false)).2 with file := oneNumberLeft }
    let first := plainHook ∅ ⟨.ofLocation .memory false, fleet.file⟩
    fleet.Reachable ∧ first.1 = .returned () ∧
      first.2.file.contents.sequence = Database.lastRevision ∧ first.2.Free ∧
      (plainHook ∅ first.2).1 = .failed (.engine .full) := by
  intro fleet first
  have connected : Reachable ((ofFile .fresh).step (0 : Nat) (.connect .memory false)).2 :=
    .step .fresh 0 _
  refine ⟨connected.edit (.hook 9223372036854775806 ⟨"max", "x"⟩) (by decide), by decide,
    by decide, ⟨by decide, by decide, by decide, by decide, by decide⟩, by decide⟩

end Fleet

end UnitState
