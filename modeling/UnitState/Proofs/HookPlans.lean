import UnitState.Hook
import UnitState.Proofs.Deltas
import UnitState.Proofs.WritePlans

/-!
# Plans of the bookkeeping of a hook

The bookkeeping looks at what earlier hooks have left and writes the charm's revisions, the
two snapshots and the identity of the invocation. It gives no key two different texts: what
a snapshot removes is not in the mapping that it stores, and the parts of the bookkeeping
write under keys of their own.
-/

set_option autoImplicit false

namespace UnitState.Store

open Json

theorem decode_ordinarily {Result : Type} (read : String → Except Fault Result)
    (text : String) : Ordinarily (decode read text) := by
  unfold decode
  cases read text with
  | error fault => exact Ordinarily.of_error ⟨nofun, nofun⟩
  | ok result => exact Ordinarily.of_ok result

theorem get_with_looks_at_live {Result : Type} (read : String → Except Fault Result)
    (key : String) : LooksAtLive fun store => store.getWith read key where
  through store := by
    unfold getWith getRaw
    cases store.view Schema.liveTable <;> rfl
  ordinary live := by
    refine ((get_raw_looks_at_live key).ordinary live).bind fun text => ?_
    cases text with
    | none => exact Ordinarily.of_ok none
    | some text => exact (decode_ordinarily read text).bind fun result => Ordinarily.of_ok _

theorem get_with_absent {Result : Type} (read : String → Except Fault Result)
    {live : Table String String} {key : String} (absent : live.get? key = none) :
    (holding live).getWith read key = .ok none := by
  have raw : (holding live).getRaw key = .ok none := congrArg Except.ok absent
  rw [getWith, raw]
  rfl

theorem get_with_found {Result : Type} {read : String → Except Fault Result}
    {live : Table String String} {key text : String} {result : Result}
    (found : live.get? key = some text) (reads : read text = .ok result) :
    (holding live).getWith read key = .ok (some result) := by
  have raw : (holding live).getRaw key = .ok (some text) := congrArg Except.ok found
  simp only [getWith, raw, Bind.bind, Except.bind, decode, reads]
  rfl

theorem decode_rows_ordinarily (rows : List (String × String)) :
    Ordinarily (decodeRows rows) := by
  induction rows with
  | nil => exact Ordinarily.of_ok []
  | cons row later hypothesis =>
      exact (decode_ordinarily Value.parse row.2).bind fun value =>
        hypothesis.bind fun values => Ordinarily.of_ok _

theorem get_range_looks_at_live (stem : String) (strip : Bool) :
    LooksAtLive fun store => store.getRange stem strip where
  through store := by
    unfold getRange
    cases store.view Schema.liveTable <;> rfl
  ordinary live := by
    refine (view_ordinarily (holding live) Schema.liveTable).bind fun contents => ?_
    cases contents.range stem with
    | nil => exact Ordinarily.of_ok none
    | cons row later => exact (decode_rows_ordinarily _).bind fun values => Ordinarily.of_ok _

theorem delta_looks_at_live (mapping : Object) (stem : String) :
    LooksAtLive fun store => store.delta mapping stem where
  through store := by
    unfold delta
    rw [(get_range_looks_at_live stem true).through store]
    cases store.view Schema.liveTable <;> rfl
  ordinary live :=
    ((get_range_looks_at_live stem true).ordinary live).bind fun _ => Ordinarily.of_ok _

theorem charm_revision_ordinarily (revisionFile : Except FileFault String) :
    Ordinarily (charmRevision revisionFile) := by
  unfold charmRevision
  split
  · exact Ordinarily.of_ok _
  · exact Ordinarily.of_ok _
  · exact Ordinarily.of_error ⟨nofun, nofun⟩

def charmPlan (revisionFile : Except FileFault String) : Plan Unit := do
  let revision ← Plan.ofExcept (charmRevision revisionFile)
  let stored ← Plan.look fun store =>
    store.getWith (Decoder.list Decoder.text).run charmRevisionsKey
  let seen := stored.getD []
  if seen.contains revision then return
  Plan.carryOut
    [⟨charmRevisionsKey, some (Value.array ((seen ++ [revision]).map Value.string)).storedText⟩]

theorem record_charm_follows (revisionFile : Except FileFault String) :
    Follows (recordCharm revisionFile) (charmPlan revisionFile) := by
  refine (Follows.of_except (charm_revision_ordinarily revisionFile)).bind fun revision => ?_
  refine (Follows.inspect (get_with_looks_at_live _ _)).bind fun stored => ?_
  simp only
  split
  · exact Follows.pure ()
  · exact set_follows _ _

def snapshotPlan (current : Object) (stem : String) : Plan DeltaSet := do
  match ← Plan.look fun store => store.delta current stem with
  | none => return ∅
  | some deltas =>
      let _ ← removalPlan (some deltas.removed) stem
      Plan.carryOut (updateWrites current stem)
      return deltas

theorem snapshot_follows (current : Object) (stem : String) :
    Follows (snapshot current stem) (snapshotPlan current stem) := by
  refine (Follows.inspect (delta_looks_at_live current stem)).bind fun deltas => ?_
  cases deltas with
  | none => exact Follows.pure ∅
  | some deltas =>
      exact (unset_range_follows (some deltas.removed) stem).bind fun _ =>
        (update_follows current stem).bind fun _ => Follows.pure deltas

def identityPlan (invocation : Invocation) : Plan Unit := do
  Plan.carryOut [⟨"env",
    some (Value.ofObject (invocation.environment.map fun _ text => .string text)).storedText⟩]
  Plan.carryOut [⟨"unit", some (textOrNull invocation.unit).storedText⟩]
  Plan.carryOut [⟨"relid", some (textOrNull invocation.relationId).storedText⟩]

def afterCharmPlan (invocation : Invocation) : Plan HookChanges := do
  let config ← snapshotPlan invocation.config configStem
  let relations ← snapshotPlan invocation.relations relationsStem
  identityPlan invocation
  return ⟨config, relations⟩

/-- The bookkeeping of a hook, whose revision file is given if it has a charm directory. -/
def invocationPlan (invocation : Invocation)
    (revisionFile : Option (Except FileFault String)) : Plan HookChanges := do
  match revisionFile with
  | some file => charmPlan file
  | none => pure ()
  let config ← snapshotPlan invocation.config configStem
  let relations ← snapshotPlan invocation.relations relationsStem
  identityPlan invocation
  return ⟨config, relations⟩

theorem record_invocation_follows (invocation : Invocation)
    (revisionFile : Option (Except FileFault String)) :
    Follows (recordInvocation invocation revisionFile)
      (invocationPlan invocation revisionFile) := by
  have afterCharm : Follows
      (do
        let config ← snapshot invocation.config configStem
        let relations ← snapshot invocation.relations relationsStem
        set "env" (.ofObject (invocation.environment.map fun _ text => .string text))
        set "unit" (textOrNull invocation.unit)
        set "relid" (textOrNull invocation.relationId)
        return (⟨config, relations⟩ : HookChanges))
      (afterCharmPlan invocation) := by
    refine (snapshot_follows _ _).bind fun config => ?_
    refine (snapshot_follows _ _).bind fun relations => ?_
    have identity := (set_follows "env" (.ofObject (invocation.environment.map fun _ text =>
      .string text))).bind fun _ => (set_follows "unit" (textOrNull invocation.unit)).bind
        fun _ => (set_follows "relid" (textOrNull invocation.relationId)).bind
          fun _ => Follows.pure (⟨config, relations⟩ : HookChanges)
    exact identity
  cases revisionFile with
  | some file => exact (record_charm_follows file).bind fun _ => afterCharm
  | none => exact (Follows.pure ()).bind fun _ => afterCharm

/-! ## Keys of the bookkeeping -/

/-- The start of a key, which tells the parts of the bookkeeping apart. -/
def keyTag (key : String) : List Char := key.toList.take 4

/-- The plan gives no key two different texts, and writes only under these tags. -/
structure Tagged {Result : Type} (plan : Plan Result) (tags : List (List Char)) : Prop where
  agreeing : ∀ live, Agreeing (plan live).2
  tagged : ∀ live, ∀ write ∈ (plan live).2, keyTag write.key ∈ tags

namespace Tagged

variable {Result Other : Type}

theorem silent {plan : Plan Result} (nothing : ∀ live, (plan live).2 = []) : Tagged plan [] where
  agreeing live := by
    rw [nothing]
    exact Agreeing.nil
  tagged live write member := by
    rw [nothing] at member
    cases member

theorem one (write : Write) : Tagged (Plan.carryOut [write]) [keyTag write.key] where
  agreeing _ := Agreeing.single write
  tagged _ other member := by
    rw [List.mem_singleton.1 member]
    exact List.mem_singleton_self _

theorem bind {first : Plan Result} {next : Result → Plan Other} {tags later : List (List Char)}
    (firstTagged : Tagged first tags) (nextTagged : ∀ result, Tagged (next result) later)
    (apart : ∀ tag ∈ tags, tag ∉ later) : Tagged (first >>= next) (tags ++ later) where
  agreeing live := by
    have firstAgreeing := firstTagged.agreeing live
    have firstTags := firstTagged.tagged live
    cases planned : first live with
    | mk result writes =>
        rw [planned] at firstAgreeing firstTags
        cases result with
        | error error =>
            rw [Plan.bind_error planned]
            exact firstAgreeing
        | ok result =>
            rw [Plan.bind_ok planned]
            refine firstAgreeing.append ((nextTagged result).agreeing _) ?_
            intro write member other otherMember same
            have tag := (nextTagged result).tagged _ other otherMember
            rw [← same] at tag
            exact apart _ (firstTags write member) tag
  tagged live write member := by
    have firstTags := firstTagged.tagged live
    cases planned : first live with
    | mk result writes =>
        rw [planned] at firstTags
        cases result with
        | error error =>
            rw [Plan.bind_error planned] at member
            exact List.mem_append_left later (firstTags write member)
        | ok result =>
            rw [Plan.bind_ok planned] at member
            rcases List.mem_append.1 member with early | late
            · exact List.mem_append_left later (firstTags write early)
            · exact List.mem_append_right tags ((nextTagged result).tagged _ write late)

theorem mono {plan : Plan Result} {tags more : List (List Char)} (tagged : Tagged plan tags)
    (subset : ∀ tag ∈ tags, tag ∈ more) : Tagged plan more :=
  ⟨tagged.agreeing, fun live write member => subset _ (tagged.tagged live write member)⟩

end Tagged

theorem charm_plan_tagged (revisionFile : Except FileFault String) :
    Tagged (charmPlan revisionFile) [keyTag charmRevisionsKey] := by
  refine (Tagged.silent (fun _ => rfl)).bind (fun revision => ?_) (fun _ member => nomatch member)
  refine (Tagged.silent (fun _ => rfl)).bind (fun stored => ?_) (fun _ member => nomatch member)
  simp only
  split
  · exact (Tagged.silent fun _ => rfl).mono fun _ member => nomatch member
  · exact Tagged.one _

theorem delta_ok {store : Store} {mapping : Object} {stem : String} {deltas : DeltaSet}
    (different : store.delta mapping stem = .ok (some deltas)) :
    ∃ previous, deltas = computeDelta previous mapping := by
  unfold delta at different
  cases found : store.getRange stem true with
  | error error =>
      rw [found] at different
      cases different
  | ok range =>
      rw [found] at different
      simp only [Bind.bind, Except.bind, pure, Except.pure, Except.ok.injEq] at different
      split at different
      · cases different
      · exact ⟨range.getD ∅, (Option.some.inj different).symm⟩

theorem key_tag_append {stem : String} (long : 4 ≤ stem.toList.length) (name : String) :
    keyTag (stem ++ name) = keyTag stem := by
  unfold keyTag
  rw [String.toList_append, List.take_append_of_le_length long]

theorem key_ne_of_tagged {stem : String} (long : 4 ≤ stem.toList.length) {writes : List Write}
    {tags : List (List Char)} (tagged : ∀ write ∈ writes, keyTag write.key ∈ tags)
    (apart : keyTag stem ∉ tags) (name : String) : ∀ write ∈ writes, write.key ≠ stem ++ name := by
  intro write member same
  have tag := tagged write member
  rw [same, key_tag_append long] at tag
  exact apart tag

theorem update_writes_agreeing (mapping : Object) (stem : String) :
    Agreeing (updateWrites mapping stem) := by
  intro first firstMember second secondMember same
  obtain ⟨left, leftBound, rfl⟩ := List.mem_map.1 firstMember
  obtain ⟨right, rightBound, rfl⟩ := List.mem_map.1 secondMember
  have sameName : left.1 = right.1 := String.append_right_inj stem |>.1 same
  have leftFound := Table.get?_eq_some_iff.2 leftBound
  have rightFound := Table.get?_eq_some_iff.2 rightBound
  rw [sameName, rightFound] at leftFound
  simp only [Option.some.inj leftFound]

theorem update_writes_tagged {stem : String} (long : 4 ≤ stem.toList.length)
    (mapping : Object) : ∀ write ∈ updateWrites mapping stem, keyTag write.key = keyTag stem := by
  intro write member
  obtain ⟨binding, _, rfl⟩ := List.mem_map.1 member
  exact key_tag_append long binding.1

theorem removal_writes_agreeing (keys : List String) : Agreeing (removalWrites keys) := by
  intro first firstMember second secondMember _
  obtain ⟨_, _, rfl⟩ := List.mem_map.1 firstMember
  obtain ⟨_, _, rfl⟩ := List.mem_map.1 secondMember
  rfl

theorem removal_writes_tagged {stem : String} (long : 4 ≤ stem.toList.length)
    (names : List String) :
    ∀ write ∈ removalWrites (names.map (stem ++ ·)), keyTag write.key = keyTag stem := by
  intro write member
  obtain ⟨key, keyMember, rfl⟩ := List.mem_map.1 member
  obtain ⟨name, _, rfl⟩ := List.mem_map.1 keyMember
  exact key_tag_append long name

theorem snapshot_writes (current : Object) (stem : String) (live : Table String String) :
    (snapshotPlan current stem live).2 = [] ∨
      ∃ previous, (snapshotPlan current stem live).2 =
        removalWrites ((computeDelta previous current).removed.map (stem ++ ·)) ++
          updateWrites current stem := by
  cases looked : (holding live).delta current stem with
  | error error =>
      left
      simp only [snapshotPlan, Bind.bind, Plan.bind, Plan.look, looked]
  | ok deltas =>
      cases deltas with
      | none =>
          left
          simp only [snapshotPlan, Bind.bind, Plan.bind, Plan.look, looked, Pure.pure, Plan.pure,
            List.append_nil]
      | some deltas =>
          obtain ⟨previous, rfl⟩ := delta_ok looked
          right
          refine ⟨previous, ?_⟩
          simp only [snapshotPlan, Bind.bind, Plan.bind, Plan.look, looked, Pure.pure, Plan.pure,
            removalPlan, removalKeys, Plan.carryOut, List.append_nil, List.nil_append]

theorem snapshot_plan_tagged (current : Object) {stem : String}
    (long : 4 ≤ stem.toList.length) : Tagged (snapshotPlan current stem) [keyTag stem] where
  agreeing live := by
    rcases snapshot_writes current stem live with nothing | ⟨previous, writes⟩
    · rw [nothing]
      exact Agreeing.nil
    · rw [writes]
      refine (removal_writes_agreeing _).append (update_writes_agreeing current stem) ?_
      -- a removed key has no current value, and only current values are stored
      intro removal removalMember update updateMember same
      obtain ⟨key, keyMember, rfl⟩ := List.mem_map.1 removalMember
      obtain ⟨name, removed, rfl⟩ := List.mem_map.1 keyMember
      obtain ⟨binding, bound, rfl⟩ := List.mem_map.1 updateMember
      have sameName : name = binding.1 := (String.append_right_inj stem).1 same
      have absent := (mem_removed_iff.1 removed).2
      rw [sameName, Table.get?_eq_some_iff.2 bound] at absent
      cases absent
  tagged live write member := by
    rw [List.mem_singleton]
    rcases snapshot_writes current stem live with nothing | ⟨previous, writes⟩
    · rw [nothing] at member
      cases member
    · rw [writes] at member
      rcases List.mem_append.1 member with removal | update
      · exact removal_writes_tagged long _ write removal
      · exact update_writes_tagged long current write update

theorem identity_plan_tagged (invocation : Invocation) :
    Tagged (identityPlan invocation) [keyTag "env", keyTag "unit", keyTag "relid"] := by
  have unitApart : ∀ tag ∈ [keyTag "unit"], tag ∉ [keyTag "relid"] := by decide
  have environmentApart : ∀ tag ∈ [keyTag "env"], tag ∉ [keyTag "unit", keyTag "relid"] := by
    decide
  refine (Tagged.one _).bind (fun _ => ?_) environmentApart
  exact (Tagged.one _).bind (fun _ => Tagged.one _) unitApart

theorem after_charm_plan_tagged (invocation : Invocation) :
    Tagged (afterCharmPlan invocation)
      [keyTag configStem, keyTag relationsStem, keyTag "env", keyTag "unit", keyTag "relid"] := by
  have identity (changes : HookChanges) : Tagged
      (identityPlan invocation >>= fun _ => return changes)
      ([keyTag "env", keyTag "unit", keyTag "relid"] ++ []) :=
    (identity_plan_tagged invocation).bind (fun _ => Tagged.silent fun _ => rfl) (by decide)
  have relationsLong : 4 ≤ relationsStem.toList.length := by decide
  have configLong : 4 ≤ configStem.toList.length := by decide
  have relations (config : DeltaSet) :=
    (snapshot_plan_tagged invocation.relations relationsLong).bind
      (fun relations => identity ⟨config, relations⟩) (by decide)
  exact (snapshot_plan_tagged invocation.config configLong).bind relations (by decide)

theorem invocation_plan_agreeing (invocation : Invocation)
    (revisionFile : Option (Except FileFault String)) (live : Table String String) :
    Agreeing (invocationPlan invocation revisionFile live).2 := by
  have rest := after_charm_plan_tagged invocation
  cases revisionFile with
  | some file => exact ((charm_plan_tagged file).bind (fun _ => rest) (by decide)).agreeing live
  | none =>
      have noCharm : Tagged (pure () : Plan Unit) [] := Tagged.silent fun _ => rfl
      exact (noCharm.bind (fun _ => rest) (by decide)).agreeing live

end UnitState.Store
