import Mathlib.Data.List.Nodup
import UnitState.Proofs.OpenStores
import UnitState.Proofs.Snapshots

/-!
# Removing several keys

Several keys are removed one by one, and those are counted that are there when their turn comes.
So a key that is named twice is counted once, and one that is missing is not counted. In a scope
each key that was there gets a row without a text under the active revision, in the place of the
row that an earlier write of the scope has left; nothing else is recorded, and nothing at all out
of a scope. What is stored under the keys plays no part in this: it need not be readable.
-/

set_option autoImplicit false

namespace UnitState

namespace Store

/-- What is counted is how many different keys are there. -/
theorem removals_eq_length {keys gone : List String} {live : Table String String}
    (distinct : gone.Nodup)
    (members : ∀ key, key ∈ gone ↔ live.contains key = true ∧ key ∈ keys) :
    removals keys live = gone.length := by
  induction keys generalizing live gone with
  | nil =>
      have none : gone = [] := by
        apply List.eq_nil_iff_forall_not_mem.2
        intro key member
        cases ((members key).1 member).2
      rw [none]
      rfl
  | cons head later hypothesis =>
      have rest : ∀ key, key ∈ gone.erase head ↔
          (live.erase head).contains key = true ∧ key ∈ later := by
        intro key
        rw [distinct.mem_erase_iff, members, Table.contains_erase_iff, List.mem_cons]
        tauto
      have counted := hypothesis (distinct.erase head) rest
      rw [removals, counted]
      by_cases there : live.contains head = true
      · have member : head ∈ gone := (members head).2 ⟨there, List.mem_cons_self⟩
        have positive := List.length_pos_of_mem member
        rw [if_pos there, List.length_erase_of_mem member]
        omega
      · have missing : head ∉ gone := fun member => there ((members head).1 member).1
        rw [if_neg there, List.erase_of_not_mem missing]

theorem get?_after_removal (live : Table String String) (keys : List String) (key : String) :
    (live.changeAll (removalWrites keys)).get? key =
      if key ∈ keys then none else live.get? key := by
  split
  · rename_i member
    apply Table.get?_change_all
    · intro write writes _
      obtain ⟨_, _, rfl⟩ := List.mem_map.1 writes
      rfl
    · exact .inr ⟨⟨key, none⟩, List.mem_map.2 ⟨key, member, rfl⟩, rfl⟩
  · rename_i missing
    apply Table.get?_change_all_of_ne
    rintro write writes rfl
    obtain ⟨_, member, rfl⟩ := List.mem_map.1 writes
    exact missing member

/-- Whether a removal is for a key: for the stem with one of the names after it, or, without
names, for all that a search by the stem is for. -/
def Named (names : Option (List String)) (stem key : String) : Prop :=
  match names with
  | some listed => ∃ name ∈ listed, key = stem ++ name
  | none => Database.Sought stem key

theorem mem_removal_keys_iff {names : Option (List String)} {stem : String}
    {live : Table String String} {key : String} :
    live.contains key = true ∧ key ∈ removalKeys names stem live ↔
      live.contains key = true ∧ Named names stem key := by
  apply and_congr_right
  intro there
  cases names with
  | some listed =>
      rw [removalKeys, List.mem_map]
      exact exists_congr fun name => and_congr_right fun _ => eq_comm
  | none =>
      obtain ⟨text, found⟩ := Option.isSome_iff_exists.1 there
      have bound := Table.get?_eq_some_iff.1 found
      rw [removalKeys, Named, ← Database.starts_with_iff_sought, List.mem_map]
      constructor
      · rintro ⟨binding, member, rfl⟩
        exact (List.mem_filter.1 member).2
      · intro starts
        exact ⟨(key, text), List.mem_filter.2 ⟨bound, starts⟩, rfl⟩

/-- What a removal does at a store that sees these contents: the keys that are gone after it, the
store after it, and what that sees. -/
structure RemovesExactly (store : Store) (contents : Database) (names : Option (List String))
    (stem : String) (gone : List String) (later : Store) (left : Database) : Prop where
  distinct : gone.Nodup
  gone_iff : ∀ key, key ∈ gone ↔ contents.live.contains key = true ∧ Named names stem key
  answered : unsetRange names stem store = (.ok gone.length, later)
  view : later.view Schema.liveTable = .ok left
  live : ∀ key, left.live.get? key = if key ∈ gone then none else contents.live.get? key
  unrecorded : store.handle.revision = none → left.history = contents.history
  /-- In a scope the keys that are gone have no text under the active revision, and all other rows
  are as before. -/
  recorded : ∀ revision, store.handle.revision = some revision → ∀ row,
    left.history.get? row =
      if row.1 = revision ∧ row.2 ∈ gone then some none else contents.history.get? row
  again : unsetRange names stem later = (.ok 0, later)

def goneKeys (keys : List String) (live : Table String String) : List String :=
  live.keys.filter fun key => decide (key ∈ keys)

theorem mem_gone_keys_iff {keys : List String} {live : Table String String} {key : String} :
    key ∈ goneKeys keys live ↔ live.contains key = true ∧ key ∈ keys := by
  rw [goneKeys, List.mem_filter, decide_eq_true_eq, Table.mem_keys_iff]

theorem gone_keys_nodup (keys : List String) (live : Table String String) :
    (goneKeys keys live).Nodup := live.keys_nodup.filter _

theorem get?_after_removal_of_gone (live : Table String String) (keys : List String)
    (key : String) :
    (live.changeAll (removalWrites keys)).get? key =
      if key ∈ goneKeys keys live then none else live.get? key := by
  rw [get?_after_removal]
  by_cases member : key ∈ keys
  · rw [if_pos member]
    split
    · rfl
    · rename_i notGone
      cases found : live.get? key with
      | none => rfl
      | some text =>
          have there : live.contains key = true := by
            rw [Table.contains, found]
            rfl
          exact absurd (mem_gone_keys_iff.2 ⟨there, member⟩) notGone
  · rw [if_neg member, if_neg fun gone => member (mem_gone_keys_iff.1 gone).2]

theorem history_after_removal (contents : Database) (revision : Int) (keys : List String)
    (row : Int × String) :
    (contents.assignAll (some revision) (removalWrites keys)).history.get? row =
      if row.1 = revision ∧ row.2 ∈ goneKeys keys contents.live then some none
      else contents.history.get? row := by
  obtain ⟨other, key⟩ := row
  rw [Database.row_assign_all_agreeing contents (some revision) (removal_writes_agreeing keys),
    get?_after_removal_of_gone]
  by_cases gone : key ∈ goneKeys keys contents.live
  · obtain ⟨text, found⟩ := Option.isSome_iff_exists.1 (mem_gone_keys_iff.1 gone).1
    simp only [gone, found, if_true, ne_eq, reduceCtorEq, not_false_eq_true, and_true,
      Option.some.injEq, eq_comm]
  · simp only [gone, if_false, ne_eq, not_true_eq_false, and_false]

theorem removals_eq_zero {keys : List String} {live : Table String String}
    (nothing : ∀ key, ¬(live.contains key = true ∧ key ∈ keys)) : removals keys live = 0 :=
  removals_eq_length List.nodup_nil fun key => iff_of_false List.not_mem_nil (nothing key)

theorem has_removal_writes_iff {keys : List String} {live : Table String String} :
    live.Has (removalWrites keys) ↔ ∀ key, ¬(live.contains key = true ∧ key ∈ keys) := by
  constructor
  · rintro present key ⟨there, member⟩
    have absent : live.get? key = none := present ⟨key, none⟩ (List.mem_map.2 ⟨key, member, rfl⟩)
    rw [Table.contains, absent] at there
    cases there
  · intro nothing write member
    obtain ⟨key, listed, rfl⟩ := List.mem_map.1 member
    cases found : live.get? key with
    | none => rfl
    | some text =>
        have there : live.contains key = true := by
          rw [Table.contains, found]
          rfl
        exact absurd ⟨there, listed⟩ (nothing key)

/-- After a removal nothing is there that the same removal would go through. -/
theorem nothing_left {names : Option (List String)} {stem : String}
    {live left : Table String String}
    (after : ∀ key, left.get? key =
      if key ∈ goneKeys (removalKeys names stem live) live then none else live.get? key)
    (key : String) : ¬(left.contains key = true ∧ key ∈ removalKeys names stem left) := by
  intro both
  obtain ⟨there, named⟩ := mem_removal_keys_iff.1 both
  rw [Table.contains, after key] at there
  split at there
  · cases there
  · rename_i notGone
    have before : live.contains key = true := there
    exact notGone (mem_gone_keys_iff.2 (mem_removal_keys_iff.2 ⟨before, named⟩))

section Removal

variable {store : Store} {contents : Database} {names : Option (List String)} {stem : String}

theorem Editable.unset_range_idle (editable : store.Editable contents)
    (nothing : ∀ key,
      ¬(contents.live.contains key = true ∧ key ∈ removalKeys names stem contents.live)) :
    unsetRange names stem store = (.ok 0, store) := by
  have present := has_removal_writes_iff.2 nothing
  rw [editable.run (unset_range_follows names stem), removalPlan, removals_eq_zero nothing,
    Database.assign_all_present _ _ present, editable.with_seen_self]

theorem Editable.removal_exact (editable : store.Editable contents)
    (names : Option (List String)) (stem : String) :
    ∃ gone later left, store.RemovesExactly contents names stem gone later left := by
  let keys := removalKeys names stem contents.live
  let left := contents.assignAll store.handle.revision (removalWrites keys)
  have live : ∀ key, left.live.get? key =
      if key ∈ goneKeys keys contents.live then none else contents.live.get? key := by
    intro key
    rw [Database.live_assign_all]
    exact get?_after_removal_of_gone contents.live keys key
  have counted : removals keys contents.live = (goneKeys keys contents.live).length :=
    removals_eq_length (gone_keys_nodup keys contents.live) fun _ => mem_gone_keys_iff
  refine ⟨goneKeys keys contents.live, store.withSeen left, left, ?_⟩
  constructor
  · exact gone_keys_nodup keys contents.live
  · intro key
    rw [mem_gone_keys_iff]
    exact mem_removal_keys_iff
  · rw [← counted]
    exact editable.run (unset_range_follows names stem)
  · exact (editable.assigned _).view _
  · exact live
  · intro outside
    change (contents.assignAll store.handle.revision (removalWrites keys)).history = _
    rw [outside, Database.history_assign_all_unrecorded]
  · intro revision active row
    change (contents.assignAll store.handle.revision (removalWrites keys)).history.get? row = _
    rw [active]
    exact history_after_removal contents revision keys row
  · exact (editable.assigned _).unset_range_idle (nothing_left live)

theorem Barred.removal_exact (barred : store.Barred)
    (visible : store.view Schema.liveTable = .ok contents) {count : Nat} {later : Store}
    (ran : unsetRange names stem store = (.ok count, later)) :
    store.RemovesExactly contents names stem [] later contents := by
  obtain ⟨rfl, counted, present⟩ := barred.success (unset_range_follows names stem) visible ran
  have nothing := has_removal_writes_iff.1 present
  have zero : count = 0 := (Except.ok.inj counted).symm.trans (removals_eq_zero nothing)
  rw [zero] at ran
  constructor
  · exact List.nodup_nil
  · intro key
    rw [← mem_removal_keys_iff]
    exact iff_of_false List.not_mem_nil (nothing key)
  · exact ran
  · exact visible
  · intro key
    rw [if_neg List.not_mem_nil]
  · intro _
    rfl
  · intro revision active
    cases barred.outside.symm.trans active
  · exact ran

/-- What a removal may come to at a store that sees these contents. -/
structure Removal (store : Store) (contents : Database) (names : Option (List String))
    (stem : String) : Prop where
  exact : ∀ count later, unsetRange names stem store = (.ok count, later) →
    ∃ gone left, store.RemovesExactly contents names stem gone later left
  refused : ∀ error later, unsetRange names stem store = (.error error, later) → later = store

theorem Sees.removal (sees : store.Sees contents) (names : Option (List String)) (stem : String) :
    store.Removal contents names stem := by
  rcases sees.allowed with editable | barred
  · obtain ⟨gone, later, left, removes⟩ := editable.removal_exact names stem
    constructor
    · intro count other ran
      obtain ⟨_, rfl⟩ := Prod.mk.inj (removes.answered.symm.trans ran)
      exact ⟨gone, left, removes⟩
    · intro error other ran
      cases removes.answered.symm.trans ran
  · constructor
    · intro count later ran
      exact ⟨[], contents, barred.removal_exact sees.visible ran⟩
    · intro error later ran
      have kept := ((unset_range_follows names stem).barred store barred).1
      rw [ran] at kept
      exact kept

end Removal

end Store

namespace Fleet

variable {Name : Type} [DecidableEq Name]

/-- What is removed, counted and recorded by a store that sees contents. It answers if nothing
stands against writing. -/
theorem Reachable.removes_exactly {fleet : Fleet Name} (reachable : fleet.Reachable) {name : Name}
    {handle : Handle} (named : fleet.handles name = some handle) {contents : Database}
    (visible : (Store.mk handle fleet.file).view Schema.liveTable = .ok contents)
    (names : Option (List String)) (stem : String) :
    (Store.mk handle fleet.file).Removal contents names stem ∧
      (fleet.MayWrite name handle → ∃ gone later left,
        (Store.mk handle fleet.file).RemovesExactly contents names stem gone later left) := by
  have sees := Store.sees_of_view (reachable.coherent.handles named) visible
  refine ⟨sees.removal names stem, fun may => ?_⟩
  exact (reachable.editable may visible).removal_exact names stem

def spoiledStore : Fleet Nat :=
  let connected : Fleet Nat := (ofFile .fresh).run [(0, .connect .memory false)]
  { connected with file := (connected.file.edit (.live "a.x" "?")).getD connected.file }

def spoiledScope : Fleet Nat :=
  spoiledStore.run
    [(0, .perform (.enter (.scope ⟨"install", "today"⟩))), (0, .perform (.ask (.set "a.y" .null)))]

/-- Of four names one comes twice and one has no text. -/
theorem spoiled_scope_removed :
    ∃ handle gone later left,
      (Store.mk handle spoiledScope.file).RemovesExactly (spoiledScope.seen 0)
        (some ["x", "y", "x", "z"]) "a." gone later left ∧ gone.length = 2 := by
  have connected : ((ofFile .fresh).run [(0, .connect .memory false)] : Fleet Nat).Reachable :=
    Reachable.fresh.step 0 _
  have spoiled : spoiledStore.Reachable := connected.edit (.live "a.x" "?") rfl
  have reachable : spoiledScope.Reachable := (spoiled.step 0 _).step 0 _
  have holds : spoiledScope.Holds 0 1 (spoiledScope.seen 0) := ⟨_, _, rfl⟩
  have may : spoiledScope.MayWrite 0 _ :=
    ⟨rfl, rfl, fun _ _ _ held => reachable.coherent.alone held holds⟩
  obtain ⟨gone, later, left, removes⟩ :=
    (reachable.removes_exactly rfl rfl (some ["x", "y", "x", "z"]) "a.").2 may
  refine ⟨_, gone, later, left, removes, ?_⟩
  have counted := congrArg Prod.fst removes.answered
  exact (Except.ok.inj counted).symm

end Fleet

end UnitState
