import UnitState.Proofs.ExactDiff
import UnitState.Proofs.ReadableRows

/-!
# What a snapshot leaves stored

A snapshot writes all of the current object or nothing at all. Where it writes, what is read back
under the stem is the current object. It writes nothing if the object is alike to the one that
was stored, and then the stored one stays, also where it is written in another way: with `1`
stored, a current `1.0` is never stored on its own, but is stored along with a change of another
key.
-/

set_option autoImplicit false

namespace UnitState

open Json

/-- An object whose values are read back from what is stored for them: their keys are in order,
they are not nested too deep, and the text of each float in them is read as the float. -/
structure Storable (object : Object) : Prop where
  sorted : (Value.ofObject object).Canonical
  shallow : ∀ name value, object.get? name = some value → value.depth ≤ nestingLimit
  floats : ∀ name value, object.get? name = some value →
    value.EveryNumber fun number => number.isFloat = true →
      Value.parse (String.ofList number.text) = .ok (.number number)

theorem Storable.rereadable {object : Object} (storable : Storable object) :
    Rereadable object := by
  intro name value found
  have member := Table.get?_eq_some_iff.1 found
  have sorted := Value.canonical_members_iff.1 storable.sorted.2 (name, value) member
  exact Value.parse_stored_text sorted (storable.shallow name value found)
    (storable.floats name value found).reread

theorem storable_of_members {object : Object} (sorted : Value.CanonicalMembers object.entries)
    (shallow : ∀ member ∈ object.entries, member.2.depth ≤ nestingLimit)
    (floats : Value.EveryNumberMembers (fun number => number.isFloat = true →
      Value.parse (String.ofList number.text) = .ok (.number number)) object.entries) :
    Storable object where
  sorted := ⟨object.increasing, sorted⟩
  shallow name value found := shallow (name, value) (Table.get?_eq_some_iff.1 found)
  floats name value found :=
    Value.every_number_members_iff.1 floats (name, value) (Table.get?_eq_some_iff.1 found)

namespace Store

variable {current : Object} {stem : String} {deltas : DeltaSet}

/-- What is read and written by a plan of a snapshot that succeeds. -/
theorem snapshot_plan_outcome {live : Table String String} {writes : List Write}
    (plain : '\x00' ∉ stem.toList) (rereadable : Rereadable current)
    (planned : snapshotPlan current stem live = (.ok deltas, writes)) :
    ∃ before after, (holding live).getRange stem true = .ok before ∧
      (holding (live.changeAll writes)).getRange stem true = .ok after ∧
      deltas = computeDelta (before.getD ∅) current ∧
      after.getD ∅ = (if deltas.isEmpty then before.getD ∅ else current) ∧
      (∀ name, (live.changeAll writes).get? (stem ++ name) =
        if deltas.isEmpty then live.get? (stem ++ name)
        else (current.get? name).map Value.storedText) := by
  obtain ⟨before, ranged, told, written⟩ := of_snapshot planned
  rcases written with ⟨unchanged, rfl⟩ | ⟨changed, rfl⟩
  · rw [unchanged]
    exact ⟨before, before, ranged, ranged, told, rfl, fun _ => rfl⟩
  · have stored := Stored.of_replaced (known_of_get_range plain ranged) current
    rw [← told] at stored
    obtain ⟨after, readBack, same⟩ := stored.get_range plain rereadable
    rw [changed]
    exact ⟨before, after, ranged, readBack, told, same, stored⟩

theorem snapshot_plan_keys {live : Table String String} {writes : List Write}
    (planned : snapshotPlan current stem live = (.ok deltas, writes)) :
    ∀ write ∈ writes, ∃ name, write.key = stem ++ name := by
  obtain ⟨_, _, _, written⟩ := of_snapshot planned
  intro write member
  rcases written with ⟨_, rfl⟩ | ⟨_, rfl⟩
  · cases member
  · rcases List.mem_append.1 member with removal | update
    · obtain ⟨key, keyMember, rfl⟩ := List.mem_map.1 removal
      obtain ⟨name, _, rfl⟩ := List.mem_map.1 keyMember
      exact ⟨name, rfl⟩
    · obtain ⟨binding, _, rfl⟩ := List.mem_map.1 update
      exact ⟨binding.1, rfl⟩

/-- What a snapshot in a scope tells, and what is stored when it has returned. Where nothing is
told, nothing has been written; otherwise the current object is read back, key by key. -/
theorem snapshot_outcome {store later : Store} {revision : Int} {pending : Database}
    (known : pending.hooks.contains revision = true)
    (named : stem = configStem ∨ stem = relationsStem) (storable : Storable current)
    (ran : snapshot current stem (store.inScope revision pending) = (.ok deltas, later)) :
    ∃ before after,
      (store.inScope revision pending).getRange stem true = .ok before ∧
      later.getRange stem true = .ok after ∧
      deltas = computeDelta (before.getD ∅) current ∧
      (deltas.isEmpty = true ↔
        (Value.ofObject (before.getD ∅)).alike (Value.ofObject current) = true) ∧
      after.getD ∅ = (if deltas.isEmpty then before.getD ∅ else current) ∧
      (∀ name, later.getRaw (stem ++ name) =
        if deltas.isEmpty then (store.inScope revision pending).getRaw (stem ++ name)
        else .ok ((current.get? name).map Value.storedText)) ∧
      ∀ key, (∀ name, key ≠ stem ++ name) →
        later.getRaw key = (store.inScope revision pending).getRaw key := by
  have plain : '\x00' ∉ stem.toList := by
    rcases named with rfl | rfl <;> decide
  rw [(snapshot_follows current stem).inScope store revision pending known] at ran
  obtain ⟨succeeded, rfl⟩ := Prod.mk.inj ran
  cases planned : snapshotPlan current stem pending.live with
  | mk result writes =>
      rw [planned] at succeeded
      cases succeeded
      obtain ⟨before, after, found, left, told, readBack, texts⟩ :=
        snapshot_plan_outcome plain storable.rereadable planned
      refine ⟨before, after, ?_, ?_, told, ?_, readBack, ?_, ?_⟩
      · rw [(get_range_looks_at_live stem true).seen (view_in_scope _ _ _ _)]
        exact found
      · rw [(get_range_looks_at_live stem true).seen (view_in_scope _ _ _ _),
          Database.live_assign_all]
        exact left
      · rw [told]
        exact compute_delta_empty_iff
      · intro name
        rw [get_raw_eq (view_in_scope _ _ _ _), get_raw_eq (view_in_scope _ _ _ _),
          Database.live_assign_all, texts name]
        split <;> rfl
      · intro key apart
        rw [get_raw_eq (view_in_scope _ _ _ _), get_raw_eq (view_in_scope _ _ _ _),
          Database.live_assign_all]
        rcases Table.get?_change_all_cases pending.live writes key with
          kept | ⟨write, member, same, _⟩
        · rw [kept]
        · obtain ⟨name, key⟩ := snapshot_plan_keys planned write member
          exact absurd (same.symm.trans key) (apart name)

def oneStored : Store :=
  (alone .empty).inScope 1
    { Database.empty with
      hooks := .ofList [(1, ⟨"config-changed", "2024-05-01 12:00:00"⟩)]
      live := .ofList [("config.a", "1")] }

def floatOne : Value := .number (.float ⟨false, 4607182418800017408, by decide⟩)

/-- With another key changed, all of the configuration is stored and read back. -/
theorem changed_configuration_stored :
    let current : Object := .ofList [("a", floatOne), ("b", .ofInt 2)]
    Storable current ∧ ∃ after,
      (snapshot current configStem oneStored).2.getRange configStem true = .ok after ∧
        after.getD ∅ = current := by
  intro current
  have storable : Storable current := by
    have shape : ∀ name value, current.get? name = some value →
        value = floatOne ∨ value = .ofInt 2 := by
      intro name value found
      have member : (name, value) ∈ [("a", floatOne), ("b", Value.ofInt 2)] :=
        Table.get?_eq_some_iff.1 found
      simp only [List.mem_cons, Prod.mk.injEq, List.not_mem_nil, or_false] at member
      exact member.imp And.right And.right
    constructor
    · exact ⟨Table.increasing _, trivial, trivial, trivial⟩
    · intro name value found
      rcases shape name value found with rfl | rfl <;> exact Nat.zero_le _
    · intro name value found
      rcases shape name value found with rfl | rfl
      · exact fun _ => by decide +kernel
      · exact fun float => absurd float (by decide)
  refine ⟨storable, ?_⟩
  have told : (snapshot current configStem oneStored).1 =
      .ok (computeDelta (.ofList [("a", .ofInt 1)]) current) := by decide +kernel
  have ran : snapshot current configStem oneStored =
      (.ok (computeDelta (.ofList [("a", .ofInt 1)]) current),
        (snapshot current configStem oneStored).2) := by
    rw [← told]
  obtain ⟨_, after, _, left, _, _, readBack, _⟩ :=
    snapshot_outcome (by decide) (.inl rfl) storable ran
  have changed : (computeDelta (.ofList [("a", .ofInt 1)]) current).isEmpty = false := by
    decide +kernel
  rw [changed, if_neg Bool.false_ne_true] at readBack
  exact ⟨after, left, readBack⟩

/-- A snapshot does not make the current configuration the stored one: with `1` stored, `1.0` is
not stored on its own, although it is with a change of another key. -/
theorem like_configuration_not_stored :
    snapshot (.ofList [("a", floatOne)]) configStem oneStored = (.ok ∅, oneStored) ∧
      oneStored.getRange configStem true = .ok (some (.ofList [("a", .ofInt 1)])) ∧
      oneStored.getRaw "config.a" = .ok (some "1") ∧
      (snapshot (.ofList [("a", floatOne), ("b", .ofInt 2)]) configStem oneStored).2.getRaw
        "config.a" = .ok (some "1.0") := by
  decide +kernel

end Store

end UnitState
