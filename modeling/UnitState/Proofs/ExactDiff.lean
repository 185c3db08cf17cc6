import Mathlib.Data.List.Nodup
import UnitState.Proofs.ByteOrder
import UnitState.Proofs.Deltas
import UnitState.Proofs.Likeness

/-!
# The delta set as a patch

The delta set of two objects is what it takes to make the one like the other. It lists in byte
order each key that only one side has, or that both have with values that are not alike, and
every listed key is added, removed or changed. Applied to the first object it gives the keys of
the second one, whose value is taken over where the key is listed and alike to the one that is
left standing elsewhere.
-/

set_option autoImplicit false

namespace UnitState

open Json

namespace Table

variable {Key Value : Type} [KeyOrder Key]

def putEach (value? : Key → Option Value) (keys : List Key) (table : Table Key Value) :
    Table Key Value :=
  keys.foldl (fun table key => match value? key with
    | some value => table.insert key value
    | none => table) table

theorem get?_foldl_erase [DecidableEq Key] (keys : List Key) (table : Table Key Value) (key : Key) :
    (keys.foldl erase table).get? key = if key ∈ keys then none else table.get? key := by
  induction keys generalizing table with
  | nil => rfl
  | cons head tail hypothesis =>
      rw [List.foldl_cons, hypothesis]
      by_cases later : key ∈ tail
      · rw [if_pos later, if_pos (List.mem_cons_of_mem head later)]
      · rw [if_neg later]
        by_cases same : key = head
        · rw [same, get?_erase_self, if_pos List.mem_cons_self]
        · rw [get?_erase_of_ne table same, if_neg (List.not_mem_cons_of_ne_of_not_mem same later)]

theorem get?_put_each [DecidableEq Key] (value? : Key → Option Value) (keys : List Key)
    (table : Table Key Value) (key : Key) :
    (putEach value? keys table).get? key =
      if key ∈ keys then (value? key).or (table.get? key) else table.get? key := by
  unfold putEach
  induction keys generalizing table with
  | nil => rfl
  | cons head tail hypothesis =>
      have first : (match value? head with
          | some value => table.insert head value
          | none => table).get? key =
          if key = head then (value? key).or (table.get? key) else table.get? key := by
        by_cases same : key = head
        · rw [if_pos same, same]
          cases value? head with
          | none => rfl
          | some value => exact get?_insert_self table head value
        · rw [if_neg same]
          cases value? head with
          | none => rfl
          | some value => exact get?_insert_of_ne table value same
      rw [List.foldl_cons, hypothesis, first]
      by_cases same : key = head
      · rw [if_pos same, if_pos (same ▸ List.mem_cons_self : key ∈ head :: tail)]
        split
        · cases value? key <;> rfl
        · rfl
      · rw [if_neg same]
        by_cases later : key ∈ tail
        · rw [if_pos later, if_pos (List.mem_cons_of_mem head later)]
        · rw [if_neg later, if_neg (List.not_mem_cons_of_ne_of_not_mem same later)]

end Table

/-- The object with the removed keys gone and the current value of each added or changed key. -/
def DeltaSet.patch (set : DeltaSet) (object : Object) : Object :=
  (set.removed.foldl Table.erase object).putEach (fun key => (set.get? key).bind Delta.current)
    (set.added ++ set.changed)

theorem DeltaSet.get?_eq_some_iff {set : DeltaSet} {key : String} {delta : Delta} :
    set.get? key = some delta ↔ (key, delta) ∈ set.entries := by
  unfold get?
  rw [Option.map_eq_some_iff]
  constructor
  · rintro ⟨entry, found, rfl⟩
    have same := List.find?_some found
    rw [← beq_iff_eq.1 same]
    exact List.mem_of_find?_eq_some found
  · intro member
    cases found : set.entries.find? fun entry => entry.1 == key with
    | none =>
        have absent := List.find?_eq_none.1 found (key, delta) member
        exact absurd (beq_self_eq_true key) absent
    | some entry =>
        have same := List.find?_some found
        have listed := List.mem_of_find?_eq_some found
        have equal : entry = (key, delta) :=
          List.inj_on_of_nodup_map set.distinct listed member (beq_iff_eq.1 same)
        exact ⟨entry, rfl, by rw [equal]⟩

section Computed

variable {previous current : Object} {key : String}

theorem change_of_eq_none_iff :
    changeOf previous current key = none ↔
      Option.Rel (fun before after => before.alike after = true) (previous.get? key)
        (current.get? key) := by
  unfold changeOf
  constructor
  · intro none
    cases before : previous.get? key with
    | none =>
        cases after : current.get? key with
        | none => exact .none
        | some value => simp [before, after] at none
    | some value =>
        cases after : current.get? key with
        | none => simp [before, after] at none
        | some other =>
            simp only [before, after] at none
            split at none
            · rename_i like
              exact .some like
            · cases none
  · intro sides
    generalize previous.get? key = before at sides
    generalize current.get? key = after at sides
    cases sides with
    | none => rfl
    | some like => exact if_pos like

theorem get?_compute_delta :
    (computeDelta previous current).get? key = changeOf previous current key := by
  apply Option.ext
  intro delta
  rw [DeltaSet.get?_eq_some_iff, mem_compute_delta_iff]

theorem mem_added_iff :
    key ∈ (computeDelta previous current).added ↔
      previous.get? key = none ∧ current.get? key ≠ none := by
  rw [DeltaSet.added, mem_keys_where_iff]
  constructor
  · rintro ⟨delta, change, added⟩
    rw [sides_of_change_of change] at added
    simpa [Delta.isAdded, Option.isSome_iff_ne_none] using added
  · rintro ⟨absent, known⟩
    obtain ⟨value, after⟩ := Option.ne_none_iff_exists'.1 known
    refine ⟨⟨none, some value⟩, ?_, rfl⟩
    unfold changeOf
    rw [absent, after]

theorem mem_changed_iff :
    key ∈ (computeDelta previous current).changed ↔
      ∃ before after, previous.get? key = some before ∧ current.get? key = some after ∧
        before.alike after = false := by
  rw [DeltaSet.changed, mem_keys_where_iff]
  constructor
  · rintro ⟨delta, change, changed⟩
    rw [sides_of_change_of change] at changed
    unfold Delta.isChanged at changed
    split at changed
    · rename_i before after found bound
      exact ⟨before, after, found, bound, by simpa using changed⟩
    · cases changed
  · rintro ⟨before, after, found, bound, unlike⟩
    refine ⟨⟨some before, some after⟩, ?_, ?_⟩
    · unfold changeOf
      rw [found, bound]
      exact if_neg (ne_true_of_eq_false unlike)
    · exact congrArg (!·) unlike

theorem mem_keys_iff_change :
    key ∈ (computeDelta previous current).keys ↔ changeOf previous current key ≠ none := by
  rw [DeltaSet.keys, List.mem_map, Option.ne_none_iff_exists']
  constructor
  · rintro ⟨⟨_, delta⟩, member, rfl⟩
    exact ⟨delta, mem_compute_delta_iff.1 member⟩
  · rintro ⟨delta, change⟩
    exact ⟨(key, delta), mem_compute_delta_iff.2 change, rfl⟩

theorem mem_keys_iff :
    key ∈ (computeDelta previous current).keys ↔
      key ∈ (computeDelta previous current).added ∨
        key ∈ (computeDelta previous current).removed ∨
        key ∈ (computeDelta previous current).changed := by
  rw [mem_keys_iff_change, mem_added_iff, mem_removed_iff, mem_changed_iff, ne_eq,
    change_of_eq_none_iff]
  cases previous.get? key with
  | none =>
      cases current.get? key with
      | none => simp
      | some after => simp
  | some before =>
      cases current.get? key with
      | none => simp
      | some after => simp

theorem keys_increasing (previous current : Object) :
    ((computeDelta previous current).keys.map bytes).Pairwise (· < ·) := by
  unfold DeltaSet.keys
  rw [List.map_map, List.pairwise_map]
  apply (Table.increasing _).imp
  exact before_iff_bytes_lt.1

theorem keys_where_nodup (set : DeltaSet) (test : Delta → Bool) : (set.keysWhere test).Nodup :=
  set.distinct.sublist (List.filter_sublist.map _)

/-- Every listed key has exactly one of the three kinds. -/
theorem kinds_perm_keys (previous current : Object) :
    ((computeDelta previous current).added ++ ((computeDelta previous current).removed ++
      (computeDelta previous current).changed)).Perm (computeDelta previous current).keys := by
  have removedOrChanged : ((computeDelta previous current).removed ++
      (computeDelta previous current).changed).Nodup := by
    apply List.Nodup.append (keys_where_nodup _ _) (keys_where_nodup _ _)
    intro key removed changed
    obtain ⟨before, after, _, bound, _⟩ := mem_changed_iff.1 changed
    rw [(mem_removed_iff.1 removed).2] at bound
    cases bound
  have each : ((computeDelta previous current).added ++ ((computeDelta previous current).removed ++
      (computeDelta previous current).changed)).Nodup := by
    apply List.Nodup.append (keys_where_nodup _ _) removedOrChanged
    intro key added others
    have absent := (mem_added_iff.1 added).1
    rcases List.mem_append.1 others with removed | changed
    · exact (mem_removed_iff.1 removed).1 absent
    · obtain ⟨before, after, found, _⟩ := mem_changed_iff.1 changed
      rw [absent] at found
      cases found
  apply (List.perm_ext_iff_of_nodup each (computeDelta previous current).distinct).2
  intro key
  rw [List.mem_append, List.mem_append]
  exact mem_keys_iff.symm

theorem get?_patch :
    ((computeDelta previous current).patch previous).get? key =
      if key ∈ (computeDelta previous current).keys then current.get? key
      else previous.get? key := by
  unfold DeltaSet.patch
  rw [Table.get?_put_each, Table.get?_foldl_erase]
  by_cases listed : key ∈ (computeDelta previous current).keys
  · obtain ⟨delta, change⟩ := Option.ne_none_iff_exists'.1 (mem_keys_iff_change.1 listed)
    rw [if_pos listed, get?_compute_delta, change, sides_of_change_of change, Option.bind_some]
    by_cases removed : key ∈ (computeDelta previous current).removed
    · have absent := (mem_removed_iff.1 removed).2
      rw [if_pos removed, absent]
      split <;> rfl
    · have put : key ∈ (computeDelta previous current).added ++
          (computeDelta previous current).changed := by
        rw [List.mem_append]
        have kinds := mem_keys_iff.1 listed
        tauto
      have known : current.get? key ≠ none := by
        rcases List.mem_append.1 put with added | changed
        · exact (mem_added_iff.1 added).2
        · obtain ⟨_, after, _, bound, _⟩ := mem_changed_iff.1 changed
          rw [bound]
          exact Option.some_ne_none after
      obtain ⟨value, bound⟩ := Option.ne_none_iff_exists'.1 known
      rw [if_pos put, bound, Option.some_or]
  · have absent : key ∉ (computeDelta previous current).removed ∧
        key ∉ (computeDelta previous current).added ++ (computeDelta previous current).changed := by
      rw [mem_keys_iff] at listed
      rw [List.mem_append]
      tauto
    rw [if_neg listed, if_neg absent.1, if_neg absent.2]

theorem compute_delta_empty_iff :
    (computeDelta previous current).isEmpty = true ↔
      (Value.ofObject previous).alike (Value.ofObject current) = true := by
  rw [Value.ofObject, Value.ofObject, Value.alike, Bool.and_eq_true, beq_iff_eq,
    Value.alike_members_iff previous.increasing current.increasing, DeltaSet.isEmpty,
    List.isEmpty_iff, List.eq_nil_iff_forall_not_mem]
  constructor
  · intro none key
    apply change_of_eq_none_iff.1
    by_contra listed
    obtain ⟨delta, change⟩ := Option.ne_none_iff_exists'.1 listed
    exact none (key, delta) (mem_compute_delta_iff.2 change)
  · intro like entry member
    have change := mem_compute_delta_iff.1 member
    rw [change_of_eq_none_iff.2 (like entry.1)] at change
    cases change

/-- A patched object has the current values but for those that are alike to the ones it had. -/
theorem patched_alike (previous : Object) (currentSorted : (Value.ofObject current).Canonical)
    (key : String) :
    Option.Rel (fun patched value => patched.alike value = true)
      (((computeDelta previous current).patch previous).get? key) (current.get? key) := by
  rw [get?_patch]
  by_cases listed : key ∈ (computeDelta previous current).keys
  · rw [if_pos listed]
    cases bound : current.get? key with
    | none => exact .none
    | some value =>
        have member := Table.get?_eq_some_iff.1 bound
        exact .some (Value.alike_refl (Value.canonical_members_iff.1 currentSorted.2 _ member))
  · rw [if_neg listed]
    rw [mem_keys_iff_change, not_not] at listed
    exact change_of_eq_none_iff.1 listed

end Computed

/-- A delta set is the difference of two objects: nothing more and nothing less than what leads
from the one to the other. -/
structure DeltaSet.Between (deltas : DeltaSet) (previous current : Object) : Prop where
  increasing : (deltas.keys.map bytes).Pairwise (· < ·)
  distinct : deltas.keys.Nodup
  listed : ∀ key, key ∈ deltas.keys ↔ previous.contains key ≠ current.contains key ∨
    ∃ before after, previous.get? key = some before ∧ current.get? key = some after ∧
      before.alike after = false
  sides : ∀ entry ∈ deltas.entries,
    entry.2.previous = previous.get? entry.1 ∧ entry.2.current = current.get? entry.1
  added : ∀ key, key ∈ deltas.added ↔ previous.get? key = none ∧ current.get? key ≠ none
  removed : ∀ key, key ∈ deltas.removed ↔ previous.get? key ≠ none ∧ current.get? key = none
  kinds : (deltas.added ++ (deltas.removed ++ deltas.changed)).Perm deltas.keys
  patchedKeys : ∀ key, (deltas.patch previous).contains key = current.contains key
  patchedValues : ∀ key value, current.get? key = some value →
    ∃ patched, (deltas.patch previous).get? key = some patched ∧ patched.alike value = true ∧
      (key ∈ deltas.keys → patched = value)
  empty : deltas.isEmpty = true ↔
    (Value.ofObject previous).alike (Value.ofObject current) = true

theorem compute_delta_between (previous : Object) {current : Object}
    (currentSorted : (Value.ofObject current).Canonical) :
    (computeDelta previous current).Between previous current where
  increasing := keys_increasing previous current
  distinct := (computeDelta previous current).distinct
  listed := by
    intro key
    rw [mem_keys_iff, mem_added_iff, mem_removed_iff, mem_changed_iff, ← or_assoc]
    apply or_congr_left
    unfold Table.contains
    cases previous.get? key <;> cases current.get? key <;> simp
  sides := by
    intro entry member
    rw [sides_of_change_of (mem_compute_delta_iff.1 member)]
    exact ⟨rfl, rfl⟩
  added := fun _ => mem_added_iff
  removed := fun _ => mem_removed_iff
  kinds := kinds_perm_keys previous current
  patchedKeys := by
    intro key
    have alike := patched_alike previous currentSorted key
    unfold Table.contains
    generalize ((computeDelta previous current).patch previous).get? key = patched at alike
    generalize current.get? key = value at alike
    cases alike <;> rfl
  patchedValues := by
    intro key value bound
    have alike := patched_alike previous currentSorted key
    rw [bound] at alike
    cases found : ((computeDelta previous current).patch previous).get? key with
    | none =>
        rw [found] at alike
        cases alike
    | some patched =>
        rw [found, Option.rel_some_some] at alike
        refine ⟨patched, rfl, alike, fun listed => ?_⟩
        rw [get?_patch, if_pos listed, bound] at found
        exact (Option.some.inj found).symm
  empty := compute_delta_empty_iff

/-- A null that goes and one that comes, and a number that is written in another way. -/
theorem compute_delta_between_nulls :
    (Value.ofObject (.ofList [("new", .null), ("port", .number (.float (.zero false)))])).Canonical ∧
      (computeDelta (.ofList [("old", .null), ("port", .ofInt 0)])
        (.ofList [("new", .null), ("port", .number (.float (.zero false)))])).Between
        (.ofList [("old", .null), ("port", .ofInt 0)])
        (.ofList [("new", .null), ("port", .number (.float (.zero false)))]) := by
  have sorted : (Value.ofObject (.ofList
      [("new", .null), ("port", .number (.float (.zero false)))])).Canonical :=
    ⟨Table.increasing _, trivial, trivial, trivial⟩
  exact ⟨sorted, compute_delta_between _ sorted⟩

end UnitState
