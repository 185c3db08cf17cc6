import UnitState.Proofs.ExactDiff

/-!
# The sides of a diff swapped

Likeness is symmetric and the keys of both sides are merged in their order, so it makes no
difference which side comes first: the diff back from the current object lists the same keys in
the same order, each with its two sides exchanged. What was added one way is removed the other
way, and what was changed is changed both ways.
-/

set_option autoImplicit false

namespace UnitState

open Json

namespace Delta

variable (delta : Delta)

@[simp] theorem is_added_swap : delta.swap.isAdded = delta.isRemoved :=
  Bool.and_comm _ _

@[simp] theorem is_removed_swap : delta.swap.isRemoved = delta.isAdded :=
  Bool.and_comm _ _

end Delta

namespace DeltaSet

def swapEntries (set : DeltaSet) : List (String × Delta) :=
  set.entries.map fun entry => (entry.1, entry.2.swap)

theorem mem_swap_entries_iff {set : DeltaSet} {key : String} {delta : Delta} :
    (key, delta) ∈ set.swapEntries ↔ (key, delta.swap) ∈ set.entries := by
  rw [swapEntries, List.mem_map]
  constructor
  · rintro ⟨entry, member, same⟩
    cases same
    exact member
  · intro member
    exact ⟨_, member, rfl⟩

theorem keys_swap_entries (set : DeltaSet) : set.swapEntries.map (·.1) = set.keys := by
  rw [swapEntries, keys, List.map_map]
  rfl

theorem keys_where_of_swapped {set swapped : DeltaSet} (entries : swapped.entries = set.swapEntries)
    {test other : Delta → Bool}
    (same : ∀ entry ∈ set.entries, test entry.2.swap = other entry.2) :
    swapped.keysWhere test = set.keysWhere other := by
  rw [keysWhere, keysWhere, entries, swapEntries, List.filter_map, List.map_map]
  exact congrArg (List.map (·.1)) (List.filter_congr same)

end DeltaSet

section Swapped

variable {previous current : Object} (previousSorted : (Value.ofObject previous).Canonical)
  (currentSorted : (Value.ofObject current).Canonical)

include previousSorted currentSorted

theorem alike_at_symm {key : String} {before after : Value}
    (found : previous.get? key = some before) (bound : current.get? key = some after) :
    after.alike before = before.alike after := by
  have beforeSorted := Value.canonical_members_iff.1 previousSorted.2 (key, before)
    (Table.get?_eq_some_iff.1 found)
  have afterSorted := Value.canonical_members_iff.1 currentSorted.2 (key, after)
    (Table.get?_eq_some_iff.1 bound)
  exact Value.alike_symm afterSorted beforeSorted

theorem change_of_swap (key : String) :
    changeOf current previous key = (changeOf previous current key).map Delta.swap := by
  unfold changeOf
  cases before : previous.get? key with
  | none => cases current.get? key <;> rfl
  | some value =>
      cases after : current.get? key with
      | none => rfl
      | some other =>
          simp only [alike_at_symm previousSorted currentSorted before after]
          cases value.alike other <;> rfl

theorem entries_compute_delta_swap :
    (computeDelta current previous).entries = (computeDelta previous current).swapEntries := by
  have increasing : (computeDelta previous current).swapEntries.Pairwise
      fun left right => KeyOrder.before left.1 right.1 = true :=
    List.pairwise_map.2 (Table.increasing _)
  -- both lists are in the order of their keys, so it is enough that they have the same entries
  apply Table.entries_eq_of_get?_eq (Table.increasing _) increasing
  intro key
  apply Option.ext
  intro delta
  have listed : (key, delta) ∈ (computeDelta current previous).entries ↔
      (key, delta) ∈ (computeDelta previous current).swapEntries := by
    rw [DeltaSet.mem_swap_entries_iff, mem_compute_delta_iff, mem_compute_delta_iff,
      change_of_swap previousSorted currentSorted, Option.map_eq_some_iff]
    constructor
    · rintro ⟨other, change, rfl⟩
      exact change
    · exact fun change => ⟨delta.swap, change, rfl⟩
  rw [Table.find_eq_some_iff increasing, ← listed]
  exact Table.get?_eq_some_iff

theorem is_changed_swap {entry : String × Delta}
    (member : entry ∈ (computeDelta previous current).entries) :
    entry.2.swap.isChanged = entry.2.isChanged := by
  have sides := sides_of_change_of (mem_compute_delta_iff.1 member)
  rw [sides, Delta.swap]
  unfold Delta.isChanged
  cases before : previous.get? entry.1 with
  | none => cases current.get? entry.1 <;> rfl
  | some value =>
      cases after : current.get? entry.1 with
      | none => rfl
      | some other => exact congrArg (!·) (alike_at_symm previousSorted currentSorted before after)

/-- The diff of two objects with its sides swapped has the same keys in the same order, and each
entry has its sides exchanged. -/
theorem compute_delta_swapped :
    (computeDelta current previous).entries =
        (computeDelta previous current).entries.map (fun entry => (entry.1, entry.2.swap)) ∧
      (computeDelta current previous).keys = (computeDelta previous current).keys ∧
      (computeDelta current previous).added = (computeDelta previous current).removed ∧
      (computeDelta current previous).removed = (computeDelta previous current).added ∧
      (computeDelta current previous).changed = (computeDelta previous current).changed := by
  have entries := entries_compute_delta_swap previousSorted currentSorted
  refine ⟨entries, ?_, ?_, ?_, ?_⟩
  · rw [DeltaSet.keys, entries, DeltaSet.keys_swap_entries]
  · exact DeltaSet.keys_where_of_swapped entries fun entry _ => entry.2.is_added_swap
  · exact DeltaSet.keys_where_of_swapped entries fun entry _ => entry.2.is_removed_swap
  · exact DeltaSet.keys_where_of_swapped entries fun _ =>
      is_changed_swap previousSorted currentSorted

end Swapped

/-- Objects that differ inside a nested value, in a number that is no change, and in two keys of
which either side has one. -/
theorem nested_ports_swapped :
    let previous : Object := .ofList
      [("old", .null), ("port", .ofInt 0), ("tls", .object [("key", .ofInt 1), ("on", .bool true)])]
    let current : Object := .ofList
      [("new", .null), ("port", .number (.float (.zero true))),
        ("tls", .object [("on", .bool true)])]
    (Value.ofObject previous).Canonical ∧ (Value.ofObject current).Canonical ∧
      (computeDelta previous current).keys = ["new", "old", "tls"] ∧
      (computeDelta current previous).keys = (computeDelta previous current).keys ∧
      (computeDelta current previous).added = (computeDelta previous current).removed := by
  intro previous current
  have previousSorted : (Value.ofObject previous).Canonical :=
    ⟨Table.increasing _, trivial, trivial,
      ⟨List.pairwise_pair.2 (by decide), trivial, trivial, trivial⟩, trivial⟩
  have currentSorted : (Value.ofObject current).Canonical :=
    ⟨Table.increasing _, trivial, trivial, ⟨List.pairwise_singleton _ _, trivial, trivial⟩, trivial⟩
  obtain ⟨_, keys, added, _⟩ := compute_delta_swapped previousSorted currentSorted
  exact ⟨previousSorted, currentSorted, by decide +kernel, keys, added⟩

end UnitState
