import Mathlib.Data.List.Perm.Subperm
import UnitState.Delta
import UnitState.Proofs.JsonRoundTrip

/-!
# Deltas between exact values

A delta lists each key whose values differ, in the order of the keys. Numbers are compared by
value, which is a comparison up to rounding only where floats are involved: canonical values
whose numbers are all integers are alike only if they are equal. So between objects of such
values the delta is empty only if nothing has changed.
-/

set_option autoImplicit false

namespace UnitState

namespace Table

variable {Key Value Other : Type} [KeyOrder Key]

theorem get?_filter_map (table : Table Key Value) (change : Key → Value → Option Other)
    (key : Key) : (table.filterMap change).get? key = (table.get? key).bind (change key) := by
  apply Option.ext
  intro other
  rw [get?_eq_some_iff, filterMap, List.mem_filterMap, Option.bind_eq_some_iff]
  constructor
  · intro kept
    obtain ⟨binding, member, shape⟩ := kept
    obtain ⟨value, changed, same⟩ := Option.map_eq_some_iff.1 shape
    cases same
    exact ⟨binding.2, get?_eq_some_iff.2 member, changed⟩
  · intro found
    obtain ⟨value, bound, changed⟩ := found
    exact ⟨(key, value), get?_eq_some_iff.1 bound, by rw [changed]; rfl⟩

theorem get?_map (table : Table Key Value) (change : Key → Value → Other) (key : Key) :
    (table.map change).get? key = (table.get? key).map (change key) := by
  apply Option.ext
  intro other
  rw [get?_eq_some_iff, map, List.mem_map, Option.map_eq_some_iff]
  constructor
  · intro kept
    obtain ⟨binding, member, same⟩ := kept
    cases same
    exact ⟨binding.2, get?_eq_some_iff.2 member, rfl⟩
  · intro found
    obtain ⟨value, bound, same⟩ := found
    exact ⟨(key, value), get?_eq_some_iff.1 bound, by rw [← same]⟩

theorem get?_foldl_insert (table : Table Key Value) {bindings : List (Key × Value)}
    (increasing : bindings.Pairwise fun left right => KeyOrder.before left.1 right.1 = true)
    (key : Key) :
    (bindings.foldl (fun table binding => table.insert binding.1 binding.2) table).get? key =
      (find key bindings).or (table.get? key) := by
  induction bindings generalizing table with
  | nil => rfl
  | cons head tail hypothesis =>
      obtain ⟨headFirst, tailIncreasing⟩ := List.pairwise_cons.1 increasing
      have apart : (KeyOrder.before head.1 key || KeyOrder.before key head.1) = true →
          (table.insert head.1 head.2).get? key = table.get? key := by
        intro different
        rw [Bool.or_comm] at different
        exact get?_insert_of_ne table head.2 (before_or_before_iff.1 different)
      rw [List.foldl_cons, hypothesis _ tailIncreasing, find]
      cases early : KeyOrder.before head.1 key with
      | true =>
          rw [apart (by rw [early]; rfl)]
          rfl
      | false =>
          -- the later bindings all come after the key
          have absent : find key tail = none := by
            apply find_eq_none_of_before
            intro binding member
            cases late : KeyOrder.before key head.1 with
            | true => exact KeyOrder.transitive late (headFirst binding member)
            | false => exact KeyOrder.connected early late ▸ headFirst binding member
          rw [absent]
          cases late : KeyOrder.before key head.1 with
          | true =>
              rw [apart (by rw [early, late]; rfl)]
              rfl
          | false =>
              rw [← KeyOrder.connected early late, get?_insert_self]
              rfl

theorem get?_override (table later : Table Key Value) (key : Key) :
    (table.override later).get? key = (later.get? key).or (table.get? key) :=
  get?_foldl_insert table later.increasing key

end Table

namespace Json.Value

/-- A value is exact if it is canonical and all its numbers are integers. -/
structure Exact (value : Value) : Prop where
  canonical : value.Canonical
  integers : value.EveryNumber fun number => number.isFloat = false

namespace Exact

theorem of_mem_items {items : List Value} (exact : (array items).Exact) :
    ∀ item ∈ items, item.Exact := fun item member =>
  ⟨canonical_items_iff.1 exact.canonical item member,
    every_number_items_iff.1 exact.integers item member⟩

theorem of_mem_members {members : List (String × Value)} (exact : (object members).Exact) :
    ∀ member ∈ members, member.2.Exact := fun member belongs =>
  ⟨canonical_members_iff.1 exact.canonical.2 member belongs,
    every_number_members_iff.1 exact.integers member belongs⟩

theorem reread {value : Value} (exact : value.Exact) :
    value.EveryNumber fun number => number.reread = number := by
  apply exact.integers.imp
  intro number whole
  cases number with
  | integer value inRange => exact Number.reread_integer inRange
  | float value => cases whole

end Exact

theorem Increasing.eq_of_subset {left right : List (String × Value)} (leftOrder : Increasing left)
    (rightOrder : Increasing right) (subset : ∀ member ∈ left, member ∈ right)
    (long : left.length = right.length) : left = right := by
  have distinct : left.Nodup := leftOrder.imp fun {first second} order same => by
    rw [same, KeyOrder.irreflexive] at order
    cases order
  have same : left.Perm right :=
    (List.subperm_of_subset distinct subset).perm_of_length_le (Nat.le_of_eq long.symm)
  apply same.eq_of_pairwise _ leftOrder rightOrder
  intro first second _ _ forward backward
  rw [KeyOrder.asymmetric forward] at backward
  cases backward

mutual

theorem eq_of_alike (left right : Value) (leftExact : left.Exact) (rightExact : right.Exact)
    (same : left.alike right = true) : left = right := by
  cases left with
  | null => cases right <;> first | rfl | cases same
  | bool flag =>
      cases right with
      | bool other => exact congrArg bool (beq_iff_eq.1 same)
      | _ => cases same
  | string text =>
      cases right with
      | string other => exact congrArg string (beq_iff_eq.1 same)
      | _ => cases same
  | number content =>
      cases right with
      | number other =>
          cases content with
          | float value => cases leftExact.integers
          | integer value inRange =>
              cases other with
              | float value => cases rightExact.integers
              | integer other otherInRange =>
                  have equal : value = other := beq_iff_eq.1 same
                  subst equal
                  rfl
      | _ => cases same
  | array items =>
      cases right with
      | array others =>
          rw [alike, Bool.and_eq_true, beq_iff_eq] at same
          exact congrArg array (items_eq_of_alike items others leftExact.of_mem_items
            rightExact.of_mem_items same.1 same.2)
      | _ => cases same
  | object members =>
      cases right with
      | object others =>
          rw [alike, Bool.and_eq_true, beq_iff_eq] at same
          have subset := members_subset_of_alike members others leftExact.of_mem_members
            rightExact.canonical.1 rightExact.of_mem_members same.2
          exact congrArg object
            (leftExact.canonical.1.eq_of_subset rightExact.canonical.1 subset same.1)
      | _ => cases same

theorem items_eq_of_alike (left right : List Value) (leftExact : ∀ item ∈ left, item.Exact)
    (rightExact : ∀ item ∈ right, item.Exact) (long : left.length = right.length)
    (same : alikeItems left right = true) : left = right := by
  cases left with
  | nil => exact (List.eq_nil_of_length_eq_zero long.symm).symm
  | cons head tail =>
      cases right with
      | nil => cases long
      | cons other later =>
          rw [alikeItems, Bool.and_eq_true] at same
          have heads := eq_of_alike head other (leftExact head List.mem_cons_self)
            (rightExact other List.mem_cons_self) same.1
          have tails := items_eq_of_alike tail later
            (fun item member => leftExact item (List.mem_cons_of_mem head member))
            (fun item member => rightExact item (List.mem_cons_of_mem other member))
            (Nat.succ_inj.1 long) same.2
          rw [heads, tails]

theorem members_subset_of_alike (left right : List (String × Value))
    (leftExact : ∀ member ∈ left, member.2.Exact) (order : Increasing right)
    (rightExact : ∀ member ∈ right, member.2.Exact)
    (same : alikeMembers left right = true) : ∀ member ∈ left, member ∈ right := by
  cases left with
  | nil =>
      intro member belongs
      cases belongs
  | cons head tail =>
      obtain ⟨key, value⟩ := head
      rw [alikeMembers, Bool.and_eq_true] at same
      obtain ⟨first, rest⟩ := same
      have later := members_subset_of_alike tail right
        (fun member belongs => leftExact member (List.mem_cons_of_mem _ belongs)) order
        rightExact rest
      intro member belongs
      rcases List.mem_cons.1 belongs with rfl | laterMember
      · split at first
        · rename_i other found
          have bound := (Table.find_eq_some_iff order).1 found
          have equal := eq_of_alike value other (leftExact _ List.mem_cons_self)
            (rightExact _ bound) first
          rw [equal]
          exact bound
        · cases first
      · exact later member laterMember

end

end Json.Value

open Json

/-! ## Computed deltas -/

section Computed

variable {previous current : Object}

theorem mem_compute_delta_iff {key : String} {delta : Delta} :
    (key, delta) ∈ (computeDelta previous current).entries ↔
      changeOf previous current key = some delta := by
  rw [computeDelta, DeltaSet.ofTable, ← Table.get?_eq_some_iff, Table.get?_filter_map,
    Table.get?_override, Table.get?_map, Table.get?_map]
  -- a key that is on neither side has no change
  unfold changeOf
  cases previous.get? key <;> cases current.get? key <;> rfl

theorem sides_of_change_of {key : String} {delta : Delta}
    (change : changeOf previous current key = some delta) :
    delta = ⟨previous.get? key, current.get? key⟩ := by
  unfold changeOf at change
  cases before : previous.get? key <;> cases after : current.get? key <;>
    simp only [before, after] at change
  · cases change
  · cases change
    rfl
  · cases change
    rfl
  · split at change
    · cases change
    · cases change
      rfl

theorem mem_keys_where_iff {test : Delta → Bool} {key : String} :
    key ∈ (computeDelta previous current).keysWhere test ↔
      ∃ delta, changeOf previous current key = some delta ∧ test delta = true := by
  rw [DeltaSet.keysWhere, List.mem_map]
  constructor
  · rintro ⟨⟨found, delta⟩, member, rfl⟩
    obtain ⟨listed, passes⟩ := List.mem_filter.1 member
    exact ⟨delta, mem_compute_delta_iff.1 listed, passes⟩
  · rintro ⟨delta, change, passes⟩
    exact ⟨(key, delta), List.mem_filter.2 ⟨mem_compute_delta_iff.2 change, passes⟩, rfl⟩

theorem mem_removed_iff {key : String} :
    key ∈ (computeDelta previous current).removed ↔
      previous.get? key ≠ none ∧ current.get? key = none := by
  rw [DeltaSet.removed, mem_keys_where_iff]
  constructor
  · rintro ⟨delta, change, removed⟩
    rw [sides_of_change_of change] at removed
    simpa [Delta.isRemoved, Option.isSome_iff_ne_none] using removed
  · rintro ⟨known, absent⟩
    obtain ⟨value, before⟩ := Option.ne_none_iff_exists'.1 known
    refine ⟨⟨some value, none⟩, ?_, rfl⟩
    unfold changeOf
    rw [before, absent]

def Json.Value.ExactObject (object : Object) : Prop :=
  ∀ name value, object.get? name = some value → value.Exact

theorem eq_of_compute_delta_empty (previousExact : Value.ExactObject previous)
    (currentExact : Value.ExactObject current)
    (empty : (computeDelta previous current).isEmpty = true) : previous = current := by
  have unchanged : ∀ key, changeOf previous current key = none := by
    intro key
    cases change : changeOf previous current key with
    | none => rfl
    | some delta =>
        have listed := mem_compute_delta_iff.2 change
        rw [List.isEmpty_iff.1 empty] at listed
        cases listed
  apply Table.ext_get?
  intro key
  have change := unchanged key
  unfold changeOf at change
  cases before : previous.get? key with
  | none =>
      cases after : current.get? key with
      | none => rfl
      | some value => simp [before, after] at change
  | some value =>
      cases after : current.get? key with
      | none => simp [before, after] at change
      | some other =>
          simp only [before, after] at change
          split at change
          · rename_i alike
            exact congrArg some (Value.eq_of_alike value other (previousExact key value before)
              (currentExact key other after) alike)
          · cases change

end Computed

end UnitState
