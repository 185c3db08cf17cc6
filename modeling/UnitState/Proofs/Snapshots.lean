import Mathlib.Data.List.TakeWhile
import Mathlib.Data.String.Basic
import UnitState.Proofs.AllOrNothing

/-!
# Snapshots

An object is kept under a stem as one row per member. As long as the rows under the stem are
those of an object that can be read back, the delta against them is the one against the object,
and a snapshot makes them the rows of the new object. What is written under other keys leaves
them alone.
-/

set_option autoImplicit false

namespace UnitState

open Json

namespace Database

theorem starts_with_iff {stem key : String} (plain : '\x00' ∉ stem.toList) :
    startsWith stem key = true ↔ ∃ name, key = stem ++ name := by
  rw [startsWith, beq_iff_eq]
  constructor
  · intro taken
    have front : stem.toList <+: key.toList := by
      rw [← taken]
      exact (List.take_prefix _ _).trans (List.takeWhile_prefix _)
    obtain ⟨name, whole⟩ := front
    refine ⟨String.ofList name, ?_⟩
    rw [← String.toList_inj, String.toList_append, String.toList_ofList, whole]
  · rintro ⟨name, rfl⟩
    have kept : ∀ character ∈ stem.toList, (character != '\x00') = true := by
      intro character member
      apply bne_iff_ne.2
      rintro rfl
      exact plain member
    rw [String.toList_append, List.takeWhile_append_of_pos kept, List.take_left]

/-- Whether a search by a stem is for a key: the key begins with the stem, in which there is no
NUL. -/
def Sought (stem key : String) : Prop := '\x00' ∉ stem.toList ∧ ∃ name, key = stem ++ name

theorem starts_with_iff_sought {stem key : String} :
    startsWith stem key = true ↔ Sought stem key := by
  constructor
  · intro starts
    have plain : '\x00' ∉ stem.toList := by
      intro nul
      have taken := beq_iff_eq.1 starts
      rw [← taken] at nul
      -- what is compared with the stem ends before the first NUL
      have kept := List.mem_takeWhile_imp (List.mem_of_mem_take nul)
      exact absurd kept (by decide)
    exact ⟨plain, (starts_with_iff plain).1 starts⟩
  · rintro ⟨plain, named⟩
    exact (starts_with_iff plain).2 named

end Database

theorem Store.strip_stem_append (stem name : String) : stripStem stem (stem ++ name) = name := by
  rw [stripStem, String.toList_append, List.drop_left, String.ofList_toList]

theorem before_append (stem : String) {left right : String}
    (order : KeyOrder.before left right = true) :
    KeyOrder.before (stem ++ left) (stem ++ right) = true := by
  have less : left < right := of_decide_eq_true order
  apply decide_eq_true
  rw [String.lt_iff_toList_lt, String.toList_append, String.toList_append]
  exact List.append_left_lt (String.lt_iff_toList_lt.1 less)

theorem DeltaSet.eq_empty {deltas : DeltaSet} (empty : deltas.isEmpty = true) : deltas = ∅ := by
  obtain ⟨entries, distinct⟩ := deltas
  cases List.isEmpty_iff.1 empty
  rfl

def rowsUnder (stem : String) (object : Object) : Table String String where
  entries := object.entries.map fun member => (stem ++ member.1, member.2.storedText)
  increasing := by
    apply List.pairwise_map.2
    exact object.increasing.imp fun {left right} order => before_append stem order

def Stored (live : Table String String) (stem : String) (object : Object) : Prop :=
  ∀ name, live.get? (stem ++ name) = (object.get? name).map Value.storedText

def Rereadable (object : Object) : Prop :=
  ∀ name value, object.get? name = some value → Value.parse value.storedText = .ok value

/-- An object whose values are exact and not too deeply nested to be read back. -/
def Retrievable (object : Object) : Prop :=
  ∀ name value, object.get? name = some value → value.Exact ∧ value.depth ≤ nestingLimit

theorem Retrievable.rereadable {object : Object} (retrievable : Retrievable object) :
    Rereadable object := by
  intro name value found
  obtain ⟨exact, shallow⟩ := retrievable name value found
  exact Value.parse_stored_text exact.canonical shallow exact.reread

namespace Stored

variable {live : Table String String} {stem : String} {object current : Object}

theorem rows (stored : Stored live stem object) (plain : '\x00' ∉ stem.toList) :
    live.filter (fun key _ => Database.startsWith stem key) = rowsUnder stem object := by
  apply Table.ext_get?
  intro key
  apply Option.ext
  intro text
  have member : (rowsUnder stem object).get? key = some text ↔
      ∃ name value, object.get? name = some value ∧ stem ++ name = key ∧
        value.storedText = text := by
    simp only [Table.get?_eq_some_iff, rowsUnder, List.mem_map, Prod.exists, Prod.mk.injEq]
  rw [Table.get?_filter, Option.filter_eq_some_iff, Database.starts_with_iff plain, member]
  constructor
  · rintro ⟨found, name, rfl⟩
    rw [stored name, Option.map_eq_some_iff] at found
    obtain ⟨value, known, same⟩ := found
    exact ⟨name, value, known, rfl, same⟩
  · rintro ⟨name, value, known, rfl, same⟩
    rw [stored name, known, ← same]
    exact ⟨rfl, name, rfl⟩

theorem decode_rows_of_rereadable (stem : String) {members : List (String × Value)}
    (rereadable : ∀ member ∈ members, Value.parse member.2.storedText = .ok member.2) :
    Store.decodeRows (members.map fun member => (stem ++ member.1, member.2.storedText)) =
      .ok (members.map fun member => (stem ++ member.1, member.2)) := by
  induction members with
  | nil => rfl
  | cons head tail hypothesis =>
      have read := rereadable head List.mem_cons_self
      have later := hypothesis fun member belongs =>
        rereadable member (List.mem_cons_of_mem head belongs)
      simp only [List.map_cons, Store.decodeRows, Store.decode, read, later]
      rfl

theorem get_range (stored : Stored live stem object) (plain : '\x00' ∉ stem.toList)
    (rereadable : Rereadable object) :
    ∃ range, (Store.holding live).getRange stem true = .ok range ∧ range.getD ∅ = object := by
  have rows : ({ Database.empty with live := live } : Database).range stem =
      object.entries.map fun member => (stem ++ member.1, member.2.storedText) :=
    congrArg Table.entries (stored.rows plain)
  have looked : (Store.holding live).view Schema.liveTable =
      .ok { Database.empty with live := live } := rfl
  have read := decode_rows_of_rereadable stem fun member (belongs : member ∈ object.entries) =>
    rereadable member.1 member.2 (Table.get?_eq_some_iff.2 belongs)
  have stripped : (object.entries.map fun member => (stem ++ member.1, member.2)).map
      (fun row => (Store.stripStem stem row.1, row.2)) = object.entries := by
    simp only [List.map_map, Function.comp_def, Store.strip_stem_append]
    exact List.map_id _
  unfold Store.getRange
  simp only [looked, Bind.bind, Except.bind, rows]
  split
  · rename_i none
    refine ⟨.none, rfl, ?_⟩
    apply Table.ext_get?
    intro key
    rw [Table.get?, Table.get?, List.map_eq_nil_iff.1 none]
    rfl
  · simp only [read, if_true, stripped, Table.of_list_entries object.increasing]
    exact ⟨some object, rfl, rfl⟩

theorem delta (stored : Stored live stem object) (plain : '\x00' ∉ stem.toList)
    (rereadable : Rereadable object) (current : Object) :
    (Store.holding live).delta current stem =
      .ok (if (computeDelta object current).isEmpty then none
        else some (computeDelta object current)) := by
  obtain ⟨range, found, previous⟩ := stored.get_range plain rereadable
  unfold Store.delta
  rw [found]
  simp only [Bind.bind, Except.bind, previous]
  rfl

theorem keep (stored : Stored live stem object) {writes : List Write}
    (apart : ∀ write ∈ writes, ∀ name, write.key ≠ stem ++ name) :
    Stored (live.changeAll writes) stem object := by
  intro name
  rw [← stored name]
  exact Table.get?_change_all_of_ne fun write member => apart write member name

theorem keep_tagged (stored : Stored live stem object) (long : 4 ≤ stem.toList.length)
    {writes : List Write} {tags : List (List Char)}
    (tagged : ∀ write ∈ writes, Store.keyTag write.key ∈ tags)
    (apart : Store.keyTag stem ∉ tags) : Stored (live.changeAll writes) stem object := by
  apply stored.keep
  intro write member name
  exact Store.key_ne_of_tagged long tagged apart name write member

/-- Removing what is gone and storing what is there leaves the rows of the new object, if the
delta is one against an object with the keys of all rows. -/
theorem of_replaced (known : ∀ name text, live.get? (stem ++ name) = some text →
    ∃ value, object.get? name = some value) (current : Object) :
    Stored
      (live.changeAll
        (Store.removalWrites ((computeDelta object current).removed.map (stem ++ ·)) ++
          Store.updateWrites current stem))
      stem current := by
  intro name
  apply Table.get?_change_all
  · intro write member same
    rcases List.mem_append.1 member with removal | update
    · obtain ⟨key, keyMember, rfl⟩ := List.mem_map.1 removal
      obtain ⟨gone, removed, rfl⟩ := List.mem_map.1 keyMember
      have sameName : gone = name := (String.append_right_inj stem).1 same
      rw [← sameName, (mem_removed_iff.1 removed).2]
      rfl
    · obtain ⟨⟨key, value⟩, bound, rfl⟩ := List.mem_map.1 update
      have sameName : key = name := (String.append_right_inj stem).1 same
      rw [← sameName, Table.get?_eq_some_iff.2 bound]
      rfl
  · cases found : current.get? name with
    | some value =>
        right
        have bound := Table.get?_eq_some_iff.1 found
        exact ⟨_, List.mem_append_right _ (List.mem_map.2 ⟨_, bound, rfl⟩), rfl⟩
    | none =>
        -- a key that is not there now was removed, or has no row
        cases before : live.get? (stem ++ name) with
        | none => exact .inl rfl
        | some text =>
            right
            obtain ⟨value, present⟩ := known name text before
            have removed : name ∈ (computeDelta object current).removed :=
              mem_removed_iff.2 ⟨by rw [present]; exact Option.some_ne_none value, found⟩
            have key : stem ++ name ∈ (computeDelta object current).removed.map (stem ++ ·) :=
              List.mem_map.2 ⟨name, removed, rfl⟩
            exact ⟨_, List.mem_append_left _ (List.mem_map.2 ⟨_, key, rfl⟩), rfl⟩

theorem known (stored : Stored live stem object) (name text : String)
    (found : live.get? (stem ++ name) = some text) : ∃ value, object.get? name = some value := by
  rw [stored name, Option.map_eq_some_iff] at found
  obtain ⟨value, present, _⟩ := found
  exact ⟨value, present⟩

/-- A snapshot tells the delta against what is stored, and stores the current object. -/
theorem snapshot (stored : Stored live stem object) (plain : '\x00' ∉ stem.toList)
    (long : 4 ≤ stem.toList.length) (before : Retrievable object) {current : Object}
    (after : Retrievable current) :
    ∃ writes, Store.snapshotPlan current stem live = (.ok (computeDelta object current), writes) ∧
      (∀ write ∈ writes, Store.keyTag write.key ∈ [Store.keyTag stem]) ∧
      Stored (live.changeAll writes) stem current := by
  have tagged := (Store.snapshot_plan_tagged current long).tagged live
  have looked : Plan.look (fun store => store.delta current stem) live =
      (.ok (if (computeDelta object current).isEmpty then none
        else some (computeDelta object current)), []) :=
    congrArg (·, []) (stored.delta plain before.rereadable current)
  rw [Store.snapshotPlan, Plan.bind_ok looked] at tagged ⊢
  cases unchanged : (computeDelta object current).isEmpty with
  | true =>
      have same : object = current :=
        eq_of_compute_delta_empty (fun name value found => (before name value found).1)
          (fun name value found => (after name value found).1) unchanged
      rw [unchanged] at tagged
      rw [DeltaSet.eq_empty unchanged]
      exact ⟨_, rfl, tagged, same ▸ stored⟩
  | false =>
      rw [unchanged] at tagged
      refine ⟨_, rfl, tagged, ?_⟩
      simp only [Bool.false_eq_true, if_false, Bind.bind, Plan.bind, Pure.pure, Plan.pure,
        Store.removalPlan, Store.removalKeys, Plan.carryOut, List.append_nil, List.nil_append]
      exact of_replaced stored.known current

end Stored

end UnitState
