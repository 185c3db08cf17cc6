import Mathlib.Data.List.Forall2
import UnitState.Proofs.Likeness
import UnitState.Proofs.ToldChanges

/-!
# Rows that can be read back

A snapshot starts with reading the rows under its stem, and fails exactly if the text of one of
them is no document. Having read them, it leaves them alone, or gives the stem the rows of the
current object. So what it leaves can be read by the next snapshot exactly if no current value is
nested too deep: a value is written whatever its depth, and read only up to the limit.
-/

set_option autoImplicit false

namespace UnitState

open Json

namespace Plan

variable {Result Other : Type}

def Succeeds (plan : Plan Result) (live : Table String String) : Prop :=
  ∃ result writes, plan live = (.ok result, writes)

theorem Succeeds.bind {plan : Plan Result} {next : Result → Plan Other}
    {live : Table String String} {result : Result} {writes : List Write}
    (planned : plan live = (.ok result, writes))
    (goesOn : (next result).Succeeds (live.changeAll writes)) : (plan >>= next).Succeeds live := by
  obtain ⟨other, later, succeeds⟩ := goesOn
  exact ⟨other, writes ++ later, by rw [bind_ok planned, succeeds]⟩

end Plan

theorem alike_of_compute_delta_empty {previous current : Object}
    (empty : (computeDelta previous current).isEmpty = true) {name : String} {value : Value}
    (found : current.get? name = some value) :
    ∃ before, previous.get? name = some before ∧ before.alike value = true := by
  have change : changeOf previous current name = none := by
    cases change : changeOf previous current name with
    | none => rfl
    | some delta =>
        have listed := mem_compute_delta_iff.2 change
        rw [List.isEmpty_iff.1 empty] at listed
        cases listed
  unfold changeOf at change
  rw [found] at change
  cases before : previous.get? name with
  | none => simp [before] at change
  | some other =>
      simp only [before] at change
      split at change
      · rename_i like
        exact ⟨other, rfl, like⟩
      · cases change

theorem Table.get?_change_all_cases (live : Table String String) (writes : List Write)
    (key : String) :
    (live.changeAll writes).get? key = live.get? key ∨
      ∃ write ∈ writes, write.key = key ∧ (live.changeAll writes).get? key = write.data := by
  induction writes generalizing live with
  | nil => exact .inl rfl
  | cons write later hypothesis =>
      rcases hypothesis (live.change write.key write.data) with kept | ⟨other, member, same, given⟩
      · by_cases same : write.key = key
        · right
          refine ⟨write, List.mem_cons_self, same, kept.trans ?_⟩
          rw [← same, get?_change_self]
        · left
          exact kept.trans (get?_change_of_ne live write.data (Ne.symm same))
      · exact .inr ⟨other, List.mem_cons_of_mem write member, same, given⟩

/-! ## Rows under a stem -/

def Readable (live : Table String String) (stem : String) : Prop :=
  ∀ name text, live.get? (stem ++ name) = some text → ∃ value, Value.parse text = .ok value

/-- An object with no value that is nested too deep to be read back. -/
def Shallow (object : Object) : Prop :=
  ∀ name value, object.get? name = some value → value.canonical.depth ≤ nestingLimit

theorem List.exists_right_of_forall₂ {Item Other : Type} {relation : Item → Other → Prop}
    {items : List Item} {others : List Other} (related : List.Forall₂ relation items others)
    {item : Item} (member : item ∈ items) : ∃ other ∈ others, relation item other := by
  induction related with
  | nil => cases member
  | @cons head other _ _ first _ hypothesis =>
      rcases List.mem_cons.1 member with rfl | later
      · exact ⟨other, List.mem_cons_self, first⟩
      · obtain ⟨found, belongs, holds⟩ := hypothesis later
        exact ⟨found, List.mem_cons_of_mem other belongs, holds⟩

theorem List.exists_left_of_forall₂ {Item Other : Type} {relation : Item → Other → Prop}
    {items : List Item} {others : List Other} (related : List.Forall₂ relation items others)
    {other : Other} (member : other ∈ others) : ∃ item ∈ items, relation item other := by
  have flipped : List.Forall₂ (flip relation) others items := .flip related
  exact List.exists_right_of_forall₂ flipped member

namespace Store

theorem decode_ok_iff {text : String} :
    (∃ value, decode Value.parse text = .ok value) ↔ ∃ value, Value.parse text = .ok value := by
  unfold decode
  cases Value.parse text with
  | error fault => exact ⟨nofun, nofun⟩
  | ok value => exact ⟨fun _ => ⟨value, rfl⟩, fun _ => ⟨value, rfl⟩⟩

theorem decode_rows_ok {rows : List (String × String)}
    (readable : ∀ row ∈ rows, ∃ value, Value.parse row.2 = .ok value) :
    ∃ values, decodeRows rows = .ok values := by
  induction rows with
  | nil => exact ⟨[], rfl⟩
  | cons row later hypothesis =>
      obtain ⟨first, rest⟩ := List.forall_mem_cons.1 readable
      obtain ⟨value, read⟩ := decode_ok_iff.2 first
      obtain ⟨values, others⟩ := hypothesis rest
      refine ⟨(row.1, value) :: values, ?_⟩
      simp only [decodeRows, read, others]
      rfl

theorem of_decode_rows {rows : List (String × String)} {values : List (String × Value)}
    (decoded : decodeRows rows = .ok values) :
    List.Forall₂ (fun row value => value.1 = row.1 ∧ Value.parse row.2 = .ok value.2)
      rows values := by
  induction rows generalizing values with
  | nil =>
      cases decoded
      exact .nil
  | cons row later hypothesis =>
      obtain ⟨key, text⟩ := row
      cases read : Value.parse text with
      | error fault =>
          simp only [decodeRows, decode, read] at decoded
          cases decoded
      | ok value =>
          cases rest : decodeRows later with
          | error error =>
              simp only [decodeRows, decode, read, rest] at decoded
              cases decoded
          | ok others =>
              simp only [decodeRows, decode, read, rest] at decoded
              cases decoded
              exact .cons ⟨rfl, read⟩ (hypothesis rest)

end Store

/-! ## Ranges -/

theorem Database.mem_range_iff {database : Database} {stem key text : String} :
    (key, text) ∈ database.range stem ↔
      database.live.get? key = some text ∧ Database.Sought stem key := by
  rw [range, List.mem_filter, ← Table.get?_eq_some_iff, starts_with_iff_sought]

theorem before_of_append {stem left right : String}
    (order : KeyOrder.before (stem ++ left) (stem ++ right) = true) :
    KeyOrder.before left right = true := by
  by_contra notBefore
  have late := eq_false_of_ne_true notBefore
  cases early : KeyOrder.before right left with
  | true =>
      rw [KeyOrder.asymmetric (before_append stem early)] at order
      cases order
  | false =>
      rw [KeyOrder.connected late early, KeyOrder.irreflexive] at order
      cases order

namespace Store

variable {store : Store} {contents : Database} {stem : String}

def shownName (stem key : String) (strip : Bool) : String :=
  if strip then stripStem stem key else key

theorem shown_name_append (stem name : String) : shownName stem (stem ++ name) true = name := by
  rw [shownName, if_pos rfl, strip_stem_append]

theorem shown_keys_increasing (contents : Database) (stem : String) (strip : Bool) :
    ((contents.range stem).map fun row => shownName stem row.1 strip).Pairwise
      fun left right => KeyOrder.before left right = true := by
  have ordered : (contents.range stem).Pairwise fun left right =>
      KeyOrder.before left.1 right.1 = true := contents.live.increasing.filter _
  apply List.pairwise_map.2
  refine ordered.imp_of_mem fun {left right} first second order => ?_
  cases strip with
  | false => exact order
  | true =>
      obtain ⟨_, _, leftName, leftKey⟩ := Database.mem_range_iff.1 first
      obtain ⟨_, _, rightName, rightKey⟩ := Database.mem_range_iff.1 second
      rw [leftKey, rightKey] at order
      rw [leftKey, rightKey, shown_name_append, shown_name_append]
      exact before_of_append order

/-- How a row is shown: with what is read from its text, under its key with or without the stem. -/
def ShownAs (stem : String) (strip : Bool) (row : String × String) (member : String × Value) :
    Prop :=
  member.1 = shownName stem row.1 strip ∧ Value.parse row.2 = .ok member.2

theorem decoded_shown_as {rows : List (String × String)} {values : List (String × Value)}
    (decoded : decodeRows rows = .ok values) (stem : String) (strip : Bool) :
    List.Forall₂ (ShownAs stem strip) rows
      (values.map fun value => (shownName stem value.1 strip, value.2)) := by
  apply List.forall₂_map_right_iff.2
  apply (of_decode_rows decoded).imp
  rintro row value ⟨key, read⟩
  exact ⟨congrArg (shownName stem · strip) key, read⟩

theorem shown_increasing {members : List (String × Value)} {strip : Bool}
    (shown : List.Forall₂ (ShownAs stem strip) (contents.range stem) members) :
    Value.Increasing members := by
  have names : members.map Prod.fst =
      (contents.range stem).map fun row => shownName stem row.1 strip := by
    rw [← List.forall₂_eq_eq_eq, List.forall₂_map_left_iff, List.forall₂_map_right_iff]
    exact .flip (shown.imp fun _ _ same => same.1)
  have ordered : (members.map Prod.fst).Pairwise fun left right =>
      KeyOrder.before left right = true := by
    rw [names]
    exact shown_keys_increasing contents stem strip
  exact List.pairwise_map.1 ordered

theorem get_range_ok (visible : store.view Schema.liveTable = .ok contents)
    (readable : ∀ row ∈ contents.range stem, ∃ value, Value.parse row.2 = .ok value)
    (strip : Bool) : ∃ range, store.getRange stem strip = .ok range := by
  obtain ⟨values, decoded⟩ := decode_rows_ok readable
  unfold getRange
  simp only [visible, Bind.bind, Except.bind]
  split
  · exact ⟨none, rfl⟩
  · rw [decoded]
    exact ⟨_, rfl⟩

theorem get_range_members (visible : store.view Schema.liveTable = .ok contents) {strip : Bool}
    {range : Option Object} (ranged : store.getRange stem strip = .ok range) :
    (range = none ↔ contents.range stem = []) ∧
      List.Forall₂ (ShownAs stem strip) (contents.range stem) (range.getD ∅).entries := by
  unfold getRange at ranged
  simp only [visible, Bind.bind, Except.bind] at ranged
  split at ranged
  · rename_i nothing
    cases ranged
    rw [nothing]
    exact ⟨iff_of_true rfl rfl, .nil⟩
  · rename_i something
    cases decoded : decodeRows (contents.range stem) with
    | error error =>
        rw [decoded] at ranged
        cases ranged
    | ok values =>
        rw [decoded] at ranged
        cases ranged
        have members := decoded_shown_as decoded stem strip
        have table := Table.of_list_entries (shown_increasing members)
        unfold shownName at table
        refine ⟨iff_of_false nofun something, ?_⟩
        rw [Option.getD_some, table]
        exact members

theorem of_get_range_ok (visible : store.view Schema.liveTable = .ok contents) {strip : Bool}
    {range : Option Object} (ranged : store.getRange stem strip = .ok range) :
    (∀ row ∈ contents.range stem, ∃ value, Value.parse row.2 = .ok value) ∧
      (range = none ↔ contents.range stem = []) ∧
      ∀ name value, (range.getD ∅).get? name = some value ↔ ∃ row ∈ contents.range stem,
        Value.parse row.2 = .ok value ∧ name = shownName stem row.1 strip := by
  obtain ⟨nothing, members⟩ := get_range_members visible ranged
  refine ⟨fun row listed => ?_, nothing, fun name value => ?_⟩
  · obtain ⟨member, _, _, read⟩ := List.exists_right_of_forall₂ members listed
    exact ⟨member.2, read⟩
  · rw [Table.get?_eq_some_iff]
    constructor
    · intro member
      obtain ⟨row, listed, shown, read⟩ := List.exists_left_of_forall₂ members member
      exact ⟨row, listed, read, shown⟩
    · rintro ⟨row, listed, read, rfl⟩
      obtain ⟨⟨_, _⟩, member, rfl, same⟩ := List.exists_right_of_forall₂ members listed
      cases read.symm.trans same
      exact member

end Store

section Stem

variable {live : Table String String} {stem : String}

theorem Readable.get_range (readable : Readable live stem) :
    ∃ range, (Store.holding live).getRange stem true = .ok range := by
  have looked : (Store.holding live).view Schema.liveTable =
      .ok { Database.empty with live := live } := rfl
  apply Store.get_range_ok looked
  intro row member
  obtain ⟨found, _, name, key⟩ := Database.mem_range_iff.1 member
  exact readable name row.2 (key ▸ found)

theorem of_get_range (plain : '\x00' ∉ stem.toList) {range : Option Object}
    (ranged : (Store.holding live).getRange stem true = .ok range) :
    Readable live stem ∧ ∀ name value, (range.getD ∅).get? name = some value ↔
      ∃ text, live.get? (stem ++ name) = some text ∧ Value.parse text = .ok value := by
  have looked : (Store.holding live).view Schema.liveTable =
      .ok { Database.empty with live := live } := rfl
  obtain ⟨readable, _, values⟩ := Store.of_get_range_ok looked ranged
  have listed : ∀ name text, live.get? (stem ++ name) = some text →
      (stem ++ name, text) ∈ ({ Database.empty with live := live } : Database).range stem :=
    fun name text found => Database.mem_range_iff.2 ⟨found, plain, name, rfl⟩
  refine ⟨fun name text found => ?_, fun name value => ?_⟩
  · exact readable (stem ++ name, text) (listed name text found)
  · rw [values name value]
    constructor
    · rintro ⟨⟨key, text⟩, member, read, shown⟩
      obtain ⟨found, _, rest, rfl⟩ := Database.mem_range_iff.1 member
      rw [Store.shown_name_append] at shown
      rw [shown]
      exact ⟨text, found, read⟩
    · rintro ⟨text, found, read⟩
      exact ⟨(stem ++ name, text), listed name text found, read,
        (Store.shown_name_append stem name).symm⟩

theorem known_of_get_range (plain : '\x00' ∉ stem.toList) {range : Option Object}
    (ranged : (Store.holding live).getRange stem true = .ok range) (name text : String)
    (found : live.get? (stem ++ name) = some text) :
    ∃ value, (range.getD ∅).get? name = some value := by
  obtain ⟨readable, values⟩ := of_get_range plain ranged
  obtain ⟨value, read⟩ := readable name text found
  exact ⟨value, (values name value).2 ⟨text, found, read⟩⟩

theorem readable_change_all_iff (long : 4 ≤ stem.toList.length) {writes : List Write}
    {tags : List (List Char)} (tagged : ∀ write ∈ writes, Store.keyTag write.key ∈ tags)
    (apart : Store.keyTag stem ∉ tags) :
    Readable (live.changeAll writes) stem ↔ Readable live stem := by
  have kept : ∀ name, (live.changeAll writes).get? (stem ++ name) = live.get? (stem ++ name) :=
    fun name => Table.get?_change_all_of_ne (Store.key_ne_of_tagged long tagged apart name)
  unfold Readable
  simp only [kept]

/-! ## Snapshots -/

variable {current : Object} {deltas : DeltaSet} {writes : List Write}

theorem Readable.snapshot (readable : Readable live stem) (current : Object) :
    (Store.snapshotPlan current stem).Succeeds live := by
  obtain ⟨range, ranged⟩ := readable.get_range
  have looked : Plan.look (fun store => store.delta current stem) live =
      (.ok (if (computeDelta (range.getD ∅) current).isEmpty then none
        else some (computeDelta (range.getD ∅) current)), []) := by
    unfold Plan.look Store.delta
    simp only [ranged, Bind.bind, Except.bind]
    rfl
  refine Plan.Succeeds.bind looked ?_
  split <;> exact ⟨_, _, rfl⟩

/-- A snapshot that succeeds has read what was there and tells the delta against it. It writes
nothing if there is none, and all of the current object otherwise. -/
theorem of_snapshot (planned : Store.snapshotPlan current stem live = (.ok deltas, writes)) :
    ∃ range, (Store.holding live).getRange stem true = .ok range ∧
      deltas = computeDelta (range.getD ∅) current ∧
      (deltas.isEmpty = true ∧ writes = [] ∨
        deltas.isEmpty = false ∧
          writes = Store.removalWrites (deltas.removed.map (stem ++ ·)) ++
            Store.updateWrites current stem) := by
  obtain ⟨different, _, later, looked, rest, rfl⟩ := Plan.of_bind_ok planned
  cases ranged : (Store.holding live).getRange stem true with
  | error error =>
      simp only [Plan.look, Store.delta, ranged, Bind.bind, Except.bind] at looked
      cases looked
  | ok range =>
      simp only [Plan.look, Store.delta, ranged, Bind.bind, Except.bind, pure, Except.pure,
        Prod.mk.injEq, Except.ok.injEq] at looked
      obtain ⟨rfl, rfl⟩ := looked
      refine ⟨range, rfl, ?_⟩
      cases unchanged : (computeDelta (range.getD ∅) current).isEmpty with
      | true =>
          rw [unchanged] at rest
          cases rest
          exact ⟨(DeltaSet.eq_empty unchanged).symm, .inl ⟨rfl, rfl⟩⟩
      | false =>
          rw [unchanged] at rest
          cases rest
          refine ⟨rfl, .inr ⟨unchanged, ?_⟩⟩
          simp only [List.append_nil, List.nil_append]
          rfl

/-- What a snapshot leaves can be read back, if no current value is nested too deep. -/
theorem Shallow.readable (shallow : Shallow current) (plain : '\x00' ∉ stem.toList)
    (planned : Store.snapshotPlan current stem live = (.ok deltas, writes)) :
    Readable (live.changeAll writes) stem := by
  obtain ⟨range, ranged, told, written⟩ := of_snapshot planned
  have before := (of_get_range plain ranged).1
  intro name text found
  rcases Table.get?_change_all_cases live writes (stem ++ name) with
    kept | ⟨write, member, _, given⟩
  · exact before name text (kept.symm.trans found)
  · rcases written with ⟨_, rfl⟩ | ⟨_, rfl⟩
    · cases member
    · rw [found] at given
      rcases List.mem_append.1 member with removal | update
      · obtain ⟨_, _, rfl⟩ := List.mem_map.1 removal
        cases given
      · obtain ⟨⟨key, value⟩, bound, rfl⟩ := List.mem_map.1 update
        cases given
        exact ⟨_, Value.parse_compact (shallow key value (Table.get?_eq_some_iff.2 bound))⟩

/-- A snapshot leaves what cannot be read back, if a current value is nested too deep. -/
theorem Shallow.of_readable (sorted : ∀ name value, current.get? name = some value → value.Canonical)
    (plain : '\x00' ∉ stem.toList) (long : 4 ≤ stem.toList.length)
    (planned : Store.snapshotPlan current stem live = (.ok deltas, writes))
    (readable : Readable (live.changeAll writes) stem) : Shallow current := by
  intro name value found
  obtain ⟨range, ranged, told, written⟩ := of_snapshot planned
  rcases written with ⟨unchanged, _⟩ | ⟨_, whole⟩
  · -- the previous value was read, so it is not nested too deep, and the current one is alike
    rw [told] at unchanged
    obtain ⟨before, known, like⟩ := alike_of_compute_delta_empty unchanged found
    obtain ⟨text, _, read⟩ := ((of_get_range plain ranged).2 name before).1 known
    rw [value.canonical_eq (sorted name value found)]
    exact Value.depth_le_of_alike nestingLimit (Value.canonical_of_parse read)
      (sorted name value found) like (Value.depth_le_of_parse read)
  · have member : (⟨stem ++ name, some value.storedText⟩ : Write) ∈ writes := by
      rw [whole]
      exact List.mem_append_right _
        (List.mem_map.2 ⟨(name, value), Table.get?_eq_some_iff.1 found, rfl⟩)
    have agreeing : Agreeing writes := by
      have tagged := (Store.snapshot_plan_tagged current long).agreeing live
      rwa [planned] at tagged
    have stored : (live.changeAll writes).get? (stem ++ name) = some value.storedText := by
      apply Table.get?_change_all
      · intro other otherMember same
        exact agreeing other otherMember _ member same
      · exact .inr ⟨_, member, rfl⟩
    exact (Value.parse_compact_iff value.canonical_canonical).1 (readable name _ stored)

end Stem

end UnitState
