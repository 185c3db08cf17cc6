import UnitState.Proofs.RecordReading
import UnitState.Proofs.SnapshotOutcome

/-!
# The text of a delta set

A delta set is written as an object that has for each key an object of the two sides, and is read
back with its keys in their order. An absent side is written as null, and null is read as an
absent side. So a null that was stored is lost: its key is still there, but is not told any more
as it was. Every other side comes back.
-/

set_option autoImplicit false

namespace UnitState

open Json

namespace Json

theorem Value.compact_head_ne {value : Value} (present : value ≠ .null) :
    ∀ rest, (value.compactChars ++ rest).head? ≠ some 'n' := by
  intro rest
  cases value with
  | null => exact absurd rfl present
  | bool flag =>
      cases flag with
      | true => exact fun same => absurd (Option.some.inj same) (by decide)
      | false => exact fun same => absurd (Option.some.inj same) (by decide)
  | number content =>
      obtain ⟨head, tail, shape, lead⟩ := content.text_starts
      rw [compactChars, shape]
      intro same
      cases same
      exact absurd lead (by decide)
  | string | array | object => exact fun same => absurd (Option.some.inj same) (by decide)

namespace Decoder

open Reader

theorem optional_value_reads {side : Option Value} {room : Nat}
    (shallow : ∀ value, side = some value → value.depth ≤ room) {rest : List Char}
    (delimited : Delimited rest) :
    Reads (optional value room) (side.getD .null).compactChars
      ((side.filter (· ≠ .null)).map Value.reread) rest := by
  obtain ⟨head, tail, shape, noSpace, _⟩ := Value.compact_starts (side.getD .null)
  have blank : ∀ other, ((side.getD .null).compactChars ++ rest).head? = some other →
      isSpace other = false := by
    intro other same
    rw [shape] at same
    cases same
    exact noSpace
  apply Reads.token blank
  by_cases null : side.getD .null = .null
  · have absent : side.filter (· ≠ .null) = none := by
      cases side with
      | none => rfl
      | some value =>
          rw [Option.getD_some] at null
          rw [null]
          rfl
    rw [null, absent]
    exact Reads.discard ((name_reads "ull".toList rest).map fun _ => none)
  · obtain ⟨value, rfl⟩ : ∃ value, side = some value := by
      cases side with
      | none => exact absurd rfl null
      | some value => exact ⟨value, rfl⟩
    rw [Option.getD_some] at null ⊢
    have kept : (some value).filter (· ≠ .null) = some value := by
      rw [Option.filter_some, if_pos (decide_eq_true null)]
    have reads := (value_reads room (shallow value rfl) delimited).map some
    rw [kept]
    split
    · rename_i other
      exact absurd other (Value.compact_head_ne null rest)
    · exact reads

end Decoder

end Json

namespace Delta

def withoutNulls (delta : Delta) : Delta :=
  ⟨delta.previous.filter (· ≠ .null), delta.current.filter (· ≠ .null)⟩

def previousField : Decoder.Field Partial :=
  Decoder.slot "previous" Partial.previous (fun sides side => { sides with previous := some side })
    (Decoder.optional Decoder.value)

def currentField : Decoder.Field Partial :=
  Decoder.slot "current" Partial.current (fun sides side => { sides with current := some side })
    (Decoder.optional Decoder.value)

section Text

variable {delta : Delta} {room : Nat}

/-- Whether the sides of a delta are read back from their texts, nested no deeper than `room`. -/
def Restorable (delta : Delta) (room : Nat) : Prop :=
  ∀ value, delta.previous = some value ∨ delta.current = some value →
    value.depth ≤ room ∧ value.reread = value

theorem side_reads {side : Option Value}
    (restorable : ∀ value, side = some value → value.depth ≤ room ∧ value.reread = value)
    (rest : List Char) (delimited : Delimited rest) :
    Reads (Decoder.optional Decoder.value room) (side.getD .null).compactChars
      (side.filter (· ≠ .null)) rest := by
  have reads := Decoder.optional_value_reads (fun value same => (restorable value same).1) delimited
  cases side with
  | none => exact reads
  | some value =>
      have kept : ((some value).filter (· ≠ .null)).map Value.reread =
          (some value).filter (· ≠ .null) := by
        by_cases present : value = .null
        · rw [present]
          rfl
        · rw [Option.filter_some, if_pos (decide_eq_true present), Option.map_some,
            (restorable value rfl).2]
      rw [kept] at reads
      exact reads

theorem decoder_reads (restorable : delta.Restorable room) (rest : List Char) :
    Reads (decoder (room + 1)) delta.toValue.compactChars delta.withoutNulls rest := by
  have current (rest : List Char) (delimited : Delimited rest) :=
    (side_reads (fun value same => restorable value (.inr same)) rest delimited).map fun side =>
      ({ previous := some (delta.previous.filter (· ≠ .null)), current := some side } : Partial)
  have previous (rest : List Char) (delimited : Delimited rest) :=
    (side_reads (fun value same => restorable value (.inl same)) rest delimited).map fun side =>
      ({ previous := some side } : Partial)
  have fields : Decoder.FieldsRead [previousField, currentField] room {}
      [("previous", (delta.previous.getD .null).compactChars),
        ("current", (delta.current.getD .null).compactChars)]
      ⟨some (delta.previous.filter (· ≠ .null)), some (delta.current.filter (· ≠ .null))⟩ :=
    .field previousField rfl rfl previous (.field currentField rfl rfl current (.done _))
  have whole := Decoder.record_reads "struct Delta"
    (fun sides : Partial => .ok (⟨sides.previous.join, sides.current.join⟩ : Delta))
    Gap.none Gap.none fields rfl rest
  have shape : delta.toValue.compactChars =
      '\x7b' :: (separated (Decoder.fieldText [])
        [("previous", (delta.previous.getD .null).compactChars),
          ("current", (delta.current.getD .null).compactChars)] ++ [] ++ ['\x7d']) := by
    rw [toValue, Value.compactChars, Value.compact_members_eq]
    simp [separated, following, Value.memberChars, Decoder.fieldText]
  rw [shape]
  exact whole

end Text

end Delta

namespace DeltaSet

theorem put_fresh {key : String} {delta : Delta} {entries : List (String × Delta)}
    (fresh : key ∉ entries.map (·.1)) : put key delta entries = entries ++ [(key, delta)] := by
  induction entries with
  | nil => rfl
  | cons head tail hypothesis =>
      obtain ⟨different, later⟩ := List.ne_and_not_mem_of_not_mem_cons fresh
      rw [put, if_neg (Ne.symm different), hypothesis later]
      rfl

theorem entries_foldl_insert {entries : List (String × Delta)} {set : DeltaSet}
    (distinct : ((set.entries ++ entries).map (·.1)).Nodup) :
    (entries.foldl (fun set entry => set.insert entry.1 entry.2) set).entries =
      set.entries ++ entries := by
  induction entries generalizing set with
  | nil => exact (List.append_nil _).symm
  | cons head tail hypothesis =>
      have fresh : head.1 ∉ set.entries.map (·.1) := by
        rw [List.map_append, List.nodup_append'] at distinct
        exact fun known => distinct.2.2 known List.mem_cons_self
      have put : (set.insert head.1 head.2).entries = set.entries ++ [head] := put_fresh fresh
      rw [List.foldl_cons, hypothesis, put, List.append_assoc]
      · rfl
      · rw [put, List.append_assoc]
        exact distinct

theorem of_list_entries (set : DeltaSet) : ofList set.entries = set := by
  obtain ⟨entries, distinct⟩ := set
  have kept : (ofList entries).entries = entries := entries_foldl_insert distinct
  cases list : ofList entries with
  | mk others othersDistinct =>
      rw [list] at kept
      cases kept
      rfl

def withoutNulls (set : DeltaSet) : DeltaSet :=
  ⟨set.entries.map fun entry => (entry.1, entry.2.withoutNulls), by
    rw [List.map_map]
    exact set.distinct⟩

/-- How deep a value may be nested on a side of a delta, as the text of a set nests it in two
objects. -/
def sideLimit : Nat := nestingLimit - 2

/-- The text of a delta set is read as the set without its nulls. -/
theorem decoder_run {set : DeltaSet}
    (restorable : ∀ entry ∈ set.entries, entry.2.Restorable sideLimit) :
    decoder.run set.text = .ok set.withoutNulls := by
  have object : Reads (Reader.object (Delta.decoder (sideLimit + 1))) set.toValue.compactChars
      set.withoutNulls.entries [] :=
    Reader.object_reads
      (fun entry member rest _ => Delta.decoder_reads (restorable entry member) rest) []
  have members : Reads (Decoder.members Delta.decoder nestingLimit) set.toValue.compactChars
      set.withoutNulls.entries [] :=
    (Reads.token_at rfl rfl object).located
  have reads := members.map ofList
  rw [of_list_entries] at reads
  exact Reader.read_all_reads reads

end DeltaSet

/-! ## What comes back -/

mutual

theorem Json.Value.equal_refl (value : Value) : value.equal value = true := by
  cases value with
  | null => rfl
  | bool flag => exact beq_self_eq_true flag
  | number content =>
      cases content with
      | integer whole inRange => exact beq_self_eq_true whole
      | float value => exact value.same_value_refl
  | string text => exact beq_self_eq_true text
  | array items => exact Json.Value.equal_items_refl items
  | object members => exact Json.Value.equal_members_refl members

theorem Json.Value.equal_items_refl (items : List Value) :
    Value.agreeItems Number.equal items items = true := by
  cases items with
  | nil => rfl
  | cons head tail =>
      rw [Value.agreeItems, Bool.and_eq_true]
      exact ⟨Json.Value.equal_refl head, Json.Value.equal_items_refl tail⟩

theorem Json.Value.equal_members_refl (members : List (String × Value)) :
    Value.agreeMembers Number.equal members members = true := by
  cases members with
  | nil => rfl
  | cons head tail =>
      rw [Value.agreeMembers, Bool.and_eq_true, Bool.and_eq_true]
      exact ⟨⟨beq_self_eq_true head.1, Json.Value.equal_refl head.2⟩,
        Json.Value.equal_members_refl tail⟩

end

namespace Delta

def NullFree (delta : Delta) : Prop := delta.previous ≠ some .null ∧ delta.current ≠ some .null

structure SameKind (left right : Delta) : Prop where
  added : left.isAdded = right.isAdded
  removed : left.isRemoved = right.isRemoved
  changed : left.isChanged = right.isChanged

theorem filter_null_of_ne {side : Option Value} (present : side ≠ some .null) :
    side.filter (· ≠ .null) = side := by
  cases side with
  | none => rfl
  | some value =>
      have different : value ≠ .null := fun same => present (congrArg some same)
      rw [Option.filter_some, if_pos (decide_eq_true different)]

theorem equal_side_iff {side : Option Value} :
    equalSides side (side.filter (· ≠ .null)) = true ↔ side ≠ some .null := by
  by_cases null : side = some .null
  · rw [null]
    exact iff_of_false Bool.false_ne_true (fun different => different rfl)
  · rw [filter_null_of_ne null]
    refine iff_of_true ?_ null
    cases side with
    | none => rfl
    | some value => exact value.equal_refl

variable {delta : Delta}

theorem NullFree.without_nulls_eq (nullFree : delta.NullFree) : delta.withoutNulls = delta := by
  unfold withoutNulls
  rw [filter_null_of_ne nullFree.1, filter_null_of_ne nullFree.2]

theorem equal_without_nulls_iff : delta.equal delta.withoutNulls = true ↔ delta.NullFree := by
  rw [equal, Bool.and_eq_true]
  exact and_congr equal_side_iff equal_side_iff

theorem kind_of_change_of {previous current : Object} {key : String}
    (told : changeOf previous current key = some delta) :
    delta.isAdded = true ∨ delta.isRemoved = true ∨ delta.isChanged = true := by
  rw [sides_of_change_of told]
  have listed : changeOf previous current key ≠ none := by
    rw [told]
    exact Option.some_ne_none delta
  rw [ne_eq, change_of_eq_none_iff] at listed
  cases before : previous.get? key with
  | none =>
      cases after : current.get? key with
      | none =>
          rw [before, after] at listed
          exact absurd .none listed
      | some value => exact .inl rfl
  | some value =>
      cases after : current.get? key with
      | none => exact .inr (.inl rfl)
      | some other =>
          rw [before, after] at listed
          have unlike : value.alike other = false := eq_false_of_ne_true fun like =>
            listed (.some like)
          exact .inr (.inr (congrArg not unlike))

theorem both_of_changed (changed : delta.isChanged = true) :
    delta.previous ≠ none ∧ delta.current ≠ none := by
  unfold isChanged at changed
  split at changed
  · rename_i before after found bound
    rw [found, bound]
    exact ⟨Option.some_ne_none before, Option.some_ne_none after⟩
  · cases changed

/-- A delta that is told keeps its kind just if none of its sides is a null. -/
theorem same_kind_iff {previous current : Object} {key : String}
    (told : changeOf previous current key = some delta) :
    delta.SameKind delta.withoutNulls ↔ delta.NullFree := by
  constructor
  · intro kind
    constructor
    · intro null
      have gone : delta.withoutNulls.previous = none := by
        unfold withoutNulls
        rw [null]
        rfl
      rcases kind_of_change_of told with added | removed | changed
      · rw [isAdded, null] at added
        cases added
      · rw [kind.removed, isRemoved, gone] at removed
        cases removed
      · rw [kind.changed] at changed
        exact (both_of_changed changed).1 gone
    · intro null
      have gone : delta.withoutNulls.current = none := by
        unfold withoutNulls
        rw [null]
        rfl
      rcases kind_of_change_of told with added | removed | changed
      · rw [kind.added, isAdded, gone, Option.isSome_none, Bool.and_false] at added
        cases added
      · rw [isRemoved, null, Option.isNone_some, Bool.and_false] at removed
        cases removed
      · rw [kind.changed] at changed
        exact (both_of_changed changed).2 gone
  · intro nullFree
    rw [nullFree.without_nulls_eq]
    exact ⟨rfl, rfl, rfl⟩

end Delta

namespace DeltaSet

/-- What is read of the text of a delta set. -/
structure ReadBack (deltas read : DeltaSet) : Prop where
  entries : read.entries = deltas.entries.map fun entry => (entry.1, entry.2.withoutNulls)
  keys : read.keys = deltas.keys
  same : (∀ entry ∈ deltas.entries, entry.2.NullFree) → read = deltas
  equal : deltas.equal read = true ↔ ∀ entry ∈ deltas.entries, entry.2.NullFree
  kinds : ∀ entry ∈ deltas.entries,
    entry.2.SameKind entry.2.withoutNulls ↔ entry.2.NullFree

theorem equal_without_nulls_iff {set : DeltaSet} :
    set.equal set.withoutNulls = true ↔ ∀ entry ∈ set.entries, entry.2.NullFree := by
  have found : ∀ entry ∈ set.entries,
      set.withoutNulls.get? entry.1 = some entry.2.withoutNulls := by
    intro entry member
    exact get?_eq_some_iff.2 (List.mem_map.2 ⟨entry, member, rfl⟩)
  have sizes : (set.size == set.withoutNulls.size) = true :=
    beq_iff_eq.2 (List.length_map _).symm
  rw [equal, sizes, Bool.true_and, List.all_eq_true]
  apply forall_congr'
  intro entry
  apply imp_congr_right
  intro member
  rw [found entry member]
  exact Delta.equal_without_nulls_iff

theorem without_nulls_eq {set : DeltaSet} (nullFree : ∀ entry ∈ set.entries, entry.2.NullFree) :
    set.withoutNulls = set := by
  obtain ⟨entries, distinct⟩ := set
  have each : ∀ entry ∈ entries, (entry.1, entry.2.withoutNulls) = entry :=
    fun entry member => Prod.ext rfl (nullFree entry member).without_nulls_eq
  have kept : (entries.map fun entry => (entry.1, entry.2.withoutNulls)) = entries :=
    (List.map_congr_left each).trans (List.map_id' entries)
  unfold withoutNulls
  simp only [kept]

end DeltaSet

/-- An object whose values are read back also from the text of a delta set. -/
structure Tellable (object : Object) : Prop extends Storable object where
  roomy : ∀ member ∈ object.entries, member.2.depth ≤ DeltaSet.sideLimit

theorem Tellable.restorable {object : Object} (tellable : Tellable object) {name : String}
    {value : Value} (found : object.get? name = some value) :
    value.depth ≤ DeltaSet.sideLimit ∧ value.reread = value := by
  have member := Table.get?_eq_some_iff.1 found
  have sorted := Value.canonical_members_iff.1 tellable.sorted.2 (name, value) member
  exact ⟨tellable.roomy (name, value) member,
    Value.reread_eq_self sorted (tellable.floats name value found).reread⟩

/-- The delta set of two objects is read back from its text but for the nulls on its sides. So it
is the same, and told in the same way, just if none of the values that it tells is a null. -/
theorem compute_delta_read_back {previous current : Object} (before : Tellable previous)
    (after : Tellable current) :
    ∃ read, DeltaSet.decoder.run (computeDelta previous current).text = .ok read ∧
      (computeDelta previous current).ReadBack read := by
  have told : ∀ entry ∈ (computeDelta previous current).entries,
      changeOf previous current entry.1 = some entry.2 :=
    fun entry member => mem_compute_delta_iff.1 member
  refine ⟨(computeDelta previous current).withoutNulls, ?_, ?_⟩
  · apply DeltaSet.decoder_run
    intro entry member value side
    rw [sides_of_change_of (told entry member)] at side
    rcases side with found | found
    · exact before.restorable found
    · exact after.restorable found
  · constructor
    · rfl
    · exact List.map_map
    · exact DeltaSet.without_nulls_eq
    · exact DeltaSet.equal_without_nulls_iff
    · exact fun entry member => Delta.same_kind_iff (told entry member)

/-- One key is removed, one changed and one added. A null inside of a value is no stored null. -/
theorem ports_told_read_back :
    let deltas := computeDelta (.ofList [("a", .bool true), ("b", .string "x")])
      (.ofList [("b", .string "y"), ("c", .array [.null])])
    deltas.removed = ["a"] ∧ deltas.changed = ["b"] ∧ deltas.added = ["c"] ∧
      ∃ read, DeltaSet.decoder.run deltas.text = .ok read ∧ deltas.ReadBack read := by
  intro deltas
  have before : Tellable (.ofList [("a", .bool true), ("b", .string "x")]) :=
    ⟨storable_of_members ⟨trivial, trivial, trivial⟩ (by decide) ⟨trivial, trivial, trivial⟩,
      by decide⟩
  have after : Tellable (.ofList [("b", .string "y"), ("c", .array [.null])]) :=
    ⟨storable_of_members ⟨trivial, ⟨trivial, trivial⟩, trivial⟩ (by decide)
      ⟨trivial, ⟨trivial, trivial⟩, trivial⟩, by decide⟩
  exact ⟨by decide +kernel, by decide +kernel, by decide +kernel,
    compute_delta_read_back before after⟩

/-- A stored null that was removed is not told as removed by what is read back. -/
theorem removed_null_lost :
    let deltas := computeDelta (.ofList [("a", .null)]) ∅
    deltas.removed = ["a"] ∧ ∃ read, DeltaSet.decoder.run deltas.text = .ok read ∧
      read.keys = ["a"] ∧ read.removed = [] ∧ deltas.equal read = false := by
  refine ⟨by decide +kernel, .ofList [("a", ⟨none, none⟩)], ?_⟩
  decide +kernel

end UnitState
