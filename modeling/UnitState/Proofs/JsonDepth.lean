import UnitState.Proofs.JsonRoundTrip

/-!
# Values that are nested too deep

A reader that may nest further reads all that one reads that may nest less far, and as the same.
What a reader reads is nested no deeper than it may nest, with its keys in order. So the text of a
canonical value is read exactly if the value is not nested deeper than the limit.
-/

set_option autoImplicit false

namespace UnitState.Json

namespace Reader

variable {Result Other : Type}

/-- Whatever the narrower reader reads, this one reads as the same. -/
def Extends (reader narrower : Reader Result) : Prop :=
  ∀ cursor result later, narrower cursor = (.ok result, later) →
    reader cursor = (.ok result, later)

namespace Extends

theorem refl (reader : Reader Result) : Extends reader reader := fun _ _ _ same => same

theorem bind {first narrower : Reader Result} {next narrow : Result → Reader Other}
    (heads : Extends first narrower) (tails : ∀ result, Extends (next result) (narrow result)) :
    Extends (first >>= next) (narrower >>= narrow) := by
  intro cursor other last success
  obtain ⟨result, later, taken, rest⟩ := Attempt.of_bind_ok success
  rw [Attempt.bind_ok (heads cursor result later taken)]
  exact tails result later other last rest

theorem closed_by {inside narrower : Reader Result} (extended : Extends inside narrower)
    (closing : Reader Unit) : Extends (closedBy inside closing) (closedBy narrower closing) := by
  intro cursor result last success
  simp only [closedBy] at success ⊢
  cases taken : narrower cursor with
  | mk answer later =>
      rw [taken] at success
      cases answer with
      | error fault => cases success
      | ok found =>
          rw [extended cursor found later taken]
          exact success

theorem bounded {reader narrower : Nat → Reader Result}
    (extended : ∀ count, Extends (reader count) (narrower count)) :
    Extends (Reader.bounded reader) (Reader.bounded narrower) :=
  fun cursor => extended (cursor.rest.length + 1) cursor

theorem items {item narrower : Reader Result} (extended : Extends item narrower) (first : Bool)
    (count : Nat) : Extends (Reader.items item first count) (Reader.items narrower first count) := by
  induction count generalizing first with
  | zero => exact refl _
  | succ count hypothesis =>
      apply bind (refl _)
      intro further
      cases further with
      | false => exact refl _
      | true => exact bind extended fun head => bind (hypothesis false) fun tail => refl _

theorem members {value narrower : Reader Result} (extended : Extends value narrower)
    (first : Bool) (count : Nat) :
    Extends (Reader.members value first count) (Reader.members narrower first count) := by
  induction count generalizing first with
  | zero => exact refl _
  | succ count hypothesis =>
      apply bind (refl _)
      intro further
      cases further with
      | false => exact refl _
      | true =>
          exact bind (refl _) fun key => bind (refl _) fun _ =>
            bind extended fun head => bind (hypothesis false) fun tail => refl _

theorem list {item narrower : Reader Result} (extended : Extends item narrower) :
    Extends (Reader.list item) (Reader.list narrower) :=
  bind (refl _) fun _ => closed_by (bounded fun count => items extended true count) endList

theorem object {value narrower : Reader Result} (extended : Extends value narrower) :
    Extends (Reader.object value) (Reader.object narrower) :=
  bind (refl _) fun _ => closed_by (bounded fun count => members extended true count) endObject

theorem dispatch {onList onObject narrowList narrowObject : Reader Value}
    (lists : Extends onList narrowList) (objects : Extends onObject narrowObject) :
    Extends (Reader.dispatch onList onObject) (Reader.dispatch narrowList narrowObject) := by
  apply bind (refl _)
  intro found
  split
  case h_6 => exact lists
  case h_7 => exact objects
  all_goals exact refl _

theorem fail_next (reader : Reader Result) (cause : Cause) :
    Extends reader (failNext cause) := by
  intro cursor result later success
  cases success

theorem value {room more : Nat} (wider : room ≤ more) :
    Extends (Reader.value more) (Reader.value room) := by
  induction room generalizing more with
  | zero =>
      cases more with
      | zero => exact refl _
      | succ more => exact dispatch (fail_next _ _) (fail_next _ _)
  | succ room hypothesis =>
      cases more with
      | zero => cases wider
      | succ more =>
          have parts := hypothesis (Nat.le_of_succ_le_succ wider)
          exact dispatch (bind (list parts) fun _ => refl _) (bind (object parts) fun _ => refl _)

end Extends

def Gives (reader : Reader Result) (property : Result → Prop) : Prop :=
  ∀ cursor result later, reader cursor = (.ok result, later) → property result

namespace Gives

variable {property : Result → Prop} {wanted : Other → Prop}

theorem pure {result : Result} (holds : property result) : Gives (pure result) property := by
  intro cursor found later success
  cases success
  exact holds

theorem bind {first : Reader Result} {next : Result → Reader Other} (heads : Gives first property)
    (tails : ∀ result, property result → Gives (next result) wanted) :
    Gives (first >>= next) wanted := by
  intro cursor other last success
  obtain ⟨result, later, taken, rest⟩ := Attempt.of_bind_ok success
  exact tails result (heads cursor result later taken) later other last rest

theorem any (reader : Reader Result) : Gives reader fun _ => True := fun _ _ _ _ => trivial

theorem fail_next (cause : Cause) : Gives (failNext cause) property := by
  intro cursor result later success
  cases success

theorem fail_here (cause : Cause) : Gives (failHere cause) property := by
  intro cursor result later success
  cases success

theorem closed_by {inside : Reader Result} (gives : Gives inside property)
    (closing : Reader Unit) : Gives (closedBy inside closing) property := by
  intro cursor result last success
  simp only [closedBy] at success
  cases taken : inside cursor with
  | mk answer later =>
      rw [taken] at success
      cases answer with
      | error fault => cases success
      | ok found =>
          simp only at success
          split at success
          · cases success
            exact gives cursor result later taken
          · cases success

theorem items {item : Reader Result} (gives : Gives item property) (first : Bool) (count : Nat) :
    Gives (Reader.items item first count) fun found => ∀ result ∈ found, property result := by
  induction count generalizing first with
  | zero => exact pure (List.forall_mem_nil _)
  | succ count hypothesis =>
      refine bind (any _) fun further _ => ?_
      cases further with
      | false => exact pure (List.forall_mem_nil _)
      | true =>
          refine bind gives fun head holds => ?_
          exact bind (hypothesis false) fun tail later => pure (List.forall_mem_cons.2 ⟨holds, later⟩)

theorem members {value : Reader Result} (gives : Gives value property) (first : Bool)
    (count : Nat) : Gives (Reader.members value first count) fun found =>
      ∀ member ∈ found, property member.2 := by
  induction count generalizing first with
  | zero => exact pure (List.forall_mem_nil _)
  | succ count hypothesis =>
      refine bind (any _) fun further _ => ?_
      cases further with
      | false => exact pure (List.forall_mem_nil _)
      | true =>
          refine bind (any _) fun key _ => bind (any _) fun _ _ => bind gives fun head holds => ?_
          exact bind (hypothesis false) fun tail later => pure (List.forall_mem_cons.2 ⟨holds, later⟩)

theorem list {item : Reader Result} (gives : Gives item property) :
    Gives (Reader.list item) fun found => ∀ result ∈ found, property result :=
  bind (any _) fun _ _ => closed_by
    (fun cursor => items gives true (cursor.rest.length + 1) cursor) endList

theorem object {value : Reader Result} (gives : Gives value property) :
    Gives (Reader.object value) fun found => ∀ member ∈ found, property member.2 :=
  bind (any _) fun _ _ => closed_by
    (fun cursor => members gives true (cursor.rest.length + 1) cursor) endObject

/-- A list and an object are read by the readers given for them, all else is not nested. -/
theorem dispatch {onList onObject : Reader Value} {property : Value → Prop}
    (flat : ∀ value : Value, value.depth = 0 → property value) (lists : Gives onList property)
    (objects : Gives onObject property) : Gives (Reader.dispatch onList onObject) property := by
  refine bind (any _) fun found _ => ?_
  split
  · exact fail_here _
  · exact bind (any _) fun _ _ => bind (any _) fun _ _ => pure (flat _ rfl)
  · exact bind (any _) fun _ _ => bind (any _) fun _ _ => pure (flat _ rfl)
  · exact bind (any _) fun _ _ => bind (any _) fun _ _ => pure (flat _ rfl)
  · exact bind (any _) fun text _ => pure (flat _ rfl)
  · exact lists
  · exact objects
  · split
    · exact bind (any _) fun number _ => pure (flat _ rfl)
    · exact fail_next _

theorem value (room : Nat) : Gives (Reader.value room) fun value => value.depth ≤ room := by
  have flat : ∀ {room : Nat} (value : Value), value.depth = 0 → value.depth ≤ room :=
    fun value none => none ▸ Nat.zero_le _
  induction room with
  | zero => exact dispatch flat (fail_next _) (fail_next _)
  | succ room hypothesis =>
      apply dispatch flat
      · refine bind (list hypothesis) fun found shallow => ?_
        exact pure (Nat.succ_le_succ (Value.depth_items_le_iff.2 shallow))
      · refine bind (object hypothesis) fun found shallow => ?_
        refine pure (Nat.succ_le_succ (Value.depth_members_le_iff.2 ?_))
        intro member belongs
        exact shallow member (Table.mem_of_list belongs)

theorem value_canonical (room : Nat) : Gives (Reader.value room) Value.Canonical := by
  have flat : ∀ value : Value, value.depth = 0 → value.Canonical := by
    intro value none
    cases value with
    | null | bool | number | string => trivial
    | array | object => cases none
  induction room with
  | zero => exact dispatch flat (fail_next _) (fail_next _)
  | succ room hypothesis =>
      apply dispatch flat
      · refine bind (list hypothesis) fun found sorted => ?_
        exact pure (Value.canonical_items_iff.2 sorted)
      · refine bind (object hypothesis) fun found sorted => ?_
        refine pure ⟨(Table.ofList found).increasing, Value.canonical_members_iff.2 ?_⟩
        intro member belongs
        exact sorted member (Table.mem_of_list belongs)

end Gives

end Reader

namespace Value

theorem of_parse {property : Value → Prop}
    (gives : Reader.Gives (Reader.value nestingLimit) property) {text : String} {value : Value}
    (read : parse text = .ok value) : property value := by
  have whole : Reader.Gives (do
      let result ← Reader.value nestingLimit
      Reader.atEnd
      return result) property :=
    gives.bind fun value holds => .bind (.any _) fun _ _ => .pure holds
  exact whole (.ofString text) value _ (Prod.ext read rfl)

theorem depth_le_of_parse {text : String} {value : Value} (read : parse text = .ok value) :
    value.depth ≤ nestingLimit :=
  of_parse (.value nestingLimit) read

theorem canonical_of_parse {text : String} {value : Value} (read : parse text = .ok value) :
    value.Canonical :=
  of_parse (.value_canonical nestingLimit) read

/-- The text of a canonical value is read exactly if the value is not nested too deep. -/
theorem parse_compact_iff {value : Value} (sorted : value.Canonical) :
    (∃ read, parse value.compact = .ok read) ↔ value.depth ≤ nestingLimit := by
  constructor
  · rintro ⟨read, found⟩
    have shallow := depth_le_of_parse found
    -- with room for the value, what was read would still be read, but also the value itself
    have wider : Reader.Extends (do
        let result ← Reader.value (max nestingLimit value.depth)
        Reader.atEnd
        return result) (do
        let result ← Reader.value nestingLimit
        Reader.atEnd
        return result) :=
      .bind (.value (Nat.le_max_left _ _)) fun _ => .refl _
    have same := congrArg Prod.fst (wider (.ofString value.compact) read _ (Prod.ext found rfl))
    have itself : Reader.readAll (Reader.value (max nestingLimit value.depth)) value.compact =
        .ok value.reread :=
      Reader.read_all_reads (Reader.value_reads _ (Nat.le_max_right _ _) (.inl rfl))
    rw [Reader.readAll, same] at itself
    injection itself with equal
    rw [← depth_reread value sorted, ← equal]
    exact shallow
  · intro shallow
    exact ⟨value.reread, parse_compact shallow⟩

end Value

end UnitState.Json
