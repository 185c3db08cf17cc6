import UnitState.Table

/-!
# Looking up in tables

What each operation does to `get?`. A table is its lookups: its entries are the pairs
that `get?` finds, and tables with equal lookups are equal.
-/

set_option autoImplicit false

namespace UnitState.Table

variable {Key Value : Type} [KeyOrder Key]

theorem find_eq_none_of_before {key : Key} {bindings : List (Key × Value)}
    (first : ∀ binding ∈ bindings, KeyOrder.before key binding.1 = true) :
    find key bindings = none := by
  cases bindings with
  | nil => rfl
  | cons head tail =>
      have headAfter := first head List.mem_cons_self
      simp [find, headAfter, KeyOrder.asymmetric headAfter]

theorem find_place (key other : Key) (value : Value) (bindings : List (Key × Value)) :
    find other (place key value bindings) =
      if KeyOrder.before other key || KeyOrder.before key other then find other bindings
      else some value := by
  induction bindings with
  | nil =>
      cases forward : KeyOrder.before key other <;>
        cases backward : KeyOrder.before other key <;> simp [place, find, forward, backward]
  | cons head tail hypothesis =>
      simp only [place]
      split
      · rename_i headFirst
        simp only [find, hypothesis]
        cases headOther : KeyOrder.before head.1 other with
        | true => simp
        | false =>
            have otherFirst : KeyOrder.before other key = true := by
              cases otherHead : KeyOrder.before other head.1 with
              | true => exact KeyOrder.transitive otherHead headFirst
              | false => exact KeyOrder.connected headOther otherHead ▸ headFirst
            simp [otherFirst]
      · rename_i headNotFirst
        split
        · rename_i keyFirst
          cases forward : KeyOrder.before key other with
          | true => simp [find, forward]
          | false =>
              cases backward : KeyOrder.before other key with
              | true =>
                  have otherFirst := KeyOrder.transitive backward keyFirst
                  simp [find, forward, backward, otherFirst, KeyOrder.asymmetric otherFirst]
              | false => simp [find, forward, backward]
        · rename_i keyNotFirst
          have same : head.1 = key :=
            KeyOrder.connected (by simpa using headNotFirst) (by simpa using keyNotFirst)
          cases forward : KeyOrder.before key other <;>
            cases backward : KeyOrder.before other key <;>
            simp [find, same, forward, backward]

theorem before_or_before_iff {left right : Key} :
    (KeyOrder.before left right || KeyOrder.before right left) = true ↔ left ≠ right := by
  constructor
  · intro apart same
    subst same
    simp [KeyOrder.irreflexive] at apart
  · intro different
    cases forward : KeyOrder.before left right with
    | true => rfl
    | false =>
        cases backward : KeyOrder.before right left with
        | true => rfl
        | false => exact absurd (KeyOrder.connected forward backward) different

@[simp] theorem get?_empty (key : Key) : (∅ : Table Key Value).get? key = none := rfl

@[simp] theorem get?_insert_self (table : Table Key Value) (key : Key) (value : Value) :
    (table.insert key value).get? key = some value := by
  simp [get?, insert, find_place, KeyOrder.irreflexive]

theorem get?_insert_of_ne (table : Table Key Value) {key other : Key} (value : Value)
    (different : other ≠ key) : (table.insert key value).get? other = table.get? other := by
  simp only [get?, insert, find_place]
  rw [if_pos (before_or_before_iff.2 different)]

theorem eq_or_get?_of_insert {table : Table Key Value} {key other : Key} {value result : Value}
    (found : (table.insert key value).get? other = some result) :
    (other = key ∧ result = value) ∨ table.get? other = some result := by
  by_cases same : other = key
  · rw [same, get?_insert_self] at found
    exact .inl ⟨same, (Option.some.inj found).symm⟩
  · rw [get?_insert_of_ne table value same] at found
    exact .inr found

theorem find_eq_some_iff {key : Key} {value : Value} {bindings : List (Key × Value)}
    (increasing : bindings.Pairwise fun left right => KeyOrder.before left.1 right.1 = true) :
    find key bindings = some value ↔ (key, value) ∈ bindings := by
  induction bindings with
  | nil => simp [find]
  | cons head tail hypothesis =>
      rcases List.pairwise_cons.1 increasing with ⟨headFirst, tailIncreasing⟩
      simp only [find, List.mem_cons]
      cases headBefore : KeyOrder.before head.1 key with
      | true =>
          rw [if_pos rfl, hypothesis tailIncreasing]
          refine ⟨.inr, fun member => member.resolve_left fun same => ?_⟩
          rw [← same, KeyOrder.irreflexive] at headBefore
          cases headBefore
      | false =>
          have absent : (key, value) ∉ tail := fun member => by
            rw [headFirst _ member] at headBefore
            cases headBefore
          cases keyBefore : KeyOrder.before key head.1 with
          | true =>
              simp only [absent, or_false, reduceCtorEq, if_true, Bool.false_eq_true, if_false]
              constructor
              · intro impossible
                cases impossible
              · intro same
                rw [← same, KeyOrder.irreflexive] at keyBefore
                cases keyBefore
          | false =>
              have same := KeyOrder.connected headBefore keyBefore
              obtain ⟨headKey, headValue⟩ := head
              simp only at same
              subst same
              simp only [absent, or_false, Bool.false_eq_true, if_false, Option.some.injEq,
                Prod.mk.injEq, true_and]
              exact eq_comm

theorem get?_eq_some_iff {table : Table Key Value} {key : Key} {value : Value} :
    table.get? key = some value ↔ (key, value) ∈ table.entries :=
  find_eq_some_iff table.increasing

theorem get?_eq_none_iff {table : Table Key Value} {key : Key} :
    table.get? key = none ↔ key ∉ table.keys := by
  constructor
  · intro missing member
    obtain ⟨binding, bound, same⟩ := List.mem_map.1 member
    have found := get?_eq_some_iff.2 (same ▸ bound : (key, binding.2) ∈ table.entries)
    rw [missing] at found
    cases found
  · intro absent
    cases found : table.get? key with
    | none => rfl
    | some value =>
        exact absurd (List.mem_map_of_mem (f := (·.1)) (get?_eq_some_iff.1 found)) absent

theorem mem_keys_iff {table : Table Key Value} {key : Key} :
    key ∈ table.keys ↔ table.contains key = true := by
  rw [contains, Option.isSome_iff_ne_none, ne_eq, get?_eq_none_iff, Classical.not_not]

theorem keys_nodup (table : Table Key Value) : table.keys.Nodup := by
  apply List.pairwise_map.2
  apply table.increasing.imp
  intro left right order same
  rw [same, KeyOrder.irreflexive] at order
  cases order

theorem entries_eq_of_get?_eq {left right : List (Key × Value)}
    (leftIncreasing : left.Pairwise fun first second => KeyOrder.before first.1 second.1 = true)
    (rightIncreasing :
      right.Pairwise fun first second => KeyOrder.before first.1 second.1 = true)
    (same : ∀ key, find key left = find key right) : left = right := by
  induction left generalizing right with
  | nil =>
      cases right with
      | nil => rfl
      | cons head tail =>
          have found := same head.1
          simp [find, KeyOrder.irreflexive] at found
  | cons head tail hypothesis =>
      cases right with
      | nil =>
          have found := same head.1
          simp [find, KeyOrder.irreflexive] at found
      | cons other rest =>
          rcases List.pairwise_cons.1 leftIncreasing with ⟨headFirst, tailIncreasing⟩
          rcases List.pairwise_cons.1 rightIncreasing with ⟨otherFirst, restIncreasing⟩
          have headFound := same head.1
          have otherFound := same other.1
          simp only [find, KeyOrder.irreflexive, Bool.false_eq_true, if_false]
            at headFound otherFound
          have sameKey : head.1 = other.1 := by
            cases forward : KeyOrder.before head.1 other.1 with
            | true =>
                simp [forward, KeyOrder.asymmetric forward] at headFound
            | false =>
                cases backward : KeyOrder.before other.1 head.1 with
                | true =>
                    simp [backward, KeyOrder.asymmetric backward] at otherFound
                | false => exact KeyOrder.connected forward backward
          have sameValue : head.2 = other.2 := by
            simpa [sameKey, KeyOrder.irreflexive] using headFound
          have sameHead : head = other := Prod.ext sameKey sameValue
          subst sameHead
          congr 1
          refine hypothesis tailIncreasing restIncreasing fun key => ?_
          cases later : KeyOrder.before head.1 key with
          | true => simpa [find, later] using same key
          | false =>
              have absent (bindings : List (Key × Value))
                  (first : ∀ binding ∈ bindings, KeyOrder.before head.1 binding.1 = true) :
                  find key bindings = none := by
                refine find_eq_none_of_before fun binding member => ?_
                cases earlier : KeyOrder.before key head.1 with
                | true => exact KeyOrder.transitive earlier (first binding member)
                | false => exact KeyOrder.connected later earlier ▸ first binding member
              rw [absent tail headFirst, absent rest otherFirst]

theorem ext_get? {left right : Table Key Value} (same : ∀ key, left.get? key = right.get? key) :
    left = right := by
  have entries := entries_eq_of_get?_eq left.increasing right.increasing same
  cases left
  cases right
  cases entries
  rfl

theorem insert_comm (table : Table Key Value) {first second : Key × Value}
    (apart : first.1 ≠ second.1) :
    (table.insert first.1 first.2).insert second.1 second.2 =
      (table.insert second.1 second.2).insert first.1 first.2 := by
  apply ext_get?
  intro key
  by_cases isFirst : key = first.1
  · subst isFirst
    rw [get?_insert_of_ne _ _ apart, get?_insert_self, get?_insert_self]
  · rw [get?_insert_of_ne _ first.2 isFirst]
    by_cases isSecond : key = second.1
    · rw [isSecond, get?_insert_self, get?_insert_self]
    · rw [get?_insert_of_ne _ second.2 isSecond, get?_insert_of_ne _ second.2 isSecond,
        get?_insert_of_ne _ first.2 isFirst]

theorem mem_filter {table : Table Key Value} {test : Key → Value → Bool} {key : Key}
    {value : Value} :
    (key, value) ∈ (table.filter test).entries ↔
      (key, value) ∈ table.entries ∧ test key value = true := by
  simp [filter, List.mem_filter]

theorem get?_filter (table : Table Key Value) (test : Key → Value → Bool) (key : Key) :
    (table.filter test).get? key = (table.get? key).filter (test key) := by
  cases found : table.get? key with
  | none =>
      cases kept : (table.filter test).get? key with
      | none => rfl
      | some value =>
          have member := mem_filter.1 (get?_eq_some_iff.1 kept)
          have present := get?_eq_some_iff.2 member.1
          rw [found] at present
          cases present
  | some value =>
      have member := get?_eq_some_iff.1 found
      cases passes : test key value with
      | true =>
          rw [get?_eq_some_iff.2 (mem_filter.2 ⟨member, passes⟩)]
          simp [Option.filter, passes]
      | false =>
          cases kept : (table.filter test).get? key with
          | none => simp [Option.filter, passes]
          | some other =>
              have both := mem_filter.1 (get?_eq_some_iff.1 kept)
              have found' := get?_eq_some_iff.2 both.1
              rw [found] at found'
              cases found'
              rw [passes] at both
              cases both.2

@[simp] theorem get?_erase_self (table : Table Key Value) (key : Key) :
    (table.erase key).get? key = none := by
  rw [erase, get?_filter]
  cases table.get? key <;> simp [Option.filter, KeyOrder.irreflexive]

theorem get?_erase_of_ne (table : Table Key Value) {key other : Key} (different : other ≠ key) :
    (table.erase key).get? other = table.get? other := by
  rw [erase, get?_filter]
  cases table.get? other with
  | none => rfl
  | some value => simp only [Option.filter, before_or_before_iff.2 different, if_true]

theorem contains_erase_iff {table : Table Key Value} {key other : Key} :
    (table.erase key).contains other = true ↔ other ≠ key ∧ table.contains other = true := by
  unfold contains
  by_cases same : other = key
  · simp [same]
  · simp [get?_erase_of_ne table same, same]

theorem place_last {key : Key} {bindings : List (Key × Value)} (value : Value)
    (last : ∀ binding ∈ bindings, KeyOrder.before binding.1 key = true) :
    place key value bindings = bindings ++ [(key, value)] := by
  induction bindings with
  | nil => rfl
  | cons head tail hypothesis =>
      have later := hypothesis fun binding member => last binding (List.mem_cons_of_mem head member)
      rw [place, if_pos (last head List.mem_cons_self), later]
      rfl

theorem entries_foldl_insert (table : Table Key Value) {bindings : List (Key × Value)}
    (increasing : (table.entries ++ bindings).Pairwise fun left right =>
      KeyOrder.before left.1 right.1 = true) :
    (bindings.foldl (fun table binding => table.insert binding.1 binding.2) table).entries =
      table.entries ++ bindings := by
  induction bindings generalizing table with
  | nil => exact (List.append_nil _).symm
  | cons head tail hypothesis =>
      have last := (List.pairwise_append.1 increasing).2.2
      have placed : (table.insert head.1 head.2).entries = table.entries ++ [head] :=
        place_last head.2 fun binding member => last binding member head List.mem_cons_self
      rw [List.foldl_cons, hypothesis, placed, List.append_assoc]
      · rfl
      · rw [placed, List.append_assoc]
        exact increasing

theorem of_list_entries {bindings : List (Key × Value)}
    (increasing : bindings.Pairwise fun left right => KeyOrder.before left.1 right.1 = true) :
    ofList bindings = ⟨bindings, increasing⟩ := by
  have entries : (ofList bindings).entries = bindings :=
    entries_foldl_insert empty (by simpa [empty] using increasing)
  cases shape : ofList bindings with
  | mk kept order =>
      rw [shape] at entries
      cases entries
      rfl

theorem mem_foldl_insert {bindings : List (Key × Value)} {table : Table Key Value}
    {binding : Key × Value}
    (member : binding ∈ (bindings.foldl (fun table binding => table.insert binding.1 binding.2)
      table).entries) : binding ∈ table.entries ∨ binding ∈ bindings := by
  induction bindings generalizing table with
  | nil => exact .inl member
  | cons head tail hypothesis =>
      rcases hypothesis member with placed | later
      · rcases mem_place placed with same | before
        · exact .inr (same ▸ List.mem_cons_self)
        · exact .inl before
      · exact .inr (List.mem_cons_of_mem head later)

theorem mem_of_list {bindings : List (Key × Value)} {binding : Key × Value}
    (member : binding ∈ (ofList bindings).entries) : binding ∈ bindings :=
  (mem_foldl_insert member).resolve_left List.not_mem_nil

end UnitState.Table
