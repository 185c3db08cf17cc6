import Mathlib.Data.List.Perm.Subperm
import Mathlib.Data.Option.Basic
import UnitState.Proofs.Deltas
import UnitState.Proofs.JsonDepth
import UnitState.Proofs.NearestEven

/-!
# Likeness of values

Two values are alike if they have the same places and what stands in each place is alike: the
same text or flag, or two numbers of one value. So the laws of likeness are those of single
numbers. It is reflexive and symmetric. A chain of two likenesses can only break where two
different whole numbers stand at its ends, and there the middle holds a float to which both are
rounded: whole numbers are compared with a float after rounding, and with each other exactly.
Between values without floats nothing is rounded, so there likeness is equality.
-/

set_option autoImplicit false

namespace UnitState.Json

open Decimal

/-! ## Numbers -/

namespace Number

theorem of_int_to_float (whole : Int) (inRange : InIntegerRange whole) :
    Binary64.ofInt? whole = some (integer whole inRange).toFloat := by
  have small : whole.natAbs ≤ 2 ^ 64 := by
    obtain ⟨least, most⟩ := inRange
    omega
  have words : 2 ^ 64 * Binary64.unitsPerOne < 1 * overflowUnits := by decide +kernel
  have fits := (Nat.mul_le_mul_right Binary64.unitsPerOne small).trans_lt words
  obtain ⟨number, found, _⟩ := Binary64.of_units_finite (decide (whole < 0)) Nat.one_pos fits
  have rounded : Binary64.ofInt? whole = some number := found
  rw [toFloat, rounded, Option.getD_some]

theorem to_float_nearest_even (whole : Int) (inRange : InIntegerRange whole) :
    (integer whole inRange).toFloat.NearestEven (whole * Binary64.unitsPerOne) 1 :=
  Binary64.of_int_nearest_even (of_int_to_float whole inRange)

theorem alike_refl (number : Number) : number.alike number = true := by
  cases number with
  | integer whole inRange => exact beq_self_eq_true whole
  | float value => exact value.same_value_refl

theorem alike_symm (left right : Number) : left.alike right = right.alike left := by
  cases left <;> cases right
  · exact Bool.beq_comm
  all_goals exact Binary64.same_value_symm _ _

theorem equal_eq_of_whole {number : Number} (other : Number) (whole : number.isFloat = false) :
    number.equal other = (number == other) := by
  cases number with
  | float value => cases whole
  | integer value inRange => cases other <;> simp [equal]

theorem same_float_of_alike {left right : Number} (same : left.alike right = true) :
    left.toFloat.sameValue right.toFloat = true := by
  cases left with
  | float value => exact same
  | integer whole inRange =>
      cases right with
      | float value => exact same
      | integer other otherInRange =>
          have equal : whole = other := beq_iff_eq.1 same
          subst equal
          exact Binary64.same_value_refl _

/-- A chain of two likenesses between numbers holds, or has different whole numbers at its ends
and a float in the middle. -/
theorem alike_trans_cases {first second third : Number} (forward : first.alike second = true)
    (further : second.alike third = true) :
    first.alike third = true ∨
      (∃ whole inRange, first = integer whole inRange) ∧
        (∃ whole inRange, third = integer whole inRange) ∧ ∃ value, second = float value := by
  have rounded : first.toFloat.sameValue third.toFloat = true :=
    Binary64.same_value_trans (same_float_of_alike forward) (same_float_of_alike further)
  cases first with
  | float value => exact .inl rounded
  | integer whole inRange =>
      cases third with
      | float value => exact .inl rounded
      | integer other otherInRange =>
          cases second with
          | float value => exact .inr ⟨⟨_, _, rfl⟩, ⟨_, _, rfl⟩, ⟨_, rfl⟩⟩
          | integer middle middleInRange =>
              have equal : whole = middle := beq_iff_eq.1 forward
              subst equal
              exact .inl further

end Number

/-! ## Places -/

inductive Step where
  | item (position : Nat)
  | member (key : String)

namespace Value

def part? : Value → Step → Option Value
  | array items, .item position => items[position]?
  | object members, .member key => Table.find key members
  | _, _ => none

def at? : List Step → Value → Option Value
  | [], value => some value
  | step :: rest, value => (value.part? step).bind (at? rest)

def likeOutside : Value → Value → Bool
  | number left, number right => left.alike right
  | array _, array _ => true
  | object _, object _ => true
  | left, right => left.equal right

theorem Canonical.part {value part : Value} {step : Step} (sorted : value.Canonical)
    (found : value.part? step = some part) : part.Canonical := by
  cases value <;> cases step <;> try cases found
  · exact canonical_items_iff.1 sorted part (List.mem_of_getElem? found)
  · exact canonical_members_iff.1 sorted.2 _ ((Table.find_eq_some_iff sorted.1).1 found)

theorem depth_part_lt {value part : Value} {step : Step} (sorted : value.Canonical)
    (found : value.part? step = some part) : part.depth < value.depth := by
  cases value <;> cases step <;> try cases found
  · have member := List.mem_of_getElem? found
    exact Nat.lt_succ_of_le (depth_items_le_iff.1 (Nat.le_refl _) part member)
  · have member := (Table.find_eq_some_iff sorted.1).1 found
    exact Nat.lt_succ_of_le (depth_members_le_iff.1 (Nat.le_refl _) _ member)

theorem depth_le_succ_of_parts {value : Value} {room : Nat} (sorted : value.Canonical)
    (lower : ∀ step part, value.part? step = some part → part.depth ≤ room) :
    value.depth ≤ room + 1 := by
  cases value with
  | array items =>
      apply Nat.succ_le_succ
      apply depth_items_le_iff.2
      intro item member
      obtain ⟨position, found⟩ := List.getElem?_of_mem member
      exact lower (.item position) item found
  | object members =>
      apply Nat.succ_le_succ
      apply depth_members_le_iff.2
      intro member belongs
      exact lower (.member member.1) member.2 ((Table.find_eq_some_iff sorted.1).2 belongs)
  | _ => exact Nat.zero_le _

/-! ## Likeness part by part -/

theorem alike_items_iff (left right : List Value) :
    (left.length = right.length ∧ alikeItems left right = true) ↔
      ∀ position : Nat, Option.Rel (fun item other => item.alike other = true)
        left[position]? right[position]? := by
  induction left generalizing right with
  | nil =>
      cases right with
      | nil =>
          simp only [alikeItems, and_self, true_iff]
          exact fun position => .none
      | cons other later =>
          constructor
          · rintro ⟨long, _⟩
            cases long
          · intro places
            cases places 0
  | cons head tail hypothesis =>
      cases right with
      | nil =>
          constructor
          · rintro ⟨long, _⟩
            cases long
          · intro places
            cases places 0
      | cons other later =>
          rw [alikeItems, Bool.and_eq_true, List.length_cons, List.length_cons, Nat.succ_inj,
            and_left_comm, hypothesis]
          constructor
          · rintro ⟨first, rest⟩ position
            cases position with
            | zero => exact .some first
            | succ position => exact rest position
          · intro places
            cases places 0 with
            | some first => exact ⟨first, fun position => places (position + 1)⟩

theorem alike_members_left_iff {left right : List (String × Value)} :
    alikeMembers left right = true ↔
      ∀ member ∈ left, ∃ other, Table.find member.1 right = some other ∧
        member.2.alike other = true := by
  induction left with
  | nil => simp [alikeMembers]
  | cons head tail hypothesis =>
      obtain ⟨key, value⟩ := head
      rw [alikeMembers, Bool.and_eq_true, hypothesis, List.forall_mem_cons]
      apply and_congr_left'
      cases Table.find key right <;> simp

theorem Increasing.keys_distinct {members : List (String × Value)} (order : Increasing members) :
    (members.map Prod.fst).Nodup := by
  apply List.pairwise_map.2
  exact order.imp fun {first second} before same => by
    rw [same, KeyOrder.irreflexive] at before
    cases before

theorem Increasing.mem_keys_iff {members : List (String × Value)} (order : Increasing members)
    {key : String} : key ∈ members.map Prod.fst ↔ ∃ value, Table.find key members = some value := by
  rw [List.mem_map]
  constructor
  · rintro ⟨⟨_, value⟩, member, rfl⟩
    exact ⟨value, (Table.find_eq_some_iff order).2 member⟩
  · rintro ⟨value, found⟩
    exact ⟨(key, value), (Table.find_eq_some_iff order).1 found, rfl⟩

theorem alike_members_iff {left right : List (String × Value)} (leftOrder : Increasing left)
    (rightOrder : Increasing right) :
    (left.length = right.length ∧ alikeMembers left right = true) ↔
      ∀ key, Option.Rel (fun value other => value.alike other = true)
        (Table.find key left) (Table.find key right) := by
  rw [alike_members_left_iff]
  constructor
  · rintro ⟨long, same⟩ key
    have subset : left.map Prod.fst ⊆ right.map Prod.fst := by
      intro key known
      obtain ⟨member, belongs, rfl⟩ := List.mem_map.1 known
      obtain ⟨other, found, _⟩ := same member belongs
      exact rightOrder.mem_keys_iff.2 ⟨other, found⟩
    have keys : (left.map Prod.fst).Perm (right.map Prod.fst) := by
      apply (List.subperm_of_subset leftOrder.keys_distinct subset).perm_of_length_le
      rw [List.length_map, List.length_map, long]
    cases found : Table.find key left with
    | some value =>
        obtain ⟨other, bound, like⟩ := same _ ((Table.find_eq_some_iff leftOrder).1 found)
        rw [bound]
        exact .some like
    | none =>
        cases bound : Table.find key right with
        | none => exact .none
        | some other =>
            have known := keys.mem_iff.2 (rightOrder.mem_keys_iff.2 ⟨other, bound⟩)
            obtain ⟨value, present⟩ := leftOrder.mem_keys_iff.1 known
            rw [found] at present
            cases present
  · intro places
    have keys : (left.map Prod.fst).Perm (right.map Prod.fst) := by
      apply (List.perm_ext_iff_of_nodup leftOrder.keys_distinct rightOrder.keys_distinct).2
      intro key
      rw [leftOrder.mem_keys_iff, rightOrder.mem_keys_iff]
      have place := places key
      generalize Table.find key left = value at place
      generalize Table.find key right = other at place
      cases place <;> simp
    refine ⟨by simpa using keys.length_eq, fun member belongs => ?_⟩
    have place := places member.1
    rw [(Table.find_eq_some_iff leftOrder).2 belongs] at place
    cases bound : Table.find member.1 right with
    | none =>
        rw [bound] at place
        cases place
    | some other =>
        rw [bound, Option.rel_some_some] at place
        exact ⟨other, rfl, place⟩

theorem alike_iff_parts {left right : Value} (leftSorted : left.Canonical)
    (rightSorted : right.Canonical) :
    left.alike right = true ↔ left.likeOutside right = true ∧
      ∀ step, Option.Rel (fun part other => part.alike other = true)
        (left.part? step) (right.part? step) := by
  have none : ∀ step : Step, Option.Rel (fun part other : Value => part.alike other = true)
      Option.none Option.none := fun _ => .none
  cases left with
  | array items =>
      cases right with
      | array others =>
          rw [alike, Bool.and_eq_true, beq_iff_eq, alike_items_iff]
          constructor
          · intro places
            refine ⟨rfl, fun step => ?_⟩
            cases step with
            | item position => exact places position
            | member key => exact .none
          · exact fun parts position => parts.2 (.item position)
      | _ => exact ⟨fun same => absurd same Bool.false_ne_true,
          fun parts => absurd parts.1 Bool.false_ne_true⟩
  | object members =>
      cases right with
      | object others =>
          rw [alike, Bool.and_eq_true, beq_iff_eq, alike_members_iff leftSorted.1 rightSorted.1]
          constructor
          · intro places
            refine ⟨rfl, fun step => ?_⟩
            cases step with
            | item position => exact .none
            | member key => exact places key
          · exact fun parts key => parts.2 (.member key)
      | _ => exact ⟨fun same => absurd same Bool.false_ne_true,
          fun parts => absurd parts.1 Bool.false_ne_true⟩
  | _ =>
      cases right with
      | array | object => exact ⟨fun same => absurd same Bool.false_ne_true,
          fun parts => absurd parts.1 Bool.false_ne_true⟩
      | _ => exact ⟨fun same => ⟨same, none⟩, fun parts => parts.1⟩

theorem depth_le_of_alike (room : Nat) {left right : Value} (leftSorted : left.Canonical)
    (rightSorted : right.Canonical) (same : left.alike right = true)
    (shallow : left.depth ≤ room) : right.depth ≤ room := by
  induction room generalizing left right with
  | zero =>
      have outside := ((alike_iff_parts leftSorted rightSorted).1 same).1
      cases right with
      | array others =>
          cases left with
          | array items => cases shallow
          | _ => cases outside
      | object others =>
          cases left with
          | object members => cases shallow
          | _ => cases outside
      | _ => exact Nat.zero_le 0
  | succ room hypothesis =>
      apply depth_le_succ_of_parts rightSorted
      intro step other bound
      have place := ((alike_iff_parts leftSorted rightSorted).1 same).2 step
      rw [bound] at place
      cases found : left.part? step with
      | none =>
          rw [found] at place
          cases place
      | some part =>
          rw [found, Option.rel_some_some] at place
          have lower := (depth_part_lt leftSorted found).trans_le shallow
          exact hypothesis (leftSorted.part found) (rightSorted.part bound) place
            (Nat.le_of_lt_succ lower)

theorem rel_congr {left right : Option Value} {relation other : Value → Value → Prop}
    (same : ∀ first second, left = some first → right = some second →
      (relation first second ↔ other first second)) :
    Option.Rel relation left right ↔ Option.Rel other left right := by
  constructor
  · intro related
    cases related with
    | none => exact .none
    | some holds => exact .some ((same _ _ rfl rfl).1 holds)
  · intro related
    cases related with
    | none => exact .none
    | some holds => exact .some ((same _ _ rfl rfl).2 holds)

theorem rel_bind_iff {relation : Value → Value → Prop} {left right : Option Value} :
    (∀ path, Option.Rel relation (left.bind (at? path)) (right.bind (at? path))) ↔
      Option.Rel (fun part other => ∀ path, Option.Rel relation (part.at? path)
        (other.at? path)) left right := by
  constructor
  · intro along
    cases left with
    | none =>
        cases right with
        | none => exact .none
        | some other => cases along []
    | some part =>
        cases right with
        | none => cases along []
        | some other => exact .some along
  · intro related path
    cases related with
    | none => exact .none
    | some holds => exact holds path

/-- Values are alike exactly if they are so in every place. -/
theorem alike_iff_places {left right : Value} (leftSorted : left.Canonical)
    (rightSorted : right.Canonical) :
    left.alike right = true ↔ ∀ path,
      Option.Rel (fun part other => part.likeOutside other = true) (left.at? path)
        (right.at? path) := by
  induction depthEq : left.depth using Nat.strong_induction_on generalizing left right with
  | _ depth hypothesis =>
      have deeper : ∀ step, Option.Rel (fun part other => part.alike other = true)
            (left.part? step) (right.part? step) ↔
          ∀ rest, Option.Rel (fun part other => part.likeOutside other = true)
            (left.at? (step :: rest)) (right.at? (step :: rest)) := by
        intro step
        simp only [at?, rel_bind_iff]
        apply rel_congr
        intro part other found bound
        have lower := depthEq ▸ depth_part_lt leftSorted found
        exact hypothesis _ lower (leftSorted.part found) (rightSorted.part bound) rfl
      rw [alike_iff_parts leftSorted rightSorted]
      constructor
      · rintro ⟨outside, parts⟩ path
        cases path with
        | nil => exact .some outside
        | cons step rest => exact (deeper step).1 (parts step) rest
      · intro places
        cases places [] with
        | some outside => exact ⟨outside, fun step => (deeper step).2 fun rest =>
            places (step :: rest)⟩

/-! ## The laws of likeness -/

theorem like_outside_refl (value : Value) : value.likeOutside value = true := by
  cases value with
  | number content => exact content.alike_refl
  | array | object => rfl
  | null => rfl
  | bool flag => exact beq_self_eq_true flag
  | string text => exact beq_self_eq_true text

theorem like_outside_symm (left right : Value) :
    left.likeOutside right = right.likeOutside left := by
  cases left <;> cases right <;> try rfl
  · exact Bool.beq_comm
  · exact Number.alike_symm _ _
  · exact Bool.beq_comm

def wholeAt? (value : Value) (path : List Step) : Option Int :=
  match value.at? path with
  | some (number (.integer whole _)) => some whole
  | _ => none

theorem whole_at_eq_some_iff {value : Value} {path : List Step} {whole : Int} :
    value.wholeAt? path = some whole ↔
      ∃ inRange, value.at? path = some (number (.integer whole inRange)) := by
  unfold wholeAt?
  split
  · rename_i other inRange found
    simp only [found, Option.some.injEq, number.injEq, Number.integer.injEq]
    constructor
    · rintro rfl
      exact ⟨inRange, rfl⟩
    · exact fun same => same.2
  · rename_i absent
    constructor
    · intro none
      cases none
    · rintro ⟨inRange, found⟩
      exact absurd found (absent whole inRange)

theorem alike_refl {value : Value} (sorted : value.Canonical) : value.alike value = true := by
  rw [alike_iff_places sorted sorted]
  intro path
  cases value.at? path with
  | none => exact .none
  | some part => exact .some part.like_outside_refl

theorem alike_symm {left right : Value} (leftSorted : left.Canonical)
    (rightSorted : right.Canonical) : left.alike right = right.alike left := by
  rw [Bool.eq_iff_iff, alike_iff_places leftSorted rightSorted,
    alike_iff_places rightSorted leftSorted]
  apply forall_congr'
  intro path
  generalize left.at? path = part
  generalize right.at? path = other
  constructor
  · rintro (like | _)
    · exact .some (like_outside_symm _ _ ▸ like)
    · exact .none
  · rintro (like | _)
    · exact .some (like_outside_symm _ _ ▸ like)
    · exact .none

theorem like_outside_trans_cases {first second third : Value}
    (forward : first.likeOutside second = true) (further : second.likeOutside third = true) :
    first.likeOutside third = true ∨
      (∃ whole inRange, first = number (.integer whole inRange)) ∧
        (∃ whole inRange, third = number (.integer whole inRange)) ∧
          ∃ value, second = number (.float value) := by
  cases first with
  | number content =>
      cases second with
      | number middle =>
          cases third with
          | number last =>
              rcases Number.alike_trans_cases forward further with
                like | ⟨⟨_, _, rfl⟩, ⟨_, _, rfl⟩, ⟨_, rfl⟩⟩
              · exact .inl like
              · exact .inr ⟨⟨_, _, rfl⟩, ⟨_, _, rfl⟩, ⟨_, rfl⟩⟩
          | _ => cases further
      | _ => cases forward
  | array items =>
      cases second with
      | array others => cases third <;> first | exact .inl rfl | cases further
      | _ => cases forward
  | object members =>
      cases second with
      | object others => cases third <;> first | exact .inl rfl | cases further
      | _ => cases forward
  | null =>
      cases second with
      | null => exact .inl further
      | _ => cases forward
  | bool flag =>
      cases second with
      | bool other =>
          cases (beq_iff_eq.1 forward : flag = other)
          exact .inl further
      | _ => cases forward
  | string text =>
      cases second with
      | string other =>
          cases (beq_iff_eq.1 forward : text = other)
          exact .inl further
      | _ => cases forward

/-- Where both values hold a whole number, it is the same one. -/
def SameWholes (left right : Value) : Prop :=
  ∀ path whole other, left.wholeAt? path = some whole → right.wholeAt? path = some other →
    whole = other

section Chain

variable {first second third : Value} (firstSorted : first.Canonical)
  (secondSorted : second.Canonical) (thirdSorted : third.Canonical)

include firstSorted thirdSorted in
theorem same_wholes_of_alike (like : first.alike third = true) : first.SameWholes third := by
  intro path whole other left right
  obtain ⟨_, leftFound⟩ := whole_at_eq_some_iff.1 left
  obtain ⟨_, rightFound⟩ := whole_at_eq_some_iff.1 right
  have place := (alike_iff_places firstSorted thirdSorted).1 like path
  rw [leftFound, rightFound, Option.rel_some_some] at place
  exact beq_iff_eq.1 place

variable (forward : first.alike second = true) (further : second.alike third = true)

include firstSorted secondSorted thirdSorted forward further in
/-- A chain of two likenesses holds unless different whole numbers stand in one place. -/
theorem alike_trans_iff : first.alike third = true ↔ first.SameWholes third := by
  constructor
  · exact same_wholes_of_alike firstSorted thirdSorted
  · intro same
    rw [alike_iff_places firstSorted thirdSorted]
    intro path
    have near := (alike_iff_places firstSorted secondSorted).1 forward path
    have far := (alike_iff_places secondSorted thirdSorted).1 further path
    have wholes := same path
    simp only [whole_at_eq_some_iff] at wholes
    generalize first.at? path = left at near wholes
    generalize second.at? path = middle at near far
    generalize third.at? path = right at far wholes
    cases near with
    | none =>
        cases far
        exact .none
    | some near =>
        cases far with
        | some far =>
            rcases like_outside_trans_cases near far with
              like | ⟨⟨whole, inRange, rfl⟩, ⟨other, otherInRange, rfl⟩, _⟩
            · exact .some like
            · have equal := wholes whole other ⟨inRange, rfl⟩ ⟨otherInRange, rfl⟩
              exact .some (beq_iff_eq.2 equal)

include firstSorted secondSorted thirdSorted forward further in
/-- Between two different whole numbers a chain has a float to which both are rounded, so both
are beyond the whole numbers that are floats themselves. -/
theorem rounded_between {path : List Step} {whole other : Int}
    (left : first.wholeAt? path = some whole) (right : third.wholeAt? path = some other)
    (different : whole ≠ other) :
    ∃ value, second.at? path = some (number (.float value)) ∧
      value.NearestEven (whole * Binary64.unitsPerOne) 1 ∧
      value.NearestEven (other * Binary64.unitsPerOne) 1 ∧
      2 ^ 53 ≤ whole.natAbs ∧ 2 ^ 53 ≤ other.natAbs := by
  obtain ⟨inRange, leftFound⟩ := whole_at_eq_some_iff.1 left
  obtain ⟨otherInRange, rightFound⟩ := whole_at_eq_some_iff.1 right
  have near := (alike_iff_places firstSorted secondSorted).1 forward path
  have far := (alike_iff_places secondSorted thirdSorted).1 further path
  rw [leftFound] at near
  rw [rightFound] at far
  cases middle : second.at? path with
  | none =>
      rw [middle] at near
      cases near
  | some part =>
      rw [middle, Option.rel_some_some] at near far
      rcases like_outside_trans_cases near far with like | ⟨_, _, ⟨value, rfl⟩⟩
      · exact absurd (beq_iff_eq.1 like) different
      · have leftSame : (Number.integer whole inRange).toFloat.sameValue value = true := near
        have rightSame : value.sameValue (Number.integer other otherInRange).toFloat = true := far
        have units := Binary64.signed_units_of_same_value
          (Binary64.same_value_trans leftSame rightSame)
        have leftRounded := Number.of_int_to_float whole inRange
        have rightRounded := Number.of_int_to_float other otherInRange
        refine ⟨value, rfl, (Number.to_float_nearest_even whole inRange).of_same_value leftSame,
          (Number.to_float_nearest_even other otherInRange).of_same_value ?_,
          Binary64.great_of_same_rounding different leftRounded rightRounded units,
          Binary64.great_of_same_rounding different.symm rightRounded leftRounded units.symm⟩
        rw [Binary64.same_value_symm]
        exact rightSame

end Chain

/-- Likeness is reflexive and symmetric. It is transitive but for pairs of different whole
numbers in one place, with a float between them to which both are rounded, to the nearest one
and half way to the even one, like all whole numbers. -/
theorem alike_laws {first second third : Value} (firstSorted : first.Canonical)
    (secondSorted : second.Canonical) (thirdSorted : third.Canonical) :
    first.alike first = true ∧
      (first.alike second = true → second.alike first = true) ∧
      (first.alike second = true → second.alike third = true →
        (first.alike third = true ↔ first.SameWholes third) ∧
        ∀ path whole other, first.wholeAt? path = some whole →
          third.wholeAt? path = some other → whole ≠ other →
          ∃ value, second.at? path = some (number (.float value)) ∧
            value.NearestEven (whole * Binary64.unitsPerOne) 1 ∧
            value.NearestEven (other * Binary64.unitsPerOne) 1 ∧
            2 ^ 53 ≤ whole.natAbs ∧ 2 ^ 53 ≤ other.natAbs) ∧
      ∀ whole inRange, (Number.integer whole inRange).toFloat.NearestEven
        (whole * Binary64.unitsPerOne) 1 := by
  refine ⟨alike_refl firstSorted, ?_, ?_, Number.to_float_nearest_even⟩
  · rw [alike_symm firstSorted secondSorted]
    exact id
  · intro forward further
    refine ⟨alike_trans_iff firstSorted secondSorted thirdSorted forward further, ?_⟩
    intro path whole other left right different
    exact rounded_between firstSorted secondSorted thirdSorted forward further left right different

/-- The least whole number that is no float and the one before it have a float between them. -/
theorem alike_laws_at_limit :
    ∃ value, (array [number (.float ⟨false, 4845873199050653696, by decide⟩)]).at? [.item 0] =
        some (number (.float value)) ∧
      value.NearestEven (9007199254740992 * Binary64.unitsPerOne) 1 ∧
      value.NearestEven (9007199254740993 * Binary64.unitsPerOne) 1 ∧
      2 ^ 53 ≤ (9007199254740992 : Int).natAbs ∧ 2 ^ 53 ≤ (9007199254740993 : Int).natAbs := by
  have sorted : ∀ content : Number, (array [number content]).Canonical :=
    fun _ => ⟨trivial, trivial⟩
  have laws := alike_laws (sorted (.integer 9007199254740992 (by decide)))
    (sorted (.float ⟨false, 4845873199050653696, by decide⟩))
    (sorted (.integer 9007199254740993 (by decide)))
  have chain := laws.2.2.1 (by decide +kernel) (by decide +kernel)
  exact chain.2 [.item 0] _ _ rfl rfl (by decide)

/-- Likeness is not transitive: `2 ^ 53` and `2 ^ 53 + 1` are both alike to the float `2 ^ 53`. -/
theorem not_alike_trans :
    (number (.integer 9007199254740992 (by decide))).alike
        (number (.float ⟨false, 4845873199050653696, by decide⟩)) = true ∧
      (number (.float ⟨false, 4845873199050653696, by decide⟩)).alike
        (number (.integer 9007199254740993 (by decide))) = true ∧
      (number (.integer 9007199254740992 (by decide))).alike
        (number (.integer 9007199254740993 (by decide))) = false := by
  decide +kernel

/-! ## Values without floats -/

mutual

theorem equal_eq_of_whole (left right : Value)
    (whole : left.EveryNumber fun number => number.isFloat = false) :
    left.agree Number.equal right = left.agree (· == ·) right := by
  cases left with
  | number content =>
      cases right with
      | number other => exact Number.equal_eq_of_whole other whole
      | _ => rfl
  | array items =>
      cases right with
      | array others => exact equal_items_eq_of_whole items others whole
      | _ => rfl
  | object members =>
      cases right with
      | object others => exact equal_members_eq_of_whole members others whole
      | _ => rfl
  | _ => cases right <;> rfl

theorem equal_items_eq_of_whole (left right : List Value)
    (whole : EveryNumberItems (fun number => number.isFloat = false) left) :
    agreeItems Number.equal left right = agreeItems (· == ·) left right := by
  cases left with
  | nil => cases right <;> rfl
  | cons head tail =>
      cases right with
      | nil => rfl
      | cons other later =>
          rw [agreeItems, agreeItems, equal_eq_of_whole head other whole.1,
            equal_items_eq_of_whole tail later whole.2]

theorem equal_members_eq_of_whole (left right : List (String × Value))
    (whole : EveryNumberMembers (fun number => number.isFloat = false) left) :
    agreeMembers Number.equal left right = agreeMembers (· == ·) left right := by
  cases left with
  | nil => cases right <;> rfl
  | cons head tail =>
      cases right with
      | nil => rfl
      | cons other later =>
          rw [agreeMembers, agreeMembers, equal_eq_of_whole head.2 other.2 whole.1,
            equal_members_eq_of_whole tail later whole.2]

end

theorem equal_iff_eq_of_whole {left right : Value}
    (whole : left.EveryNumber fun number => number.isFloat = false) :
    left.equal right = true ↔ left = right := by
  rw [equal, equal_eq_of_whole left right whole]
  exact agree_same_iff left right

theorem object_eq_iff {members others : List (String × Value)} (order : Increasing members)
    (otherOrder : Increasing others) :
    object members = object others ↔
      ∀ key, Table.find key members = Table.find key others := by
  constructor
  · intro same key
    rw [object.inj same]
  · intro same
    let left : Object := ⟨members, order⟩
    let right : Object := ⟨others, otherOrder⟩
    have tables : left = right := Table.ext_get? same
    exact congrArg ofObject tables

/-- Between values without floats likeness is plain equality, and objects are alike if they have
the same keys with the same values. -/
theorem exact_alike_iff_eq {left right : Value} (leftExact : left.Exact)
    (rightExact : right.Exact) :
    left.alike right = left.equal right ∧ (left.alike right = true ↔ left = right) ∧
      ∀ members others, left = object members → right = object others →
        (left.alike right = true ↔ ∀ key, Table.find key members = Table.find key others) := by
  have same : left.alike right = true ↔ left = right := by
    constructor
    · exact eq_of_alike left right leftExact rightExact
    · intro equal
      rw [← equal]
      exact alike_refl leftExact.canonical
  refine ⟨?_, same, ?_⟩
  · rw [Bool.eq_iff_iff, same, equal_iff_eq_of_whole leftExact.integers]
  · intro members others leftShape rightShape
    subst leftShape rightShape
    exact same.trans (object_eq_iff leftExact.canonical.1 rightExact.canonical.1)

/-- The greatest and the least whole numbers in nested objects: one that is next to another is
told apart from it. -/
theorem neighbours_told_apart :
    (object [("a", array [number (.integer 18446744073709551615 (by decide))]),
        ("b", number (.integer (-9223372036854775808) (by decide)))]).alike
      (object [("a", array [number (.integer 18446744073709551614 (by decide))]),
        ("b", number (.integer (-9223372036854775808) (by decide)))]) = false := by
  let side (last : Number) : Value := object [("a", array [number last]),
    ("b", number (.integer (-9223372036854775808) (by decide)))]
  have order : KeyOrder.before "a" "b" = true := by decide
  have exact (last : Number) (whole : last.isFloat = false) : (side last).Exact :=
    ⟨⟨List.pairwise_pair.2 order, ⟨trivial, trivial⟩, trivial, trivial⟩, ⟨whole, trivial⟩,
      rfl, trivial⟩
  have apart := (exact_alike_iff_eq (exact (.integer 18446744073709551615 (by decide)) rfl)
    (exact (.integer 18446744073709551614 (by decide)) rfl)).2.1
  rw [Bool.eq_false_iff]
  exact fun same => absurd (apart.1 same) (by decide)

end Value

end UnitState.Json
