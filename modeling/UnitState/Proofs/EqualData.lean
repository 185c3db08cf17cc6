import Mathlib.Data.List.Nodup
import UnitState.Proofs.Coherence
import UnitState.Proofs.SetThenGet

/-!
# Equal data are stored alike

Data of different types may be converted to the same tree, and a map without an order gives its
entries in any order. Before a datum is stored the keys of its tree are put in order, at every
depth, so two data whose trees differ in nothing but the order of entries have one text. Where
the text is stored, setting either of them again is answered without a write, in a scope as well
as against a lock; where another text is stored, setting it writes, unless it is refused.
-/

set_option autoImplicit false

namespace UnitState

open Json

namespace Table

variable {Key Value : Type} [KeyOrder Key]

theorem of_list_perm {bindings moved : List (Key × Value)}
    (distinct : (bindings.map Prod.fst).Nodup) (perm : bindings.Perm moved) :
    (ofList bindings : Table Key Value) = ofList moved := by
  apply perm.foldl_eq'
  intro first firstMember second secondMember table
  by_cases same : first.1 = second.1
  · rw [List.inj_on_of_nodup_map distinct firstMember secondMember same]
  · exact insert_comm table same

end Table

namespace Json.Value

mutual

/-- The same tree, but for the order in which the members of its objects stand. -/
inductive Reordered : Value → Value → Prop
  | same (value : Value) : Reordered value value
  | array {items others : List Value} (each : ReorderedItems items others) :
      Reordered (array items) (array others)
  | object {members moved others : List (String × Value)}
      (distinct : (members.map Prod.fst).Nodup) (perm : members.Perm moved)
      (each : ReorderedMembers moved others) : Reordered (object members) (object others)

inductive ReorderedItems : List Value → List Value → Prop
  | nil : ReorderedItems [] []
  | cons {head other : Value} {tail rest : List Value} (first : Reordered head other)
      (later : ReorderedItems tail rest) : ReorderedItems (head :: tail) (other :: rest)

inductive ReorderedMembers : List (String × Value) → List (String × Value) → Prop
  | nil : ReorderedMembers [] []
  | cons {key : String} {head other : Value} {tail rest : List (String × Value)}
      (first : Reordered head other) (later : ReorderedMembers tail rest) :
      ReorderedMembers ((key, head) :: tail) ((key, other) :: rest)

end

theorem canonical_members_map (members : List (String × Value)) :
    canonicalMembers members = members.map fun member => (member.1, member.2.canonical) := by
  induction members with
  | nil => rfl
  | cons head tail hypothesis => rw [canonicalMembers, hypothesis]; rfl

mutual

theorem Reordered.canonical {left right : Value} (reordered : left.Reordered right) :
    left.canonical = right.canonical := by
  cases reordered with
  | same => rfl
  | array each => exact congrArg Value.array each.canonical
  | @object members moved others distinct perm each =>
      rw [Value.canonical, Value.canonical, ← each.canonical, canonical_members_map,
        canonical_members_map]
      apply congrArg ofObject
      apply Table.of_list_perm
      · rw [List.map_map]
        exact distinct
      · exact perm.map _

theorem ReorderedItems.canonical {items others : List Value}
    (each : ReorderedItems items others) : canonicalItems items = canonicalItems others := by
  cases each with
  | nil => rfl
  | cons first later => rw [canonicalItems, canonicalItems, first.canonical, later.canonical]

theorem ReorderedMembers.canonical {members others : List (String × Value)}
    (each : ReorderedMembers members others) :
    canonicalMembers members = canonicalMembers others := by
  cases each with
  | nil => rfl
  | cons first later =>
      rw [canonicalMembers, canonicalMembers, first.canonical, later.canonical]

end

end Json.Value

namespace Datum

mutual

/-- The tree that a datum is converted to, with the entries of its maps in the order in which
they were inserted. -/
def tree : Datum → Except Cause Value
  | null => .ok .null
  | boolean flag => .ok (.bool flag)
  | integer value =>
      match Number.ofInt? value with
      | some number => .ok (.number number)
      | none => .error .numberOutOfRange
  | float (some number) => .ok (.number (.float number))
  | float none => .ok .null
  | text content => .ok (.string content)
  | list items => (itemTrees items).map Value.array
  | map bindings => (memberTrees bindings).map Value.object

def itemTrees : List Datum → Except Cause (List Value)
  | [] => .ok []
  | head :: tail => do
      let value ← head.tree
      return value :: (← itemTrees tail)

def memberTrees : List (KeyDatum × Datum) → Except Cause (List (String × Value))
  | [] => .ok []
  | (key, head) :: tail =>
      match key.text? with
      | none => .error .keyNotString
      | some name => do
          let value ← head.tree
          return (name, value) :: (← memberTrees tail)

end

mutual

/-- The value of a datum is its tree with the keys put in order. -/
theorem to_value_eq (datum : Datum) : datum.toValue = datum.tree.map Value.canonical := by
  match datum with
  | .null | .boolean _ | .text _ | .float none | .float (some _) => rfl
  | .integer value =>
      simp only [toValue, tree]
      cases Number.ofInt? value <;> rfl
  | .list items =>
      rw [toValue, tree, item_values_eq items]
      cases itemTrees items <;> rfl
  | .map bindings =>
      rw [toValue, tree, member_values_eq bindings]
      cases memberTrees bindings <;> rfl

theorem item_values_eq (items : List Datum) :
    itemValues items = (itemTrees items).map Value.canonicalItems := by
  match items with
  | [] => rfl
  | head :: tail =>
      rw [itemValues, itemTrees, to_value_eq head, item_values_eq tail]
      cases head.tree with
      | error cause => rfl
      | ok value => cases itemTrees tail <;> rfl

theorem member_values_eq (bindings : List (KeyDatum × Datum)) :
    memberValues bindings = (memberTrees bindings).map Value.canonicalMembers := by
  match bindings with
  | [] => rfl
  | (key, head) :: tail =>
      rw [memberValues, memberTrees, to_value_eq head, member_values_eq tail]
      cases key.text? with
      | none => rfl
      | some name =>
          cases head.tree with
          | error cause => rfl
          | ok value => cases memberTrees tail <;> rfl

end

end Datum

/-! ## Storing -/

namespace Store

theorem set_datum_eq {datum : Datum} {tree : Value} (converted : datum.tree = .ok tree)
    (key : String) : setDatum key datum = setText key tree.storedText := by
  have value : datum.toValue = .ok tree.canonical := by
    rw [Datum.to_value_eq, converted]
    rfl
  rw [setDatum, value]
  rfl

theorem set_eq_set_datum (key : String) (value : Value) :
    set key value = setDatum key (.ofValue value) := by
  rw [setDatum, Datum.to_value_of_value]
  rfl

theorem set_text_found {store : Store} {key text : String}
    (found : store.getRaw key = .ok (some text)) : setText key text store = (.ok (), store) := by
  rw [set_text_run, found]
  exact if_pos rfl

end Store

namespace Fleet

variable {Name : Type} [DecidableEq Name]

def Finds (fleet : Fleet Name) (name : Name) (key : String) (found : Option String) : Prop :=
  ∃ handle, fleet.handles name = some handle ∧
    (Store.mk handle fleet.file).getRaw key = .ok found

theorem step_set_datum {fleet : Fleet Name} {name : Name} {handle : Handle} {key : String}
    {datum : Datum} {result : Except StoreError Unit} {store : Store}
    (named : fleet.handles name = some handle)
    (ran : Store.setDatum key datum ⟨handle, fleet.file⟩ = (result, store)) :
    fleet.step name (.perform (.ask (.setDatum key datum))) =
      (some ((fun _ => .reply .nothing) <$> result),
        fleet.put name (some store.handle) store.file) := by
  simp only [step, named, Operation.action, Request.answer, Attempt.map_run, ran]
  cases result <;> rfl

/-- What becomes of a datum that is set under a key: it is stored as this text. -/
structure StoresAs (fleet : Fleet Name) (key : String) (datum : Datum) (text : String) : Prop where
  /-- Where the text is stored, nothing changes. -/
  kept : ∀ name, fleet.Finds name key (some text) →
    fleet.step name (.perform (.ask (.setDatum key datum))) =
      (some (.ok (.reply .nothing)), fleet)
  /-- Where it is not, it is written, and recorded in the history if a scope is open. The only
  stores that refuse it are those that may not write. -/
  written : ∀ name found, fleet.Finds name key found → found ≠ some text →
    let answered := fleet.step name (.perform (.ask (.setDatum key datum)))
    (answered.1 = some (.ok (.reply .nothing)) ∧ answered.2.Finds name key (some text) ∧
      ∀ revision pending, answered.2.Holds name revision pending →
        pending.history.get? (revision, key) = some (some text)) ∨
    ∃ error handle, answered = (some (.error error), fleet) ∧
      fleet.handles name = some handle ∧ (Store.mk handle fleet.file).Barred

section Written

variable {fleet : Fleet Name} {name : Name} {handle : Handle} {key text : String}
  {found : Option String}

theorem finds_after_set_text {store later : Store} (fleet : Fleet Name) (name : Name)
    (stored : Store.setText key text store = (.ok (), later)) :
    (fleet.put name (some later.handle) later.file).Finds name key (some text) :=
  ⟨later.handle, handles_put_self fleet name _ _, (Store.get_raw_after_set_text stored).1⟩

theorem StoresAs.written_outside {datum : Datum} {tree : Value}
    (converted : datum.tree = .ok tree) (named : fleet.handles name = some handle)
    (outside : handle.Outside) (raw : (Store.mk handle fleet.file).getRaw key = .ok found)
    (different : found ≠ some tree.storedText) :
    let answered := fleet.step name (.perform (.ask (.setDatum key datum)))
    (answered.1 = some (.ok (.reply .nothing)) ∧
      answered.2.Finds name key (some tree.storedText) ∧
      ∀ revision pending, ¬answered.2.Holds name revision pending) ∨
    ∃ error, answered = (some (.error error), fleet) ∧ (Store.mk handle fleet.file).Barred := by
  have sets := Store.set_datum_eq converted key
  have follows := Store.set_text_follows key tree.storedText
  intro answered
  rcases Store.free_or_barred outside fleet.file with free | barred
  · left
    have stored := follows.free ⟨handle, fleet.file⟩ free
    have stepped : answered = _ := step_set_datum named ((congrFun sets _).trans stored)
    rw [stepped]
    refine ⟨rfl, finds_after_set_text fleet name stored, fun revision pending => ?_⟩
    exact (Outside.of_named (handles_put_self fleet name _ _) outside).not_holds
  · right
    have kept := (follows.barred ⟨handle, fleet.file⟩ barred).1
    cases ran : Store.setText key tree.storedText ⟨handle, fleet.file⟩ with
    | mk result later =>
        rw [ran] at kept
        simp only at kept
        subst kept
        cases result with
        | ok done =>
            -- a store that has not changed finds what it has set
            have visible : (Store.mk handle fleet.file).getRaw key =
                .ok (some tree.storedText) := (Store.get_raw_after_set_text ran).1
            rw [raw] at visible
            exact absurd (Except.ok.inj visible) different
        | error error =>
            refine ⟨error, ?_, barred⟩
            have stepped : answered = _ := step_set_datum named ((congrFun sets _).trans ran)
            rw [stepped, put_eq_of_named named]
            rfl

end Written

theorem Reachable.stores_as {fleet : Fleet Name} (reachable : fleet.Reachable) {datum : Datum}
    {tree : Value} (converted : datum.tree = .ok tree) (key : String) :
    fleet.StoresAs key datum tree.storedText where
  kept name finds := by
    obtain ⟨handle, named, raw⟩ := finds
    have ran : Store.setDatum key datum ⟨handle, fleet.file⟩ = (.ok (), ⟨handle, fleet.file⟩) := by
      rw [Store.set_datum_eq converted, Store.set_text_found raw]
    rw [step_set_datum named ran, put_eq_of_named named]
    rfl
  written name found finds different := by
    obtain ⟨handle, named, raw⟩ := finds
    cases reachable.coherent.handles named with
    | closed location readOnly | idle location readOnly =>
        rcases StoresAs.written_outside converted named ⟨rfl, nofun⟩ raw different with
          ⟨answered, finds, outside⟩ | ⟨error, answered, barred⟩
        · exact .inl ⟨answered, finds, fun revision pending holds =>
            absurd holds (outside revision pending)⟩
        · exact .inr ⟨error, _, answered, named, barred⟩
    | @writing location readOnly revision pending opened =>
        left
        have stored := (Store.set_text_follows key tree.storedText).inScope
          ⟨⟨location, readOnly, .idle, none⟩, fleet.file⟩ revision pending opened.known
        have stepped := step_set_datum named
          ((congrFun (Store.set_datum_eq converted key) _).trans stored)
        rw [stepped]
        refine ⟨rfl, finds_after_set_text fleet name stored, fun later written holds => ?_⟩
        obtain ⟨_, _, holder⟩ := holds
        rw [handles_put_self] at holder
        cases holder
        have changed : pending.live.get? key ≠ some tree.storedText := by
          intro present
          have visible : (Store.mk ⟨location, readOnly, .writing pending, some revision⟩
              fleet.file).getRaw key = .ok (pending.live.get? key) := rfl
          rw [visible, present] at raw
          exact different (Except.ok.inj raw).symm
        exact Database.history_assign_changed pending revision changed

/-- Data that are converted to the same tree but for the order of entries are stored as one text,
so where one of them is stored nothing changes when the other one is set. A value is stored as the
datum that it is. -/
theorem Reachable.equal_data_stored_alike {fleet : Fleet Name} (reachable : fleet.Reachable)
    {first second : Datum} {tree other : Value} (firstTree : first.tree = .ok tree)
    (secondTree : second.tree = .ok other) (reordered : tree.Reordered other) (key : String) :
    fleet.StoresAs key first tree.storedText ∧ fleet.StoresAs key second tree.storedText ∧
      ∀ value, Store.set key value = Store.setDatum key (.ofValue value) := by
  have text : tree.storedText = other.storedText := congrArg Value.compact reordered.canonical
  refine ⟨reachable.stores_as firstTree key, ?_, Store.set_eq_set_datum key⟩
  rw [text]
  exact reachable.stores_as secondTree key

def flagKeyed : Datum :=
  .map [(.boolean true, .map [(.text "b", .null), (.character 'a', .text "x")]),
    (.boolean false, .float none)]

def textKeyed : Datum :=
  .map [(.text "false", .null), (.text "true", .map [(.text "a", .text "x"), (.text "b", .null)])]

/-- Two stores on a file in which a datum is stored, the first of which has a scope open. -/
def flagsStored : Fleet Nat :=
  (ofFile .fresh).run
    [(0, .connect .memory false), (1, .connect .memory false),
      (1, .perform (.ask (.setDatum "k" flagKeyed))),
      (0, .perform (.enter (.scope ⟨"install", "today"⟩)))]

/-- Neither in the scope nor against its lock is the datum with the other keys written. -/
theorem flags_set_again :
    ∃ tree other, flagKeyed.tree = .ok tree ∧ textKeyed.tree = .ok other ∧ tree.Reordered other ∧
      ∀ name ∈ [0, 1], flagsStored.step name (.perform (.ask (.setDatum "k" textKeyed))) =
        (some (.ok (.reply .nothing)), flagsStored) := by
  have reordered : (Value.object [("true", .object [("b", .null), ("a", .string "x")]),
      ("false", .null)]).Reordered
        (.object [("false", .null), ("true", .object [("a", .string "x"), ("b", .null)])]) := by
    refine .object (by decide) (.swap _ _ _) (.cons (.same _) (.cons ?_ .nil))
    exact .object (by decide) (.swap _ _ _) (.cons (.same _) (.cons (.same _) .nil))
  have reachable : flagsStored.Reachable :=
    (((Reachable.fresh.step 0 _).step 1 _).step 1 _).step 0 _
  have flagTree : flagKeyed.tree = .ok _ := rfl
  have textTree : textKeyed.tree = .ok _ := rfl
  have stores := (reachable.equal_data_stored_alike flagTree textTree reordered "k").2.1
  refine ⟨_, _, flagTree, textTree, reordered, fun name member => stores.kept name ?_⟩
  rcases List.mem_pair.1 member with rfl | rfl
  · exact ⟨_, rfl, by decide +kernel⟩
  · exact ⟨_, rfl, by decide +kernel⟩

end Fleet

end UnitState
