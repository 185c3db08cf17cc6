import UnitState.Database
import UnitState.Table.Lemmas

/-!
# Writes to the contents of a database

A write says what a key is to have: a text, or nothing. Carrying it out changes the live
text, and records the change if there is a revision to record it under; a key that has
already what it is to have is left alone, in the history too. Writes are the vocabulary in
which the effect of every operation on a store is stated.
-/

set_option autoImplicit false

namespace UnitState

namespace Table

variable {Key Value : Type} [KeyOrder Key]

def change (table : Table Key Value) (key : Key) : Option Value → Table Key Value
  | some value => table.insert key value
  | none => table.erase key

@[simp] theorem get?_change_self (table : Table Key Value) (key : Key)
    (data : Option Value) : (table.change key data).get? key = data := by
  cases data with
  | none => exact get?_erase_self table key
  | some value => exact get?_insert_self table key value

theorem get?_change_of_ne (table : Table Key Value) {key other : Key}
    (data : Option Value) (different : other ≠ key) :
    (table.change key data).get? other = table.get? other := by
  cases data with
  | none => exact get?_erase_of_ne table different
  | some value => exact get?_insert_of_ne table value different

theorem change_present {table : Table Key Value} {key : Key} {data : Option Value}
    (present : table.get? key = data) : table.change key data = table := by
  apply ext_get?
  intro other
  by_cases same : other = key
  · rw [same, get?_change_self, present]
  · exact get?_change_of_ne table data same

theorem contains_insert [DecidableEq Key] (table : Table Key Value) (key other : Key)
    (value : Value) :
    (table.insert key value).contains other = (decide (other = key) || table.contains other) := by
  by_cases same : other = key
  · simp [contains, same]
  · simp [contains, get?_insert_of_ne table value same, same]

end Table

/-- What a key is to have: a text, or nothing. -/
structure Write where
  key : String
  data : Option String
deriving DecidableEq

def Table.changeAll (live : Table String String) (writes : List Write) : Table String String :=
  writes.foldl (fun live write => live.change write.key write.data) live

def Table.Has (live : Table String String) (writes : List Write) : Prop :=
  ∀ write ∈ writes, live.get? write.key = write.data

theorem Table.has_nil (live : Table String String) : live.Has [] := by
  intro write member
  cases member

theorem Table.change_all_present {live : Table String String} {writes : List Write}
    (present : live.Has writes) : live.changeAll writes = live := by
  induction writes with
  | nil => rfl
  | cons write later hypothesis =>
      have first : live.change write.key write.data = live :=
        change_present (present write List.mem_cons_self)
      have rest : live.Has later := fun other member =>
        present other (List.mem_cons_of_mem write member)
      simp only [changeAll, List.foldl_cons, first]
      exact hypothesis rest

/-- No key is to have two different things. -/
def Agreeing (writes : List Write) : Prop :=
  ∀ first ∈ writes, ∀ second ∈ writes, first.key = second.key → first.data = second.data

namespace Agreeing

theorem nil : Agreeing [] := by
  intro first member
  cases member

theorem single (write : Write) : Agreeing [write] := by
  intro first firstMember second secondMember _
  rw [List.mem_singleton.1 firstMember, List.mem_singleton.1 secondMember]

theorem append {writes later : List Write} (first : Agreeing writes) (second : Agreeing later)
    (apart : ∀ write ∈ writes, ∀ other ∈ later, write.key ≠ other.key) :
    Agreeing (writes ++ later) := by
  intro left leftMember right rightMember same
  rcases List.mem_append.1 leftMember with leftFirst | leftSecond
  · rcases List.mem_append.1 rightMember with rightFirst | rightSecond
    · exact first left leftFirst right rightFirst same
    · exact absurd same (apart left leftFirst right rightSecond)
  · rcases List.mem_append.1 rightMember with rightFirst | rightSecond
    · exact absurd same.symm (apart right rightFirst left leftSecond)
    · exact second left leftSecond right rightSecond same

end Agreeing

theorem Table.get?_change_all {live : Table String String} {key : String}
    {data : Option String} {writes : List Write}
    (given : ∀ write ∈ writes, write.key = key → write.data = data)
    (reached : live.get? key = data ∨ ∃ write ∈ writes, write.key = key) :
    (live.changeAll writes).get? key = data := by
  induction writes generalizing live with
  | nil =>
      rcases reached with present | ⟨write, member, _⟩
      · exact present
      · cases member
  | cons write later hypothesis =>
      apply hypothesis fun other member => given other (List.mem_cons_of_mem write member)
      by_cases same : write.key = key
      · left
        rw [← same, get?_change_self]
        exact given write List.mem_cons_self same
      · rw [get?_change_of_ne live write.data (Ne.symm same)]
        refine reached.imp_right fun ⟨other, member, otherKey⟩ => ?_
        rcases List.mem_cons.1 member with equal | laterMember
        · exact absurd (equal ▸ otherKey) same
        · exact ⟨other, laterMember, otherKey⟩

theorem Table.get?_change_all_of_ne {live : Table String String} {writes : List Write}
    {key : String} (apart : ∀ write ∈ writes, write.key ≠ key) :
    (live.changeAll writes).get? key = live.get? key := by
  apply get?_change_all
  · intro write member same
    exact absurd same (apart write member)
  · exact .inl rfl

theorem Table.has_change_all {live : Table String String} {writes : List Write}
    (agreeing : Agreeing writes) : (live.changeAll writes).Has writes := by
  intro write member
  apply get?_change_all
  · intro other otherMember same
    exact agreeing other otherMember write member same
  · exact .inr ⟨write, member, rfl⟩

namespace Database

/-- Carries out a write. A change is recorded under the revision, if there is one. -/
def assign (revision : Option Int) (database : Database) (write : Write) : Database :=
  if database.live.get? write.key = write.data then database
  else
    { database with
      live := database.live.change write.key write.data
      history :=
        match revision with
        | some revision => database.history.insert (revision, write.key) write.data
        | none => database.history }

def assignAll (database : Database) (revision : Option Int) (writes : List Write) : Database :=
  writes.foldl (assign revision) database

section Assign

variable (database : Database) (revision : Option Int) (writes : List Write)

@[simp] theorem hooks_assign (write : Write) :
    (assign revision database write).hooks = database.hooks := by
  unfold assign
  split <;> rfl

@[simp] theorem sequence_assign (write : Write) :
    (assign revision database write).sequence = database.sequence := by
  unfold assign
  split <;> rfl

@[simp] theorem live_assign (write : Write) :
    (assign revision database write).live = database.live.change write.key write.data := by
  unfold assign
  split
  · rename_i present
    exact (Table.change_present present).symm
  · rfl

theorem assign_present {write : Write} (present : database.live.get? write.key = write.data) :
    assign revision database write = database := if_pos present

@[simp] theorem history_assign_unrecorded (write : Write) :
    (assign none database write).history = database.history := by
  unfold assign
  split <;> rfl

theorem history_assign_of_ne (current : Int) {write : Write} {row : Int × String}
    (different : row ≠ (current, write.key)) :
    (assign (some current) database write).history.get? row = database.history.get? row := by
  unfold assign
  split
  · rfl
  · exact Table.get?_insert_of_ne database.history write.data different

theorem history_assign_changed (current : Int) {write : Write}
    (changed : database.live.get? write.key ≠ write.data) :
    (assign (some current) database write).history.get? (current, write.key) =
      some write.data := by
  unfold assign
  rw [if_neg changed]
  exact Table.get?_insert_self database.history (current, write.key) write.data

@[simp] theorem assign_all_nil : database.assignAll revision [] = database := rfl

@[simp] theorem assign_all_cons (write : Write) :
    database.assignAll revision (write :: writes) =
      (assign revision database write).assignAll revision writes := rfl

theorem assign_all_append (later : List Write) :
    database.assignAll revision (writes ++ later) =
      (database.assignAll revision writes).assignAll revision later := by
  simp only [assignAll, List.foldl_append]

@[simp] theorem hooks_assign_all :
    (database.assignAll revision writes).hooks = database.hooks := by
  induction writes generalizing database with
  | nil => rfl
  | cons write later hypothesis => rw [assign_all_cons, hypothesis, hooks_assign]

@[simp] theorem sequence_assign_all :
    (database.assignAll revision writes).sequence = database.sequence := by
  induction writes generalizing database with
  | nil => rfl
  | cons write later hypothesis => rw [assign_all_cons, hypothesis, sequence_assign]

@[simp] theorem live_assign_all :
    (database.assignAll revision writes).live = database.live.changeAll writes := by
  induction writes generalizing database with
  | nil => rfl
  | cons write later hypothesis =>
      rw [assign_all_cons, hypothesis, live_assign]
      rfl

@[simp] theorem history_assign_all_unrecorded :
    (database.assignAll none writes).history = database.history := by
  induction writes generalizing database with
  | nil => rfl
  | cons write later hypothesis =>
      rw [assign_all_cons, hypothesis, history_assign_unrecorded]

theorem assign_all_present {writes : List Write} (present : database.live.Has writes) :
    database.assignAll revision writes = database := by
  induction writes with
  | nil => rfl
  | cons write later hypothesis =>
      rw [assign_all_cons,
        assign_present database revision (present write List.mem_cons_self)]
      exact hypothesis fun other member => present other (List.mem_cons_of_mem write member)

end Assign

theorem history_assign_all_of_ne (database : Database) (current : Int) {row : Int × String}
    {writes : List Write} (apart : ∀ write ∈ writes, row ≠ (current, write.key)) :
    (database.assignAll (some current) writes).history.get? row = database.history.get? row := by
  induction writes generalizing database with
  | nil => rfl
  | cons write later hypothesis =>
      obtain ⟨first, rest⟩ := List.forall_mem_cons.1 apart
      rw [assign_all_cons, hypothesis _ rest]
      exact history_assign_of_ne database current first

theorem history_assign_all_other (database : Database) {current other : Int}
    (different : other ≠ current) (key : String) (writes : List Write) :
    (database.assignAll (some current) writes).history.get? (other, key) =
      database.history.get? (other, key) := by
  apply history_assign_all_of_ne
  intro write _ same
  exact different (congrArg Prod.fst same)

/-- Writes under a revision leave every key either with a row of the revision that holds
its live text, or with both as they were. -/
theorem recorded_or_unchanged (database : Database) (current : Int) (key : String)
    (writes : List Write) :
    let after := database.assignAll (some current) writes
    after.history.get? (current, key) = some (after.live.get? key) ∨
      (after.history.get? (current, key) = database.history.get? (current, key) ∧
        after.live.get? key = database.live.get? key) := by
  induction writes generalizing database with
  | nil => exact .inr ⟨rfl, rfl⟩
  | cons write later hypothesis =>
      simp only [assign_all_cons]
      rcases hypothesis (assign (some current) database write) with recorded | ⟨row, text⟩
      · exact .inl recorded
      · rw [row, text]
        by_cases same : key = write.key
        · subst same
          by_cases present : database.live.get? write.key = write.data
          · rw [assign_present database (some current) present]
            exact .inr ⟨rfl, rfl⟩
          · left
            rw [history_assign_changed database current present, live_assign,
              Table.get?_change_self]
        · right
          constructor
          · apply history_assign_of_ne
            intro equal
            exact same (congrArg Prod.snd equal)
          · rw [live_assign, Table.get?_change_of_ne _ _ same]

/-- Agreeing writes under a revision leave a row of the revision for exactly the keys whose
live text they change, and the row holds the text that the key has in the end. -/
theorem history_assign_all_agreeing (database : Database) (current : Int) (key : String)
    {writes : List Write} (agreeing : Agreeing writes) :
    (database.assignAll (some current) writes).history.get? (current, key) =
      if (database.live.changeAll writes).get? key = database.live.get? key then
        database.history.get? (current, key)
      else some ((database.live.changeAll writes).get? key) := by
  split
  · rename_i unchanged
    have idle : ∀ write ∈ writes, write.key = key → database.live.get? key = write.data := by
      intro write member same
      rw [← unchanged]
      apply Table.get?_change_all
      · intro other otherMember otherKey
        exact agreeing other otherMember write member (otherKey.trans same.symm)
      · exact .inr ⟨write, member, same⟩
    -- since all writes of the key agree, none of them changes it on the way
    clear unchanged agreeing
    induction writes generalizing database with
    | nil => rfl
    | cons write later hypothesis =>
        have laterIdle : ∀ other ∈ later, other.key = key →
            database.live.get? key = other.data :=
          fun other member => idle other (List.mem_cons_of_mem write member)
        rw [assign_all_cons]
        by_cases same : write.key = key
        · have present : database.live.get? write.key = write.data := by
            rw [same]
            exact idle write List.mem_cons_self same
          rw [assign_present database (some current) present]
          exact hypothesis database laterIdle
        · have text : (assign (some current) database write).live.get? key =
              database.live.get? key := by
            rw [live_assign, Table.get?_change_of_ne _ _ (Ne.symm same)]
          rw [hypothesis _ (by rw [text]; exact laterIdle)]
          apply history_assign_of_ne
          intro equal
          exact same (congrArg Prod.snd equal).symm
  · rename_i changed
    rcases recorded_or_unchanged database current key writes with recorded | ⟨_, text⟩
    · rw [recorded, live_assign_all]
    · rw [live_assign_all] at text
      exact absurd text changed

theorem row_assign_all_agreeing (database : Database) (active : Option Int) {writes : List Write}
    (agreeing : Agreeing writes) (revision : Int) (key : String) :
    (database.assignAll active writes).history.get? (revision, key) =
      if active = some revision ∧
          (database.live.changeAll writes).get? key ≠ database.live.get? key then
        some ((database.live.changeAll writes).get? key)
      else database.history.get? (revision, key) := by
  cases active with
  | none => rw [history_assign_all_unrecorded, if_neg fun both => nomatch both.1]
  | some current =>
      by_cases same : current = revision
      · subst same
        rw [history_assign_all_agreeing database current key agreeing]
        simp only [true_and, ne_eq, ite_not]
      · rw [history_assign_all_other database (Ne.symm same),
          if_neg fun both => same (Option.some.inj both.1)]

end Database

end UnitState
