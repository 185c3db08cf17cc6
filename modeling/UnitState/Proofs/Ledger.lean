import UnitState.Proofs.Coherence

/-!
# The ledger of a run

A ledger is kept from the outside, from what the holders of stores do and what they are
told: the transactions that were committed, in the order of their commits, and the scope
that is open. A write that succeeds outside of a scope is a transaction of its own. A scope
becomes a transaction when its holder commits; a scope that ends otherwise is struck out.
-/

set_option autoImplicit false

namespace UnitState

namespace Store

def performAll (store : Store) (operations : List Operation) : Store :=
  operations.foldl (fun store operation => (operation.action store).2) store

theorem perform_all_append (store : Store) (operations : List Operation) (last : Operation) :
    store.performAll (operations ++ [last]) = (last.action (store.performAll operations)).2 := by
  simp only [performAll, List.foldl_append, List.foldl_cons, List.foldl_nil]

end Store

inductive Transaction where
  | single (operation : Operation)
  /-- A scope: how it was entered, and what was done in it. -/
  | scope (entry : Entry) (operations : List Operation)

namespace Transaction

def inside (entry : Entry) (operations : List Operation) (contents : Database) : Store :=
  (Store.enter entry (.alone contents)).2.performAll operations

/-- The contents after a transaction on contents that nobody else works on. -/
def execute : Transaction → Database → Database
  | single operation, contents => (operation.action (.alone contents)).2.file.contents
  | scope entry operations, contents =>
      (Store.flush true (inside entry operations contents)).2.file.contents

def replay (contents : Database) (transactions : List Transaction) : Database :=
  transactions.foldl (fun contents transaction => transaction.execute contents) contents

theorem replay_append (contents : Database) (transactions : List Transaction)
    (last : Transaction) :
    replay contents (transactions ++ [last]) = last.execute (replay contents transactions) := by
  simp only [replay, List.foldl_append, List.foldl_cons, List.foldl_nil]

theorem execute_single {operation : Operation} (writing : operation.kind = .write)
    (contents : Database) :
    (single operation).execute contents =
      contents.assignAll none (operation.writes contents.live) := by
  obtain ⟨_, _, acted, _⟩ := Operation.write_free writing (Store.alone_free contents)
  simp only [execute, acted]
  rfl

def Reaches (entry : Entry) (operations : List Operation) (contents : Database)
    (revision : Int) (pending : Database) : Prop :=
  inside entry operations contents = (Store.alone contents).locked.inScope revision pending

theorem Reaches.entered {entry : Entry} {contents : Database} {opening : Opening}
    (opens : entry.opening contents = .ok opening) :
    Reaches entry [] contents opening.revision opening.pending := by
  have entered := Store.enter_free (Store.alone_free contents) entry
  have alone : (Store.alone contents).file.contents = contents := rfl
  rw [alone, opens] at entered
  simp only [Reaches, inside, entered]
  rfl

theorem Reaches.performed {entry : Entry} {operations : List Operation} {contents : Database}
    {revision : Int} {pending : Database}
    (reaches : Reaches entry operations contents revision pending) {operation : Operation}
    (stays : operation.kind.ends = false) (known : pending.hooks.contains revision = true) :
    Reaches entry (operations ++ [operation]) contents revision
      (pending.assignAll (some revision) (operation.writes pending.live)) := by
  obtain ⟨answer, _, acted⟩ :=
    Operation.in_scope stays (Store.alone contents).locked revision known
  have before : inside entry operations contents =
      (Store.alone contents).locked.inScope revision pending := reaches
  unfold inside at before
  unfold Reaches inside
  rw [Store.perform_all_append, before, acted]

theorem Reaches.execute {entry : Entry} {operations : List Operation} {contents : Database}
    {revision : Int} {pending : Database}
    (reaches : Reaches entry operations contents revision pending) :
    (scope entry operations).execute contents = pending := by
  have before : inside entry operations contents =
      (Store.alone contents).locked.inScope revision pending := reaches
  simp only [Transaction.execute, before, Store.flush_true_locked (Store.alone_free contents)]
  rfl

end Transaction

structure OpenScope (Name : Type) where
  holder : Name
  /-- What was committed when the scope was opened. -/
  base : Database
  entry : Entry
  operations : List Operation

structure Ledger (Name : Type) where
  committed : List Transaction
  scope : Option (OpenScope Name)

namespace Ledger

variable {Name : Type}

def empty : Ledger Name := ⟨[], none⟩

def noteInside (ledger : Ledger Name) (scope : OpenScope Name) : Fleet.Event → Ledger Name
  | .connect .. => ledger
  | .drop => { ledger with scope := none }
  | .perform operation =>
      match operation.kind with
      | .commit =>
          ⟨ledger.committed ++ [.scope scope.entry scope.operations], none⟩
      | .discard => { ledger with scope := none }
      | .look | .write | .enter =>
          { ledger with
            scope := some { scope with operations := scope.operations ++ [operation] } }

/-- Notes what somebody does who has no scope, and succeeds in. -/
def noteOutside (ledger : Ledger Name) (contents : Database) (name : Name) :
    Fleet.Event → Ledger Name
  | .connect .. | .drop => ledger
  | .perform (.enter entry) => { ledger with scope := some ⟨name, contents, entry, []⟩ }
  | .perform operation =>
      if operation.kind = .write then
        { ledger with committed := ledger.committed ++ [.single operation] }
      else ledger

variable [DecidableEq Name]

/-- Notes an event, what was committed before it, and what its author was told. -/
def note (ledger : Ledger Name) (contents : Database) (name : Name) (event : Fleet.Event) :
    Option (Except StoreError Outcome) → Ledger Name
  | none => ledger
  | some answer =>
      match ledger.scope.filter (·.holder = name), answer with
      -- what fails in a scope is noted too, since it may have written before it failed
      | some scope, _ => ledger.noteInside scope event
      | none, .ok _ => ledger.noteOutside contents name event
      | none, .error _ => ledger

variable {ledger : Ledger Name} {contents : Database} {name : Name} {event : Fleet.Event}

theorem note_inside {scope : OpenScope Name} {answer : Except StoreError Outcome}
    (opened : ledger.scope = some scope) (holder : scope.holder = name) :
    ledger.note contents name event (some answer) = ledger.noteInside scope event := by
  have found : ledger.scope.filter (·.holder = name) = some scope := by
    rw [opened, Option.filter_some_pos]
    exact decide_eq_true holder
  simp only [note, found]

theorem held_by_other (others : ∀ scope, ledger.scope = some scope → scope.holder ≠ name) :
    ledger.scope.filter (·.holder = name) = none := by
  rw [Option.filter_eq_none_iff]
  intro scope found
  simpa using others scope found

theorem note_outside {outcome : Outcome}
    (others : ∀ scope, ledger.scope = some scope → scope.holder ≠ name) :
    ledger.note contents name event (some (.ok outcome)) =
      ledger.noteOutside contents name event := by
  simp only [note, held_by_other others]

theorem note_failure {error : StoreError}
    (others : ∀ scope, ledger.scope = some scope → scope.holder ≠ name) :
    ledger.note contents name event (some (.error error)) = ledger := by
  simp only [note, held_by_other others]

omit [DecidableEq Name] in
theorem note_outside_write {operation : Operation} (writing : operation.kind = .write) :
    ledger.noteOutside contents name (.perform operation) =
      { ledger with committed := ledger.committed ++ [.single operation] } := by
  obtain ⟨request, rfl, _⟩ := Operation.eq_ask_of_write writing
  exact if_pos writing

omit [DecidableEq Name] in
theorem note_outside_silent (unwritten : event.kind ≠ .write) (unentered : event.kind ≠ .enter) :
    ledger.noteOutside contents name event = ledger := by
  cases event with
  | connect | drop => rfl
  | perform operation =>
      cases operation with
      | ask request => exact if_neg unwritten
      | leave ending => exact if_neg unwritten
      | enter entry => exact absurd rfl unentered

theorem note_silent {outcome : Outcome}
    (others : ∀ scope, ledger.scope = some scope → scope.holder ≠ name)
    (unwritten : event.kind ≠ .write) (unentered : event.kind ≠ .enter) :
    ledger.note contents name event (some (.ok outcome)) = ledger := by
  rw [note_outside others, note_outside_silent unwritten unentered]

omit [DecidableEq Name] in
theorem note_inside_stays {scope : OpenScope Name} {operation : Operation}
    (stays : operation.kind.ends = false) :
    ledger.noteInside scope (.perform operation) =
      { ledger with
        scope := some { scope with operations := scope.operations ++ [operation] } } := by
  simp only [noteInside]
  cases kind : operation.kind with
  | look | write | enter => rfl
  | commit | discard => simp [kind, Kind.ends] at stays

omit [DecidableEq Name] in
theorem note_inside_commit {scope : OpenScope Name} (commits : event.kind = .commit) :
    ledger.noteInside scope event =
      ⟨ledger.committed ++ [.scope scope.entry scope.operations], none⟩ := by
  cases event with
  | connect | drop => cases commits
  | perform operation =>
      have kind : operation.kind = .commit := commits
      simp only [noteInside, kind]

omit [DecidableEq Name] in
theorem note_inside_discard {scope : OpenScope Name} (discards : event.kind = .discard) :
    ledger.noteInside scope event = { ledger with scope := none } := by
  cases event with
  | connect => cases discards
  | drop => rfl
  | perform operation =>
      have kind : operation.kind = .discard := discards
      simp only [noteInside, kind]

end Ledger

namespace Fleet

variable {Name : Type} [DecidableEq Name]

def ledger (fleet : Fleet Name) : List (Name × Event) → Ledger Name → Ledger Name
  | [], ledger => ledger
  | (name, event) :: later, ledger =>
      (fleet.step name event).2.ledger later
        (ledger.note fleet.file.contents name event (fleet.step name event).1)

end Fleet

end UnitState
