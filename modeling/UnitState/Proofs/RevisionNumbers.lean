import Mathlib.Data.List.Sort
import UnitState.Proofs.AllOrNothing
import UnitState.Proofs.ExactHistory

/-!
# Numbers of revisions

The revisions of a new file are numbered without gaps. The scopes that are committed have the
numbers from one on, in the order of their commits, and every scope that is open has the number
after them: a scope that comes to nothing gives its number back.
-/

set_option autoImplicit false

namespace UnitState

theorem Table.keys_eq {Value : Type} {table : Table Int Value} {keys : List Int}
    (increasing : keys.Pairwise (· < ·))
    (same : ∀ key, table.contains key = true ↔ key ∈ keys) : table.keys = keys := by
  have ordered : table.keys.Pairwise (· < ·) :=
    List.pairwise_map.2 (table.increasing.imp fun order => of_decide_eq_true order)
  apply ordered.eq_of_mem_iff increasing
  intro key
  rw [mem_keys_iff, same]

/-- Whether there is a hook for every number from one to the greatest in use, and no other. -/
structure Database.Gapless (contents : Database) : Prop where
  nonneg : 0 ≤ contents.sequence
  known : ∀ revision,
    contents.hooks.contains revision = true ↔ 1 ≤ revision ∧ revision ≤ contents.sequence

namespace Database

theorem empty_gapless : Gapless empty where
  nonneg := Int.le_refl 0
  known revision := by
    constructor
    · intro known
      cases known
    · intro between
      have greatest : empty.sequence = 0 := rfl
      omega

theorem Gapless.commit {contents pending : Database} {revision : Int}
    (gapless : contents.Gapless) (branch : contents.Branch revision pending)
    (latest : pending.sequence = revision) : pending.Gapless where
  nonneg := by
    have nonneg := gapless.nonneg
    have number := branch.number
    omega
  known other := by
    have number := branch.number
    have nonneg := gapless.nonneg
    rw [branch.hooks, gapless.known, latest]
    omega

end Database

namespace Fleet

variable {Name : Type} [DecidableEq Name]

def committed? (fleet : Fleet Name) (name : Name) (event : Event) : Option Int :=
  if event.kind = .commit then fleet.revision? name else none

/-- The revisions that are committed in a run, in the order of their commits. -/
def commits : Fleet Name → List (Name × Event) → List Int
  | _, [] => []
  | fleet, (name, event) :: later =>
      (fleet.committed? name event).toList ++ (fleet.step name event).2.commits later

omit [DecidableEq Name] in
theorem committed_of_kind_ne {fleet : Fleet Name} {name : Name} {event : Event}
    (other : event.kind ≠ .commit) : fleet.committed? name event = none := if_neg other

omit [DecidableEq Name] in
theorem committed_outside {fleet : Fleet Name} {name : Name} {event : Event}
    (outside : fleet.Outside name) : fleet.committed? name event = none := by
  rw [committed?, outside.revision, ite_self]

theorem committed_unanswered {fleet : Fleet Name} {name : Name} {event : Event}
    (silent : (fleet.step name event).1 = none) : fleet.committed? name event = none := by
  cases event with
  | connect | drop => exact committed_of_kind_ne nofun
  | perform operation =>
      cases named : fleet.handles name with
      | none => exact committed_outside (.of_vacant named)
      | some handle => simp [step, named] at silent

/-- What an event does to the numbers in use: a commit brings the next one into use, and nothing
else does. -/
theorem Forked.numbers {fleet later : Fleet Name} (forked : fleet.Forked) {name : Name}
    {event : Event} {answer : Option (Except StoreError Outcome)}
    (move : fleet.Move name event answer later)
    (silent : answer = none → fleet.committed? name event = none)
    (gapless : fleet.file.contents.Gapless) :
    later.file.contents.Gapless ∧
      ((fleet.committed? name event = none ∧
        later.file.contents.sequence = fleet.file.contents.sequence) ∨
      (fleet.committed? name event = some (fleet.file.contents.sequence + 1) ∧
        later.file.contents.sequence = fleet.file.contents.sequence + 1)) := by
  cases move with
  | unanswered => exact ⟨gapless, .inl ⟨silent rfl, rfl⟩⟩
  | still outside => exact ⟨gapless, .inl ⟨committed_outside outside, rfl⟩⟩
  | connected vacant connects =>
      rw [file_put, (connect_ok connects).2.1]
      exact ⟨gapless, .inl ⟨committed_outside (.of_vacant vacant), rfl⟩⟩
  | wrote named free writing =>
      refine ⟨⟨?_, ?_⟩, .inl ⟨committed_outside (.of_free named free), ?_⟩⟩
      · rw [Database.sequence_assign_all]
        exact gapless.nonneg
      · rw [Database.sequence_assign_all, Database.hooks_assign_all]
        exact gapless.known
      · rw [Database.sequence_assign_all]
  | entered named free =>
      exact ⟨gapless, .inl ⟨committed_outside (.of_free named free), rfl⟩⟩
  | @inside operation _ _ _ _ _ named opened stays =>
      have uncommitted : (Event.perform operation).kind ≠ .commit := by
        intro commits
        have ends : operation.kind = .commit := commits
        rw [ends] at stays
        cases stays
      exact ⟨gapless, .inl ⟨committed_of_kind_ne uncommitted, rfl⟩⟩
  | committed named holds opened commits =>
      have branch := forked.branch holds
      have number := branch.number
      refine ⟨gapless.commit branch opened.latest, .inr ⟨?_, ?_⟩⟩
      · rw [committed?, if_pos commits, holds.revision, number]
      · rw [file_put, opened.latest, number]
  | discarded named holds discards =>
      have uncommitted : event.kind ≠ .commit := by
        rw [discards]
        exact nofun
      exact ⟨gapless, .inl ⟨committed_of_kind_ne uncommitted, rfl⟩⟩
  | released named outside =>
      exact ⟨gapless, .inl ⟨committed_outside (.of_named named outside), rfl⟩⟩

/-- In a run the numbers are given without gaps, from the first that is not in use. -/
theorem Forked.run_numbers {fleet : Fleet Name} (forked : fleet.Forked)
    (gapless : fleet.file.contents.Gapless) {used : Nat}
    (sequence : fleet.file.contents.sequence = used) (events : List (Name × Event)) :
    (fleet.run events).file.contents.Gapless ∧
      (fleet.run events).file.contents.sequence = (used + (fleet.commits events).length : Nat) ∧
        fleet.commits events =
          (List.range' (used + 1) (fleet.commits events).length).map Int.ofNat := by
  induction events generalizing fleet used with
  | nil => exact ⟨gapless, sequence, rfl⟩
  | cons event later hypothesis =>
      have move := (step_move forked.coherent event.1 event.2).1
      obtain ⟨stillGapless, numbers⟩ := forked.numbers move committed_unanswered gapless
      rcases numbers with ⟨uncommitted, kept⟩ | ⟨committed, next⟩
      · have rest := hypothesis (forked.move move) stillGapless (kept.trans sequence)
        simp only [run_cons, commits, uncommitted, Option.toList_none, List.nil_append]
        exact rest
      · have number : ((used + 1 : Nat) : Int) = used + 1 := Int.natCast_succ used
        rw [sequence, ← number] at committed next
        obtain ⟨after, count, order⟩ := hypothesis (forked.move move) stillGapless next
        simp only [run_cons, commits, committed, Option.toList_some, List.singleton_append,
          List.length_cons, List.range'_succ, List.map_cons]
        refine ⟨after, ?_, ?_⟩
        · rw [count]
          omega
        · exact congrArg₂ List.cons rfl order

/-- What a run on a new file says about the numbers of its revisions. -/
structure Numbered (fleet : Fleet Name) (commits : List Int) : Prop where
  /-- The scopes that are committed are numbered from one on, in the order of their commits. -/
  order : commits = (List.range' 1 commits.length).map Int.ofNat
  /-- There is a hook for each of them, and no other. -/
  hooks : fleet.file.contents.hooks.keys = commits
  /-- A scope that is entered gets the number after them. -/
  entered : ∀ name entry revision changes,
    (fleet.step name (.perform (.enter entry))).1 = some (.ok (.entered revision changes)) →
      revision = commits.length + 1
  /-- A scope that is open has the number after them, so that the number of a scope that comes
  to nothing is given to the next one. -/
  active : ∀ name revision pending, fleet.Holds name revision pending →
    revision = commits.length + 1

theorem step_entered {fleet : Fleet Name} {name : Name} {entry : Entry} {revision : Int}
    {changes : HookChanges} (entered :
      (fleet.step name (.perform (.enter entry))).1 = some (.ok (.entered revision changes))) :
    revision = fleet.file.contents.sequence + 1 := by
  cases named : fleet.handles name with
  | none => simp [step, named] at entered
  | some handle =>
      simp only [step, named, Operation.action, Attempt.map_run, Option.some.injEq] at entered
      rcases Store.enter_cases entry ⟨handle, fleet.file⟩ with
        ⟨error, refused⟩ | ⟨_, opening, opens, success⟩
      · rw [refused] at entered
        cases entered
      · rw [success] at entered
        cases entered
        exact (Entry.opening_ok opens).1

theorem run_numbered (events : List (Name × Event)) :
    ((ofFile .fresh : Fleet Name).run events).Numbered
      ((ofFile .fresh : Fleet Name).commits events) := by
  have start : (ofFile .fresh : Fleet Name).Forked := of_file_forked Database.empty_sound rfl
  obtain ⟨gapless, sequence, order⟩ := start.run_numbers Database.empty_gapless rfl events
  rw [Nat.zero_add] at sequence order
  have forked := start.run events
  constructor
  · exact order
  · rw [order]
    apply Table.keys_eq
    · apply List.pairwise_map.2
      apply (List.pairwise_lt_range' 1 Nat.one_pos).imp
      exact Int.ofNat_lt.2
    · intro revision
      rw [gapless.known, sequence]
      simp only [List.mem_map, List.mem_range'_1]
      constructor
      · intro between
        refine ⟨revision.toNat, ⟨?_, ?_⟩, Int.toNat_of_nonneg ?_⟩ <;> omega
      · intro listed
        obtain ⟨number, bounds, rfl⟩ := listed
        simp only [Int.ofNat_eq_natCast]
        omega
  · intro name entry revision changes entered
    rw [step_entered entered, sequence]
  · intro name revision pending holds
    rw [(forked.branch holds).number, sequence]

end Fleet

end UnitState
