import UnitState.Proofs.Coherence

/-!
# Branches

The contents of a scope are a branch of the committed ones: they have one revision more, and
whatever was recorded under another revision is the same in both. So the rows of a revision
that was committed are the same ever after, in the committed contents and in every scope.
-/

set_option autoImplicit false

namespace UnitState

/-- The contents of a scope with this revision, in comparison with the committed ones. -/
structure Database.Branch (contents : Database) (revision : Int) (pending : Database) : Prop where
  number : revision = contents.sequence + 1
  hooks : ∀ other, pending.hooks.contains other = true ↔
    other = revision ∨ contents.hooks.contains other = true
  history : ∀ other key, other ≠ revision →
    pending.history.get? (other, key) = contents.history.get? (other, key)

namespace Database

theorem Branch.assign_all {contents pending : Database} {revision : Int}
    (branch : contents.Branch revision pending) (writes : List Write) :
    contents.Branch revision (pending.assignAll (some revision) writes) where
  number := branch.number
  hooks other := by
    rw [hooks_assign_all]
    exact branch.hooks other
  history other key different := by
    rw [history_assign_all_other pending different]
    exact branch.history other key different

theorem revised_branch (contents : Database) (row : HookRow) :
    contents.Branch (contents.sequence + 1) (contents.revised row) where
  number := rfl
  hooks other := by
    simp only [revised, Table.contains_insert, Bool.or_eq_true, decide_eq_true_eq]
  history _ _ _ := rfl

theorem Sound.committed_ne {contents pending : Database} (sound : contents.Sound)
    {revision committed : Int} (branch : contents.Branch revision pending)
    (known : contents.hooks.contains committed = true) : committed ≠ revision := by
  have bound := sound.bounded committed known
  have number := branch.number
  omega

theorem Sound.unrecorded {contents : Database} (sound : contents.Sound) (key : String) :
    contents.history.get? (contents.sequence + 1, key) = none := by
  cases found : contents.history.get? (contents.sequence + 1, key) with
  | none => rfl
  | some data =>
      have known := sound.recorded _ key data found
      have bound := sound.bounded _ known
      omega

end Database

theorem Entry.opening_branch {entry : Entry} {contents : Database} {opening : Opening}
    (success : entry.opening contents = .ok opening) :
    contents.Branch opening.revision opening.pending := by
  obtain ⟨number, pending⟩ := Entry.opening_ok success
  rw [pending, number]
  exact (contents.revised_branch entry.row).assign_all (entry.writes contents.live)

namespace Fleet

variable {Name : Type} [DecidableEq Name]

/-- A coherent fleet in which every scope is a branch of the committed contents. -/
structure Forked (fleet : Fleet Name) : Prop where
  coherent : fleet.Coherent
  branch : ∀ {name revision pending}, fleet.Holds name revision pending →
    fleet.file.contents.Branch revision pending

theorem Forked.move {fleet later : Fleet Name} (forked : fleet.Forked) {name : Name}
    {event : Event} {answer : Option (Except StoreError Outcome)}
    (move : fleet.Move name event answer later) : later.Forked where
  coherent := forked.coherent.move move
  branch holds := by
    obtain ⟨contents, continued⟩ := move.continues forked.coherent holds
    rw [contents]
    cases continued with
    | kept held => exact forked.branch held
    | entered _ _ _ opens number => exact number ▸ Entry.opening_branch opens
    | performed _ _ held => exact (forked.branch held).assign_all _

omit [DecidableEq Name] in
theorem of_file_forked {file : DatabaseFile} (sound : file.contents.Sound)
    (unlocked : file.locked = false) : (ofFile file : Fleet Name).Forked where
  coherent := of_file_coherent sound unlocked
  branch := by
    intro name revision pending holds
    obtain ⟨location, readOnly, named⟩ := holds
    cases named

theorem Forked.keeps {fleet later : Fleet Name} (forked : fleet.Forked) {name : Name}
    {event : Event} {answer : Option (Except StoreError Outcome)}
    (move : fleet.Move name event answer later) {revision : Int}
    (known : fleet.file.contents.hooks.contains revision = true) :
    later.file.contents.hooks.contains revision = true ∧
      ∀ key, later.file.contents.history.get? (revision, key) =
        fleet.file.contents.history.get? (revision, key) := by
  have left := move.leaves
  generalize later.file.contents = contents at left ⊢
  cases left with
  | same => exact ⟨known, fun _ => rfl⟩
  | wrote writes =>
      rw [Database.hooks_assign_all, Database.history_assign_all_unrecorded]
      exact ⟨known, fun _ => rfl⟩
  | committed holds commits =>
      have branch := forked.branch holds
      have different := forked.coherent.sound.committed_ne branch known
      exact ⟨(branch.hooks revision).2 (.inr known),
        fun key => branch.history revision key different⟩

theorem Forked.run {fleet : Fleet Name} (forked : fleet.Forked)
    (events : List (Name × Event)) : (fleet.run events).Forked := by
  induction events generalizing fleet with
  | nil => exact forked
  | cons event later hypothesis =>
      exact hypothesis (forked.move (step_move forked.coherent event.1 event.2).1)

/-- Whatever is done after a revision was committed, its rows are the same in the committed
contents and in every scope. -/
theorem Forked.run_keeps {fleet : Fleet Name} (forked : fleet.Forked) {revision : Int}
    (known : fleet.file.contents.hooks.contains revision = true)
    (events : List (Name × Event)) (key : String) :
    ((fleet.run events).file.contents.history.get? (revision, key) =
      fleet.file.contents.history.get? (revision, key)) ∧
    ∀ {holder active pending}, (fleet.run events).Holds holder active pending →
      pending.history.get? (revision, key) = fleet.file.contents.history.get? (revision, key) := by
  induction events generalizing fleet with
  | nil =>
      refine ⟨rfl, fun holds => ?_⟩
      have branch := forked.branch holds
      exact branch.history revision key (forked.coherent.sound.committed_ne branch known)
  | cons event later hypothesis =>
      have move := (step_move forked.coherent event.1 event.2).1
      obtain ⟨stillKnown, rows⟩ := forked.keeps move known
      have rest := hypothesis (forked.move move) stillKnown
      rw [rows] at rest
      exact rest

end Fleet

end UnitState
