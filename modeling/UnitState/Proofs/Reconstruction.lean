import UnitState.Proofs.ExactHistory
import UnitState.Proofs.KeyHistory

/-!
# Reconstruction of the past

If every write that changes a live text is done under a revision, then the history knows the
live texts of every revision that was ever committed: each key had then what its last row up to
that revision recorded. Scopes that came to nothing leave no rows, and the rows up to the
greatest number in use never change again, so the past reads the same whenever it is asked for.
-/

set_option autoImplicit false

namespace UnitState.Fleet

variable {Name : Type} [DecidableEq Name]

theorem Holds.commit {fleet : Fleet Name} {name : Name} {revision : Int} {pending : Database}
    (holds : fleet.Holds name revision pending) {event : Event} (commits : event.kind = .commit) :
    (fleet.step name event).2.file.contents = pending := by
  obtain ⟨location, readOnly, named⟩ := holds
  cases event with
  | connect | drop => cases commits
  | perform operation =>
      have ends : operation.kind = .commit := commits
      obtain ⟨outcome, acted⟩ := Operation.commit_in_scope ends
        ⟨⟨location, readOnly, .writing pending, some revision⟩, fleet.file⟩ revision pending
      simp only [Store.inScope] at acted
      simp only [step, named]
      rw [acted, file_put]

/-! ## Settled rows -/

theorem Forked.settles {fleet later : Fleet Name} (forked : fleet.Forked) {name : Name}
    {event : Event} {answer : Option (Except StoreError Outcome)}
    (move : fleet.Move name event answer later) :
    fleet.file.contents.sequence ≤ later.file.contents.sequence ∧
      ∀ revision key, revision ≤ fleet.file.contents.sequence →
        later.file.contents.history.get? (revision, key) =
          fleet.file.contents.history.get? (revision, key) := by
  have left := move.leaves
  generalize later.file.contents = contents at left ⊢
  cases left with
  | same => exact ⟨Int.le_refl _, fun _ _ _ => rfl⟩
  | wrote writes =>
      rw [Database.sequence_assign_all, Database.history_assign_all_unrecorded]
      exact ⟨Int.le_refl _, fun _ _ _ => rfl⟩
  | committed holds commits =>
      have branch := forked.branch holds
      have number := branch.number
      have latest := (forked.coherent.opened holds).latest
      constructor
      · omega
      · intro revision key used
        apply branch.history
        omega

/-- The rows up to the greatest number in use are the same ever after, for everybody. -/
theorem Forked.run_settled {fleet : Fleet Name} (forked : fleet.Forked)
    (events : List (Name × Event)) {revision : Int}
    (used : revision ≤ fleet.file.contents.sequence) (name : Name) (key : String) :
    ((fleet.run events).seen name).history.get? (revision, key) =
      fleet.file.contents.history.get? (revision, key) := by
  induction events generalizing fleet with
  | nil =>
      rcases forked.coherent.outside_or_holds name with outside | held
      · rw [run_nil, outside.seen]
      · obtain ⟨active, pending, holds⟩ := held
        have branch := forked.branch holds
        have number := branch.number
        rw [run_nil, holds.seen]
        apply branch.history
        omega
  | cons event later hypothesis =>
      have move := (step_move forked.coherent event.1 event.2).1
      obtain ⟨grown, rows⟩ := forked.settles move
      rw [run_cons, hypothesis (forked.move move) (Int.le_trans used grown)]
      exact rows revision key used

/-! ## Mirrors -/

/-- Whether every write that changes what its author sees is done under a revision. -/
def RecordsAll : Fleet Name → List (Name × Event) → Prop
  | _, [] => True
  | fleet, (name, event) :: later =>
      (event.kind = .write → ((fleet.step name event).2.seen name).live ≠ (fleet.seen name).live →
        (fleet.revision? name).isSome = true) ∧
        (fleet.step name event).2.RecordsAll later

instance RecordsAll.decide : (fleet : Fleet Name) → (events : List (Name × Event)) →
    Decidable (fleet.RecordsAll events)
  | _, [] => .isTrue trivial
  | fleet, (name, event) :: later =>
      have := RecordsAll.decide (fleet.step name event).2 later
      inferInstanceAs (Decidable (_ ∧ _))

theorem RecordsAll.append {fleet : Fleet Name} {events later : List (Name × Event)}
    (recorded : fleet.RecordsAll (events ++ later)) : fleet.RecordsAll events := by
  induction events generalizing fleet with
  | nil => trivial
  | cons event rest hypothesis => exact ⟨recorded.1, hypothesis recorded.2⟩

/-- A fleet whose histories hold the live texts, in the committed contents and in a scope. -/
structure Mirrors (fleet : Fleet Name) : Prop where
  forked : fleet.Forked
  committed : fleet.file.contents.Mirrored
  scopes : ∀ {name revision pending}, fleet.Holds name revision pending → pending.Mirrored

theorem Mirrors.move {fleet later : Fleet Name} (mirrors : fleet.Mirrors) {name : Name}
    {event : Event} {answer : Option (Except StoreError Outcome)}
    (move : fleet.Move name event answer later)
    (recorded : event.kind = .write → (later.seen name).live ≠ (fleet.seen name).live →
      (fleet.revision? name).isSome = true) : later.Mirrors where
  forked := mirrors.forked.move move
  committed := by
    cases move with
    | unanswered | still | entered | inside | discarded | released => exact mirrors.committed
    | connected vacant connects =>
        rw [file_put, (connect_ok connects).2.1]
        exact mirrors.committed
    | committed _ holds => exact mirrors.scopes holds
    | @wrote operation handle outcome named free writing =>
        have outside : fleet.Outside name := .of_free named free
        -- without a revision the write may not have changed anything
        have unchanged : (fleet.file.contents.assignAll none
            (operation.writes fleet.file.contents.live)).live = fleet.file.contents.live := by
          by_contra changed
          have active := recorded writing
          rw [outside.seen, outside.revision, Outside.seen] at active
          · cases active changed
          · exact outside
        intro key
        rw [unchanged, Database.sequence_assign_all, mirrors.committed key]
        apply Database.text_as_of_congr
        intro revision _
        rw [Database.history_assign_all_unrecorded]
  scopes holds := by
    cases (move.continues mirrors.forked.coherent holds).2 with
    | kept held => exact mirrors.scopes held
    | entered _ _ _ opens =>
        exact Entry.opening_mirrored mirrors.committed mirrors.forked.coherent.sound opens
    | performed _ _ held =>
        exact (mirrors.scopes held).assign_all (mirrors.forked.coherent.opened held).latest _

theorem Mirrors.run {fleet : Fleet Name} (mirrors : fleet.Mirrors)
    {events : List (Name × Event)} (recorded : fleet.RecordsAll events) :
    (fleet.run events).Mirrors := by
  induction events generalizing fleet with
  | nil => exact mirrors
  | cons event later hypothesis =>
      have move := (step_move mirrors.forked.coherent event.1 event.2).1
      exact hypothesis (mirrors.move move recorded.1) recorded.2

omit [DecidableEq Name] in
theorem fresh_mirrors : (ofFile .fresh : Fleet Name).Mirrors where
  forked := of_file_forked Database.empty_sound rfl
  committed := Database.empty_mirrored
  scopes := by
    intro name revision pending holds
    obtain ⟨location, readOnly, named⟩ := holds
    cases named

/-! ## Committed scopes -/

theorem CommittedScope.latest {start : Fleet Name} (forked : start.Forked)
    {events : List (Name × Event)} {revision : Int}
    (scope : CommittedScope start events revision) :
    scope.contents.sequence = revision := by
  have coherent := (forked.run (scope.before ++ scope.inside)).coherent
  have active := scope.active.stays scope.inside List.prefix_rfl scope.active.nonempty
  rw [← run_append] at active
  rcases coherent.outside_or_holds scope.holder with outside | held
  · rw [outside.revision] at active
    cases active
  · obtain ⟨number, pending, holds⟩ := held
    rw [holds.revision] at active
    cases active
    rw [contents, untilCommit, run_concat, holds.commit scope.commits]
    exact (coherent.opened holds).latest

/-- The history reconstructs the live texts of every committed revision. -/
theorem history_reconstructs (events : List (Name × Event))
    (recorded : (ofFile .fresh : Fleet Name).RecordsAll events) :
    let fleet := (ofFile .fresh : Fleet Name).run events
    (∀ revision, fleet.file.contents.hooks.contains revision = true →
      Nonempty (CommittedScope (ofFile .fresh : Fleet Name) events revision)) ∧
    (∀ revision (scope : CommittedScope (ofFile .fresh : Fleet Name) events revision) name key,
      (fleet.seen name).textAsOf revision key = scope.contents.live.get? key) ∧
    ∀ name key, (fleet.seen name).live.get? key = (fleet.seen name).lastText key := by
  refine ⟨fun revision known => ?_, fun revision scope name key => ?_, fun name key => ?_⟩
  · obtain ⟨scope, _⟩ := (run_chronicled events).committed revision known
    exact ⟨scope⟩
  · have course : events = scope.untilCommit ++ scope.after := by
      rw [CommittedScope.untilCommit, List.append_assoc]
      exact scope.course
    have start : (ofFile .fresh : Fleet Name).Mirrors := fresh_mirrors
    have mirrors := start.run (course ▸ recorded).append
    have latest := scope.latest start.forked
    have then_live := mirrors.committed key
    rw [← CommittedScope.contents, latest] at then_live
    rw [then_live]
    apply Database.text_as_of_congr
    intro other used
    have settled := mirrors.forked.run_settled scope.after (latest ▸ used) name key
    rw [← run_append, ← course] at settled
    exact settled
  · have mirrors := fresh_mirrors.run recorded
    rcases mirrors.forked.coherent.outside_or_holds name with outside | held
    · rw [outside.seen, ← mirrors.forked.coherent.sound.text_as_of_sequence]
      exact mirrors.committed key
    · obtain ⟨revision, pending, holds⟩ := held
      rw [holds.seen, ← (mirrors.forked.coherent.opened holds).sound.text_as_of_sequence]
      exact mirrors.scopes holds key

/-- A scope that is committed, one that is rolled back, one that is detached and committed by a
flush, and a removal outside of a scope that finds nothing to remove. -/
def threeScopes : List (Nat × Event) :=
  [(0, .connect .memory false), (0, .perform (.enter (.scope ⟨"install", "today"⟩))),
    (0, .perform (.ask (.set "mode" (.bool true)))), (0, .perform (.leave .commit)),
    (0, .perform (.enter (.scope ⟨"start", "today"⟩))),
    (0, .perform (.ask (.unset "mode"))), (0, .perform (.leave .rollback)),
    (0, .perform (.enter (.scope ⟨"stop", "today"⟩))),
    (0, .perform (.ask (.unset "mode"))), (0, .perform (.leave .detach)),
    (0, .perform (.ask (.flush true))), (0, .perform (.ask (.unset "mode")))]

theorem three_scopes_reconstructed :
    (ofFile .fresh : Fleet Nat).RecordsAll threeScopes ∧
      ∀ name key, (((ofFile .fresh : Fleet Nat).run threeScopes).seen name).live.get? key =
        (((ofFile .fresh : Fleet Nat).run threeScopes).seen name).lastText key :=
  ⟨by decide, (history_reconstructs threeScopes (by decide)).2.2⟩

end UnitState.Fleet
