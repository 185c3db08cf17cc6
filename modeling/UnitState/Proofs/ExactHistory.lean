import Mathlib.Data.List.Induction
import UnitState.Proofs.Branches

/-!
# Exact history

A committed revision has a history row for a key exactly if something that was done in its
scope changed the text of the key, and the row holds the text with which the scope was
committed. The scope is found in the course of events: it begins where the revision becomes
active for its holder, goes on as long as it is, and ends with the commit. A number that was
used before by a scope that came to nothing counts for nothing.
-/

set_option autoImplicit false

namespace UnitState

/-- Under this revision there is a row for a changed key, with its live text, and none for
any other. -/
def Database.Exact (database : Database) (revision : Int) (key : String) (changed : Prop) :
    Prop :=
  (changed ∧ database.history.get? (revision, key) = some (database.live.get? key)) ∨
    (¬changed ∧ database.history.get? (revision, key) = none)

namespace Database

theorem Exact.congr {database : Database} {revision : Int} {key : String} {changed other : Prop}
    (rows : database.Exact revision key changed) (same : changed ↔ other) :
    database.Exact revision key other := by
  rw [Exact, ← same]
  exact rows

theorem Exact.recorded_iff {database : Database} {revision : Int} {key : String}
    {changed : Prop} (rows : database.Exact revision key changed) :
    (∃ data, database.history.get? (revision, key) = some data) ↔ changed := by
  rcases rows with ⟨did, row⟩ | ⟨did, row⟩
  · exact iff_of_true ⟨_, row⟩ did
  · refine iff_of_false ?_ did
    intro recorded
    obtain ⟨data, found⟩ := recorded
    rw [row] at found
    cases found

theorem Exact.data_eq {database : Database} {revision : Int} {key : String} {changed : Prop}
    (rows : database.Exact revision key changed) {data : Option String}
    (found : database.history.get? (revision, key) = some data) :
    data = database.live.get? key := by
  rcases rows with ⟨_, row⟩ | ⟨_, row⟩
  · rw [row] at found
    exact (Option.some.inj found).symm
  · rw [row] at found
    cases found

theorem Exact.assign_all {database : Database} {revision : Int} {key : String} {changed : Prop}
    (rows : database.Exact revision key changed) {writes : List Write}
    (agreeing : Agreeing writes) :
    (database.assignAll (some revision) writes).Exact revision key
      (changed ∨ (database.live.changeAll writes).get? key ≠ database.live.get? key) := by
  have row := history_assign_all_agreeing database revision key agreeing
  unfold Exact
  rw [row, live_assign_all]
  by_cases unchanged : (database.live.changeAll writes).get? key = database.live.get? key
  · rw [if_pos unchanged, unchanged]
    simpa only [Exact, ne_eq, not_true_eq_false, or_false] using rows
  · rw [if_neg unchanged]
    exact .inl ⟨.inr unchanged, rfl⟩

end Database

/-- When a scope is entered, its rows are those of the keys that the bookkeeping changes. -/
theorem Entry.opening_exact {entry : Entry} {contents : Database} {opening : Opening}
    (sound : contents.Sound) (success : entry.opening contents = .ok opening) (key : String) :
    opening.pending.Exact opening.revision key
      (opening.pending.live.get? key ≠ contents.live.get? key) := by
  obtain ⟨number, pending⟩ := Entry.opening_ok success
  have before : (contents.revised entry.row).Exact opening.revision key False := by
    refine .inr ⟨not_false, ?_⟩
    rw [number]
    exact sound.unrecorded key
  have after := before.assign_all (entry.writes_agreeing contents.live)
  rw [← pending] at after
  apply after.congr
  rw [pending, Database.live_assign_all, false_or]
  exact Iff.rfl

namespace Fleet

variable {Name : Type} [DecidableEq Name]

def revision? (fleet : Fleet Name) (name : Name) : Option Int :=
  (fleet.handles name).bind (·.revision)

/-- Whether an event changes what its author sees under a key. -/
def Changes (fleet : Fleet Name) (name : Name) (event : Event) (key : String) : Prop :=
  ((fleet.step name event).2.seen name).live.get? key ≠ (fleet.seen name).live.get? key

def ChangesIn (fleet : Fleet Name) (events : List (Name × Event)) (holder : Name)
    (key : String) : Prop :=
  ∃ before event, before ++ [(holder, event)] <+: events ∧
    (fleet.run before).Changes holder event key

/-- Whether a revision becomes active for a holder with the first of the events, and stays
active in all of them. -/
structure Active (fleet : Fleet Name) (events : List (Name × Event)) (holder : Name)
    (revision : Int) : Prop where
  begins : fleet.revision? holder ≠ some revision
  nonempty : events ≠ []
  stays : ∀ first, first <+: events → first ≠ [] →
    (fleet.run first).revision? holder = some revision

omit [DecidableEq Name] in
theorem Holds.revision {fleet : Fleet Name} {name : Name} {revision : Int} {pending : Database}
    (holds : fleet.Holds name revision pending) : fleet.revision? name = some revision := by
  obtain ⟨location, readOnly, named⟩ := holds
  simp only [revision?, named, Option.bind_some]

omit [DecidableEq Name] in
theorem Outside.revision {fleet : Fleet Name} {name : Name} (outside : fleet.Outside name) :
    fleet.revision? name = none := by
  cases named : fleet.handles name with
  | none => simp only [revision?, named, Option.bind_none]
  | some handle => simp only [revision?, named, Option.bind_some, (outside handle named).revision]

theorem run_concat (fleet : Fleet Name) (events : List (Name × Event)) (last : Name × Event) :
    fleet.run (events ++ [last]) = ((fleet.run events).step last.1 last.2).2 := by
  rw [run_append]
  rfl

theorem changes_in_concat {fleet : Fleet Name} {events : List (Name × Event)} {name : Name}
    {event : Event} {holder : Name} {key : String} :
    fleet.ChangesIn (events ++ [(name, event)]) holder key ↔
      fleet.ChangesIn events holder key ∨
        (holder = name ∧ (fleet.run events).Changes name event key) := by
  constructor
  · intro changed
    obtain ⟨before, other, first, changes⟩ := changed
    rcases List.prefix_concat_iff.1 first with whole | earlier
    · obtain ⟨rfl, same⟩ := List.append_singleton_inj.1 whole
      cases same
      exact .inr ⟨rfl, changes⟩
    · exact .inl ⟨before, other, earlier, changes⟩
  · intro changed
    obtain ⟨before, other, first, changes⟩ | ⟨rfl, changes⟩ := changed
    · exact ⟨before, other, first.trans (List.prefix_append _ _), changes⟩
    · exact ⟨events, event, List.prefix_rfl, changes⟩

theorem not_changes_in_nil {fleet : Fleet Name} {holder : Name} {key : String} :
    ¬fleet.ChangesIn [] holder key := by
  intro changed
  obtain ⟨before, event, first, _⟩ := changed
  simp at first

theorem changes_in_single {fleet : Fleet Name} {name : Name} {event : Event} {key : String} :
    fleet.ChangesIn [(name, event)] name key ↔ fleet.Changes name event key := by
  have concat : fleet.ChangesIn ([] ++ [(name, event)]) name key ↔ _ := changes_in_concat
  rw [List.nil_append] at concat
  rw [concat, run_nil]
  simp only [not_changes_in_nil, false_or, true_and]

theorem Holds.changes {fleet : Fleet Name} {name : Name} {event : Event} {revision : Int}
    {pending : Database} (holds : (fleet.step name event).2.Holds name revision pending)
    (key : String) :
    fleet.Changes name event key ↔
      pending.live.get? key ≠ (fleet.seen name).live.get? key := by
  rw [Changes, holds.seen]

theorem Active.single {fleet : Fleet Name} {name : Name} {event : Event} {revision : Int}
    (begins : fleet.revision? name ≠ some revision)
    (active : (fleet.step name event).2.revision? name = some revision) :
    fleet.Active [(name, event)] name revision where
  begins := begins
  nonempty := List.cons_ne_nil _ _
  stays first within nonempty := by
    have whole : first = [(name, event)] := by
      have concat : first <+: [] ++ [(name, event)] := within
      rcases List.prefix_concat_iff.1 concat with whole | none
      · exact whole
      · exact absurd (List.prefix_nil.1 none) nonempty
    rw [whole]
    exact active

theorem Active.concat {fleet : Fleet Name} {events : List (Name × Event)} {holder : Name}
    {revision : Int} (active : fleet.Active events holder revision) {last : Name × Event}
    (stays : (fleet.run (events ++ [last])).revision? holder = some revision) :
    fleet.Active (events ++ [last]) holder revision where
  begins := active.begins
  nonempty := by simp
  stays first within nonempty := by
    rcases List.prefix_concat_iff.1 within with whole | earlier
    · rw [whole]
      exact stays
    · exact active.stays first earlier nonempty

def Told (start : Fleet Name) (events : List (Name × Event)) (holder : Name) (revision : Int)
    (pending : Database) : Prop :=
  ∃ before inside, events = before ++ inside ∧
    (start.run before).Active inside holder revision ∧
      ∀ key, pending.Exact revision key ((start.run before).ChangesIn inside holder key)

/-- A scope that stays open, and whose contents change by what its holder does. -/
theorem Told.concat {start : Fleet Name} {events : List (Name × Event)} {holder name : Name}
    {event : Event} {revision : Int} {pending later : Database}
    (told : Told start events holder revision pending)
    (stays : (start.run (events ++ [(name, event)])).revision? holder = some revision)
    (rows : ∀ key changed, pending.Exact revision key changed →
      later.Exact revision key
        (changed ∨ (holder = name ∧ (start.run events).Changes name event key))) :
    Told start (events ++ [(name, event)]) holder revision later := by
  obtain ⟨before, inside, rfl, active, told⟩ := told
  have whole : (start.run before).run inside = start.run (before ++ inside) :=
    (run_append start before inside).symm
  refine ⟨before, inside ++ [(name, event)], List.append_assoc _ _ _, ?_, fun key => ?_⟩
  · apply active.concat
    rw [← run_append, ← List.append_assoc]
    exact stays
  · apply (rows key _ (told key)).congr
    rw [changes_in_concat, whole]

theorem Told.step {start : Fleet Name} {events : List (Name × Event)}
    (forked : (start.run events).Forked)
    (told : ∀ holder revision pending, (start.run events).Holds holder revision pending →
      Told start events holder revision pending)
    {name holder : Name} {event : Event} {revision : Int} {pending : Database}
    (holds : ((start.run events).step name event).2.Holds holder revision pending) :
    Told start (events ++ [(name, event)]) holder revision pending := by
  have stays : (start.run (events ++ [(name, event)])).revision? holder = some revision := by
    rw [run_concat]
    exact holds.revision
  have move := (step_move forked.coherent name event).1
  cases (move.continues forked.coherent holds).2 with
  | kept held idle =>
      apply (told holder revision pending held).concat stays
      intro key changed rows
      apply rows.congr
      -- a holder who acts here sees afterwards what it saw before
      have calm : ¬(holder = name ∧ (start.run events).Changes name event key) := by
        intro acting
        apply acting.2
        rw [idle acting.1]
      exact (or_iff_left calm).symm
  | entered acts enters outside opens number =>
      subst acts
      refine ⟨events, [(holder, event)], rfl, ?_, fun key => ?_⟩
      · apply Active.single
        · rw [outside.revision]
          exact nofun
        · exact holds.revision
      · rw [← number]
        apply (Entry.opening_exact forked.coherent.sound opens key).congr
        rw [changes_in_single, holds.changes, outside.seen]
  | performed acts performs held =>
      subst acts performs
      apply (told holder revision _ held).concat stays
      intro key changed rows
      apply (rows.assign_all (Operation.writes_agreeing _ _)).congr
      rw [holds.changes, held.seen, Database.live_assign_all]
      simp only [true_and]

/-- The course of a scope that was committed: what came before it, what was done from its
opening on, by its holder and by others, and the event by which its holder committed. -/
structure CommittedScope (start : Fleet Name) (events : List (Name × Event))
    (revision : Int) where
  before : List (Name × Event)
  inside : List (Name × Event)
  holder : Name
  closing : Event
  after : List (Name × Event)
  course : events = before ++ inside ++ (holder, closing) :: after
  active : (start.run before).Active inside holder revision
  commits : closing.kind = .commit

namespace CommittedScope

variable {start : Fleet Name} {events : List (Name × Event)} {revision : Int}

def untilCommit (scope : CommittedScope start events revision) : List (Name × Event) :=
  scope.before ++ scope.inside ++ [(scope.holder, scope.closing)]

def contents (scope : CommittedScope start events revision) : Database :=
  (start.run scope.untilCommit).file.contents

def Changed (scope : CommittedScope start events revision) (key : String) : Prop :=
  (start.run scope.before).ChangesIn scope.inside scope.holder key

def concat (scope : CommittedScope start events revision) (last : Name × Event) :
    CommittedScope start (events ++ [last]) revision :=
  { scope with
    after := scope.after ++ [last]
    course := by
      have longer := congrArg (· ++ [last]) scope.course
      simpa only [List.append_assoc, List.cons_append] using longer }

end CommittedScope

structure Chronicled (start : Fleet Name) (events : List (Name × Event)) : Prop where
  forked : (start.run events).Forked
  opened : ∀ holder revision pending, (start.run events).Holds holder revision pending →
    Told start events holder revision pending
  committed : ∀ revision, (start.run events).file.contents.hooks.contains revision = true →
    ∃ scope : CommittedScope start events revision,
      scope.contents.hooks.contains revision = true ∧
        ∀ key, scope.contents.Exact revision key (scope.Changed key)

theorem Chronicled.step {start : Fleet Name} {events : List (Name × Event)}
    (chronicled : Chronicled start events) (name : Name) (event : Event) :
    Chronicled start (events ++ [(name, event)]) := by
  have forked := chronicled.forked
  have move := (step_move forked.coherent name event).1
  refine ⟨?_, ?_, fun revision known => ?_⟩
  · rw [run_concat]
    exact forked.move move
  · intro holder revision pending holds
    rw [run_concat] at holds
    exact Told.step forked chronicled.opened holds
  · rw [run_concat] at known
    have earlier : (start.run events).file.contents.hooks.contains revision = true →
        ∃ scope : CommittedScope start (events ++ [(name, event)]) revision,
          scope.contents.hooks.contains revision = true ∧
            ∀ key, scope.contents.Exact revision key (scope.Changed key) := by
      intro already
      obtain ⟨scope, told⟩ := chronicled.committed revision already
      exact ⟨scope.concat (name, event), told⟩
    have left := move.leaves
    generalize later : ((start.run events).step name event).2.file.contents = contents at left known
    cases left with
    | same => exact earlier known
    | wrote writes =>
        rw [Database.hooks_assign_all] at known
        exact earlier known
    | @committed active pending holds commits =>
        by_cases same : revision = active
        · -- the scope that was open until now, with all that was told of it
          subst same
          obtain ⟨before, inside, rfl, activity, told⟩ :=
            chronicled.opened name revision contents holds
          let scope : CommittedScope start (before ++ inside ++ [(name, event)]) revision :=
            ⟨before, inside, name, event, [], rfl, activity, commits⟩
          have committed : scope.contents = contents := by
            rw [← later, CommittedScope.contents, CommittedScope.untilCommit, run_concat]
          refine ⟨scope, ?_⟩
          rw [committed]
          exact ⟨known, told⟩
        · have already := ((forked.branch holds).hooks revision).1 known
          exact earlier (already.resolve_left same)

theorem run_chronicled (events : List (Name × Event)) :
    Chronicled (ofFile .fresh : Fleet Name) events := by
  induction events using List.reverseRecOn with
  | nil =>
      refine ⟨of_file_forked Database.empty_sound rfl, ?_, fun revision known => nomatch known⟩
      intro holder revision pending holds
      obtain ⟨location, readOnly, named⟩ := holds
      cases named
  | append_singleton events last hypothesis => exact hypothesis.step last.1 last.2

/-- The rows of a committed revision are exact, and the same ever after. -/
theorem committed_history_exact (events : List (Name × Event)) (revision : Int)
    (committed :
      ((ofFile .fresh : Fleet Name).run events).file.contents.hooks.contains revision = true) :
    ∃ scope : CommittedScope (ofFile .fresh : Fleet Name) events revision, ∀ key later,
      let fleet := (ofFile .fresh : Fleet Name).run (scope.untilCommit ++ later)
      let row := fleet.file.contents.history.get? (revision, key)
      ((∃ data, row = some data) ↔ scope.Changed key) ∧
        (∀ data, row = some data → data = scope.contents.live.get? key) ∧
          ∀ holder active pending, fleet.Holds holder active pending →
            pending.history.get? (revision, key) = row := by
  obtain ⟨scope, known, told⟩ := (run_chronicled events).committed revision committed
  refine ⟨scope, fun key later => ?_⟩
  have forked : ((ofFile .fresh : Fleet Name).run scope.untilCommit).Forked :=
    (of_file_forked Database.empty_sound rfl).run scope.untilCommit
  obtain ⟨same, everywhere⟩ := forked.run_keeps known later key
  rw [← run_append] at same everywhere
  simp only [same]
  refine ⟨?_, ?_, fun holder active pending holds => everywhere holds⟩
  · exact (told key).recorded_iff
  · exact fun data found => (told key).data_eq found

def oneCommit : List (Nat × Event) :=
  [(0, .connect .memory false), (0, .perform (.enter (.scope ⟨"install", "today"⟩))),
    (0, .perform (.ask (.set "mode" (.bool true)))), (0, .perform (.ask (.unset "stale"))),
    (0, .perform (.leave .commit)),
    (0, .perform (.enter (.scope ⟨"start", "today"⟩))), (0, .drop)]

theorem one_commit_exact :
    ((ofFile .fresh : Fleet Nat).run oneCommit).file.contents.hooks.contains 1 = true ∧
      ∃ scope : CommittedScope (ofFile .fresh : Fleet Nat) oneCommit 1, ∀ key later,
        let fleet := (ofFile .fresh : Fleet Nat).run (scope.untilCommit ++ later)
        let row := fleet.file.contents.history.get? (1, key)
        ((∃ data, row = some data) ↔ scope.Changed key) ∧
          (∀ data, row = some data → data = scope.contents.live.get? key) ∧
            ∀ holder active pending, fleet.Holds holder active pending →
              pending.history.get? (1, key) = row :=
  ⟨by decide, committed_history_exact oneCommit 1 (by decide)⟩

end Fleet

end UnitState
