import UnitState.Proofs.AllOrNothing

/-!
# Scopes that end early

A guard promises that what is written in its scope is committed together, under the revision
of the scope, or not at all. A body that leaves the end of the scope to the guard can rely on
this. But the guard hands its whole store to the body, and a body may flush or close it. The
scope is over then: what was written so far shares the fate of that operation, and all the rest
is done on a store without a scope, to whose end the guard adds nothing.
-/

set_option autoImplicit false

namespace UnitState

namespace Operation

/-- What an operation makes of the text of a key, given the live texts before and after it;
none if it is no write or leaves the text as it is. -/
def change (operation : Operation) (before after : Table String String) (key : String) :
    Option (Option String) :=
  if operation.kind = .write ∧ after.get? key ≠ before.get? key then some (after.get? key)
  else none

theorem change_eq (operation : Operation) (live : Table String String) (key : String) :
    let after := live.changeAll (operation.writes live)
    operation.change live after key =
      if after.get? key = live.get? key then none else some (after.get? key) := by
  intro after
  by_cases same : after.get? key = live.get? key
  · rw [if_pos same]
    exact if_neg fun change => change.2 same
  · have writing : operation.kind = .write := by
      apply Decidable.byContradiction
      intro silent
      apply same
      simp only [after, writes_of_kind_ne silent]
      rfl
    rw [if_neg same]
    exact if_pos ⟨writing, same⟩

theorem text_after (operation : Operation) (live : Table String String) (key : String) :
    let after := live.changeAll (operation.writes live)
    after.get? key = (operation.change live after key).getD (live.get? key) := by
  simp only [change_eq]
  split
  · rename_i same
    exact same
  · rfl

theorem row_after (operation : Operation) (pending : Database) (revision : Int) (key : String) :
    let after := pending.live.changeAll (operation.writes pending.live)
    (pending.assignAll (some revision) (operation.writes pending.live)).history.get?
        (revision, key) =
      (operation.change pending.live after key).or (pending.history.get? (revision, key)) := by
  have agreeing := operation.writes_agreeing pending.live
  simp only [change_eq, Database.history_assign_all_agreeing pending revision key agreeing]
  split <;> rfl

theorem remainder_of_scope (operation : Operation) (store : Store) (revision : Int)
    (pending : Database) :
    ∃ connection, (connection = .idle ∨ connection = .closed) ∧
      operation.remainder (store.inScope revision pending).handle =
        { store.handle with connection := connection, revision := none } := by
  unfold remainder
  split
  · exact ⟨.closed, .inr rfl, rfl⟩
  · exact ⟨.idle, .inl rfl, rfl⟩

theorem end_in_scope {operation : Operation} (ends : operation.kind.ends = true)
    (store : Store) (revision : Int) (pending : Database) :
    ∃ answer connection, (connection = .idle ∨ connection = .closed) ∧
      operation.action (store.inScope revision pending) =
        (answer,
          ⟨{ store.handle with connection := connection, revision := none },
            { store.file with
              contents := if operation.kind = .commit then pending else store.file.contents
              locked := false }⟩) := by
  obtain ⟨connection, left, handle⟩ := operation.remainder_of_scope store revision pending
  cases kind : operation.kind with
  | commit =>
      obtain ⟨outcome, acted⟩ := commit_in_scope kind store revision pending
      rw [handle] at acted
      exact ⟨_, connection, left, acted⟩
  | discard =>
      obtain ⟨outcome, acted⟩ := discard_in_scope kind store revision pending
      rw [handle] at acted
      exact ⟨_, connection, left, acted⟩
  | look | write | enter => simp [kind, Kind.ends] at ends

end Operation

/-- A body that may do anything to its store, ending scopes and entering others included. -/
inductive Procedure (Result : Type) where
  | done (ending : Ending StoreError Result)
  | perform (operation : Operation) (next : Except StoreError Outcome → Procedure Result)

namespace Procedure

variable {Result : Type}

def run : Procedure Result → Body Store StoreError Result
  | done ending, store => (ending, store)
  | perform operation next, store =>
      (next (operation.action store).1).run (operation.action store).2

/-- What the last write that changed a key made of its text; none if no write changed it. -/
def lastChange : Procedure Result → Store → String → Option (Option String)
  | done _, _, _ => none
  | perform operation next, store, key =>
      let later := (operation.action store).2
      ((next (operation.action store).1).lastChange later key).or
        (operation.change store.seen.live later.seen.live key)

def firstEnd : Procedure Result → Store →
    Option (Operation × (Except StoreError Outcome → Procedure Result))
  | done _, _ => none
  | perform operation next, store =>
      if operation.kind.ends then some (operation, next)
      else (next (operation.action store).1).firstEnd (operation.action store).2

def writesUntilEnd : Procedure Result → Store → List Write
  | done _, _ => []
  | perform operation next, store =>
      if operation.kind.ends then []
      else operation.writes store.seen.live ++
        (next (operation.action store).1).writesUntilEnd (operation.action store).2

/-! ## Inside the scope -/

section Scope

variable (store : Store) (revision : Int) {pending : Database}

theorem perform_in_scope {operation : Operation} (stays : operation.kind.ends = false)
    (next : Except StoreError Outcome → Procedure Result)
    (known : pending.hooks.contains revision = true) :
    let written := pending.assignAll (some revision) (operation.writes pending.live)
    ∃ answer, operation.action (store.inScope revision pending) =
        (answer, store.inScope revision written) ∧
      written.hooks.contains revision = true ∧
      (perform operation next).run (store.inScope revision pending) =
        (next answer).run (store.inScope revision written) ∧
      (perform operation next).firstEnd (store.inScope revision pending) =
        (next answer).firstEnd (store.inScope revision written) ∧
      (perform operation next).writesUntilEnd (store.inScope revision pending) =
        operation.writes pending.live ++
          (next answer).writesUntilEnd (store.inScope revision written) := by
  obtain ⟨answer, _, acted⟩ := Operation.in_scope stays store revision known
  refine ⟨answer, acted, ?_, ?_, ?_, ?_⟩
  · rw [Database.hooks_assign_all]
    exact known
  · simp only [run, acted]
  · simp only [firstEnd, stays, acted, Bool.false_eq_true, if_false]
  · simp only [writesUntilEnd, stays, acted, Bool.false_eq_true, if_false]
    rfl

/-- A body that ends no scope leaves its writes in the contents of its own. -/
theorem run_held (procedure : Procedure Result)
    (known : pending.hooks.contains revision = true)
    (held : procedure.firstEnd (store.inScope revision pending) = none) :
    (procedure.run (store.inScope revision pending)).2 =
      store.inScope revision
        (pending.assignAll (some revision)
          (procedure.writesUntilEnd (store.inScope revision pending))) := by
  induction procedure generalizing pending with
  | done ending => rfl
  | perform operation next hypothesis =>
      cases ends : operation.kind.ends with
      | true => simp [firstEnd, ends] at held
      | false =>
          obtain ⟨answer, _, stillKnown, ran, ended, written⟩ :=
            perform_in_scope store revision ends next known
          rw [ran, written, Database.assign_all_append]
          apply hypothesis
          · exact stillKnown
          · exact ended.symm.trans held

/-- Of a body that ends its scope, the writes up to there are in the contents of the scope when
the operation comes, and the rest runs on what the operation leaves. -/
theorem run_ended (procedure : Procedure Result) {operation : Operation}
    {next : Except StoreError Outcome → Procedure Result}
    (known : pending.hooks.contains revision = true)
    (ended : procedure.firstEnd (store.inScope revision pending) = some (operation, next)) :
    let met := store.inScope revision
      (pending.assignAll (some revision)
        (procedure.writesUntilEnd (store.inScope revision pending)))
    operation.kind.ends = true ∧
      procedure.run (store.inScope revision pending) =
        (next (operation.action met).1).run (operation.action met).2 := by
  induction procedure generalizing pending with
  | done ending => cases ended
  | perform first following hypothesis =>
      cases ends : first.kind.ends with
      | true =>
          simp only [firstEnd, ends, if_true] at ended
          cases ended
          refine ⟨ends, ?_⟩
          simp only [writesUntilEnd, ends, if_true, Database.assign_all_nil]
          rfl
      | false =>
          obtain ⟨answer, _, stillKnown, ran, later, written⟩ :=
            perform_in_scope store revision ends following known
          rw [ran, written, Database.assign_all_append]
          apply hypothesis
          · exact stillKnown
          · exact later.symm.trans ended

/-- As long as the scope is open, what a key has and what is recorded of it is what its last
change made of it. -/
theorem last_change_held (procedure : Procedure Result) (key : String)
    (known : pending.hooks.contains revision = true)
    (held : procedure.firstEnd (store.inScope revision pending) = none) :
    let changed := procedure.lastChange (store.inScope revision pending) key
    let left := pending.assignAll (some revision)
      (procedure.writesUntilEnd (store.inScope revision pending))
    left.live.get? key = changed.getD (pending.live.get? key) ∧
      left.history.get? (revision, key) =
        changed.or (pending.history.get? (revision, key)) := by
  induction procedure generalizing pending with
  | done ending => exact ⟨rfl, rfl⟩
  | perform operation next hypothesis =>
      cases ends : operation.kind.ends with
      | true => simp [firstEnd, ends] at held
      | false =>
          obtain ⟨answer, acted, stillKnown, _, ended, written⟩ :=
            perform_in_scope store revision ends next known
          obtain ⟨text, row⟩ := hypothesis answer stillKnown (ended.symm.trans held)
          have seen : ∀ database, (store.inScope revision database).seen = database :=
            fun _ => rfl
          simp only [written, Database.assign_all_append, lastChange, acted, seen]
          rw [text, row, operation.row_after, Database.live_assign_all, ← Option.or_assoc,
            operation.text_after, Option.getD_or]
          exact ⟨rfl, rfl⟩

end Scope

/-! ## After the scope -/

inductive Plain : Procedure Result → Prop where
  | done (ending : Ending StoreError Result) : Plain (done ending)
  | perform {operation : Operation} {next : Except StoreError Outcome → Procedure Result}
      (kind : operation.kind = .look ∨ operation.kind = .write)
      (plain : ∀ answer, Plain (next answer)) : Plain (perform operation next)

theorem Plain.run_free {procedure : Procedure Result} (plain : procedure.Plain) {store : Store}
    (free : store.Free) :
    let left := (procedure.run store).2
    left.Free ∧ left.file.contents.history = store.file.contents.history ∧
      ∀ key, left.file.contents.live.get? key =
        (procedure.lastChange store key).getD (store.file.contents.live.get? key) := by
  induction plain generalizing store with
  | done ending => exact ⟨free, rfl, fun key => rfl⟩
  | @perform operation next kind _ hypothesis =>
      rcases kind with look | writing
      · obtain ⟨kept, _⟩ := Operation.look_spec look store
        have rest := hypothesis (operation.action store).1 free
        have unchanged : ∀ key,
            operation.change store.seen.live store.seen.live key = none :=
          fun key => if_neg fun change => change.2 rfl
        simpa only [run, lastChange, kept, unchanged, Option.or_none] using rest
      · obtain ⟨answer, _, acted, _⟩ := Operation.write_free writing free
        have stillFree : (store.withContents (store.file.contents.assignAll none
            (operation.writes store.file.contents.live))).Free :=
          ⟨free.idle, free.outside, free.writable, free.hasTables, free.unlocked⟩
        obtain ⟨leftFree, history, text⟩ := hypothesis answer stillFree
        simp only [run, acted]
        refine ⟨leftFree, ?_, fun key => ?_⟩
        · rw [history]
          exact Database.history_assign_all_unrecorded _ _
        · have contents : ∀ database,
              (store.withContents database).file.contents = database := fun _ => rfl
          rw [text key, contents, Database.live_assign_all, operation.text_after]
          simp only [lastChange, acted, free.seen, free.seen_with_contents, Option.getD_or,
            Database.live_assign_all]

end Procedure

namespace Store

variable {Result : Type}

def saves : Ending StoreError Result → Bool
  | .returned _ => true
  | .failed _ | .crashed => false

theorem begin_scope_cases (row : HookRow) (store : Store) :
    (∃ error, beginScope row store = (.error error, store)) ∨
      store.Free ∧ ∃ opening, (Entry.scope row).opening store.file.contents = .ok opening ∧
        beginScope row store =
          (.ok opening.revision, store.locked.inScope opening.revision opening.pending) := by
  rw [begin_scope_eq]
  rcases enter_cases (.scope row) store with ⟨error, refused⟩ | ⟨free, opening, opens, entered⟩
  · left
    rw [refused]
    exact ⟨error, rfl⟩
  · right
    rw [entered]
    exact ⟨free, opening, opens, rfl⟩

theorem hook_scope_opened {row : HookRow} {store opened : Store} {revision : Int}
    (begun : beginScope row store = (.ok revision, opened))
    (body : Int → Body Store StoreError Result) :
    hookScope row body store =
      ((body revision opened).1,
        (flush (saves (body revision opened).1) (body revision opened).2).2) := by
  simp only [hookScope, withinScope, begun]
  cases body revision opened with
  | mk ending left =>
      cases ending with
      | returned result =>
          obtain ⟨after, flushed⟩ : ∃ after, flush true left = (.ok (), after) := by
            unfold flush
            split <;> exact ⟨_, rfl⟩
          simp only [flushed, saves]
      | failed error => rfl
      | crashed => rfl

/-- What a guard promises to its user. -/
structure Promised (row : HookRow) (body : Int → Procedure Result) (store : Store) : Prop where
  /-- If the call returns, every change is committed, and recorded under the revision. -/
  kept : ∀ revision opened result left,
    beginScope row store = (.ok revision, opened) →
      hookScope row (fun revision => (body revision).run) store = (.returned result, left) →
        ∀ key text, (body revision).lastChange opened key = some text →
          left.file.contents.live.get? key = text ∧
            left.file.contents.history.get? (revision, key) = some text
  /-- If it fails or crashes, no change is. -/
  dropped : ∀ ending left,
    hookScope row (fun revision => (body revision).run) store = (ending, left) →
      (∀ result, ending ≠ .returned result) →
        left.file.contents.live = store.file.contents.live ∧
          left.file.contents.history = store.file.contents.history

/-- What a call does once its body has ended the scope with an operation: the rest runs on the
store that the operation has left. -/
structure EndedEarly (row : HookRow) (body : Int → Procedure Result) (store : Store)
    (operation : Operation) (writes : List Write) (rest : Procedure Result) (left : Store) :
    Prop where
  outside : left.handle.Outside
  free : left.Free ∨ left.handle.connection = .closed
  /-- The writes so far share the fate of the operation. -/
  fate : left.file.contents =
    if operation.kind = .commit then
      (store.file.contents.revised row).assignAll (some (store.file.contents.sequence + 1)) writes
    else store.file.contents
  ran : hookScope row (fun revision => (body revision).run) store =
    ((rest.run left).1, (flush (saves (rest.run left).1) (rest.run left).2).2)
  /-- A rest that looks and writes commits every change at once and records none, whether the
  call returns in the end or not. -/
  plain : left.Free → rest.Plain →
    let after := (hookScope row (fun revision => (body revision).run) store).2
    after.file.contents.history = left.file.contents.history ∧
      ∀ key, after.file.contents.live.get? key =
        (rest.lastChange left key).getD (left.file.contents.live.get? key)

section Guard

variable {row : HookRow} {store : Store} {opening : Opening}

theorem opening_known {contents : Database}
    (opens : (Entry.scope row).opening contents = .ok opening) :
    opening.revision = contents.sequence + 1 ∧ opening.pending = contents.revised row := by
  obtain ⟨number, pending⟩ := Entry.opening_ok opens
  exact ⟨number, pending⟩

/-- A guard keeps its promise to a body that leaves the end of the scope to it. -/
theorem promised_of_held {body : Int → Procedure Result} (free : store.Free)
    (opens : (Entry.scope row).opening store.file.contents = .ok opening)
    (begun : beginScope row store =
      (.ok opening.revision, store.locked.inScope opening.revision opening.pending))
    (held : (body opening.revision).firstEnd
      (store.locked.inScope opening.revision opening.pending) = none) :
    Promised row body store := by
  have known := Entry.opening_known opens
  have ran := hook_scope_opened begun fun revision => (body revision).run
  have inside := (body opening.revision).run_held store.locked opening.revision known held
  rw [inside] at ran
  constructor
  · intro revision opened result left begunAs returned key text changed
    rw [begun] at begunAs
    cases begunAs
    have saved : saves ((body opening.revision).run
        (store.locked.inScope opening.revision opening.pending)).1 = true := by
      rw [ran] at returned
      rw [(Prod.mk.inj returned).1]
      rfl
    rw [saved, flush_true_locked free, returned] at ran
    obtain ⟨text_kept, row_kept⟩ := (body opening.revision).last_change_held store.locked
      opening.revision key known held
    rw [changed] at text_kept row_kept
    rw [(Prod.mk.inj ran).2]
    exact ⟨text_kept, row_kept⟩
  · intro ending left ended unreturned
    have unsaved : saves ((body opening.revision).run
        (store.locked.inScope opening.revision opening.pending)).1 = false := by
      rw [ran] at ended
      rw [(Prod.mk.inj ended).1]
      cases ending with
      | returned result => exact absurd rfl (unreturned result)
      | failed | crashed => rfl
    rw [unsaved, flush_false_locked free, ended] at ran
    rw [(Prod.mk.inj ran).2]
    exact ⟨rfl, rfl⟩

theorem ended_early {body : Int → Procedure Result} (free : store.Free)
    (opens : (Entry.scope row).opening store.file.contents = .ok opening)
    (begun : beginScope row store =
      (.ok opening.revision, store.locked.inScope opening.revision opening.pending))
    {operation : Operation} {next : Except StoreError Outcome → Procedure Result}
    (ended : (body opening.revision).firstEnd
      (store.locked.inScope opening.revision opening.pending) = some (operation, next)) :
    ∃ answer left, EndedEarly row body store operation
      ((body opening.revision).writesUntilEnd
        (store.locked.inScope opening.revision opening.pending)) (next answer) left := by
  obtain ⟨number, revised⟩ := opening_known opens
  have known := Entry.opening_known opens
  obtain ⟨ends, course⟩ :=
    (body opening.revision).run_ended store.locked opening.revision known ended
  obtain ⟨answer, connection, after, acted⟩ := Operation.end_in_scope ends store.locked
    opening.revision (opening.pending.assignAll (some opening.revision)
      ((body opening.revision).writesUntilEnd
        (store.locked.inScope opening.revision opening.pending)))
  rw [acted] at course
  have ran := hook_scope_opened begun fun revision => (body revision).run
  rw [course] at ran
  refine ⟨answer, _, ?_, ?_, ?_, ran, ?_⟩
  · refine ⟨rfl, fun pending writing => ?_⟩
    rcases after with rfl | rfl <;> cases writing
  · rcases after with rfl | rfl
    · exact .inl ⟨rfl, rfl, free.writable, free.hasTables, rfl⟩
    · exact .inr rfl
  · simp only [revised, number]
    rfl
  · intro leftFree plain
    obtain ⟨restFree, history, text⟩ := plain.run_free leftFree
    simp only [ran, flush_outside restFree.handle_outside]
    exact ⟨history, text⟩

end Guard

/-- What a call makes of its body. The promise of the guard holds for every body that leaves the
end of the scope to it; a body that ends the scope itself gets what it asked for instead. -/
theorem guard_promise (row : HookRow) (body : Int → Procedure Result) (store : Store) :
    (∀ error later, beginScope row store = (.error error, later) →
      hookScope row (fun revision => (body revision).run) store = (.failed error, store)) ∧
    ∀ revision opened, beginScope row store = (.ok revision, opened) →
      match (body revision).firstEnd opened with
      | none => Promised row body store
      | some (operation, next) =>
          ∃ answer left, EndedEarly row body store operation
            ((body revision).writesUntilEnd opened) (next answer) left := by
  rcases begin_scope_cases row store with ⟨error, refused⟩ | ⟨free, opening, opens, begun⟩
  · refine ⟨fun other later same => ?_, fun revision opened same => ?_⟩
    · rw [refused] at same
      cases same
      simp only [hookScope, withinScope, refused]
    · rw [refused] at same
      cases same
  · refine ⟨fun error later same => ?_, fun revision opened same => ?_⟩
    · rw [begun] at same
      cases same
    · rw [begun] at same
      cases same
      split
      · rename_i held
        exact promised_of_held free opens begun held
      · rename_i operation next ended
        exact ended_early free opens begun ended

def replacing (ending : Ending StoreError Unit) : Int → Procedure Unit :=
  fun _ => .perform (.ask (.unset "state")) fun _ =>
    .perform (.ask (.set "mode" (.bool true))) fun _ => .done ending

/-- A guard keeps its promise to a body that writes: what it wrote is committed and recorded if it
returned, and nothing is if it crashed. -/
theorem replaced_mode_kept :
    let row : HookRow := ⟨"install", "today"⟩
    let store := inMemory.withContents (Database.empty.setLive "state" "1")
    let scope (ending : Ending StoreError Unit) :=
      (hookScope row (fun revision => (replacing ending revision).run) store).2.file.contents
    (scope (.returned ())).live.get? "state" = none ∧
      (scope (.returned ())).live.get? "mode" = some "true" ∧
      (scope (.returned ())).history.get? (1, "state") = some none ∧
      (scope (.returned ())).history.get? (1, "mode") = some (some "true") ∧
      (scope .crashed).live = store.file.contents.live ∧
      (scope .crashed).history = store.file.contents.history := by
  intro row store scope
  have returned : Promised row (replacing (.returned ())) store :=
    (guard_promise row (replacing (.returned ())) store).2 1 _ rfl
  have crashed : Promised row (replacing .crashed) store :=
    (guard_promise row (replacing .crashed) store).2 1 _ rfl
  have state := returned.kept 1 _ () _ rfl rfl "state" none (by decide)
  have mode := returned.kept 1 _ () _ rfl rfl "mode" (some "true") (by decide)
  have dropped := crashed.dropped .crashed _ rfl nofun
  exact ⟨state.1, mode.1, state.2, mode.2, dropped.1, dropped.2⟩

def endingEarly (request : Request) (ending : Ending StoreError Unit) : Int → Procedure Unit :=
  fun _ => .perform (.ask (.set "mode" (.bool true))) fun _ =>
    .perform (.ask request) fun _ => .done ending

def writingLate (request : Request) : Int → Procedure Unit :=
  fun _ => .perform (.ask request) fun _ =>
    .perform (.ask (.set "mode" (.bool true))) fun _ => .done (.returned ())

/-- The promise is broken in each of its parts: a call that returned has lost its writes, one
that crashed has committed them, and one that returned has committed them unrecorded. -/
theorem early_ends_break_promise :
    ¬ Promised ⟨"install", "today"⟩ (endingEarly (.flush false) (.returned ())) inMemory ∧
    ¬ Promised ⟨"install", "today"⟩ (endingEarly .close (.returned ())) inMemory ∧
    ¬ Promised ⟨"install", "today"⟩ (endingEarly (.flush true) .crashed) inMemory ∧
    ¬ Promised ⟨"install", "today"⟩ (writingLate (.flush true)) inMemory := by
  refine ⟨fun promised => ?_, fun promised => ?_, fun promised => ?_, fun promised => ?_⟩
  · have kept := promised.kept 1 _ () _ rfl rfl "mode" (some "true") (by decide)
    exact absurd kept.1 (by decide)
  · have kept := promised.kept 1 _ () _ rfl rfl "mode" (some "true") (by decide)
    exact absurd kept.1 (by decide)
  · have dropped := promised.dropped .crashed _ rfl nofun
    exact absurd dropped.1 (by decide)
  · have kept := promised.kept 1 _ () _ rfl rfl "mode" (some "true") (by decide)
    exact absurd kept.2 (by decide)

end Store

end UnitState
