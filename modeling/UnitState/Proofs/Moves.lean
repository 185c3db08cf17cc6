import UnitState.Proofs.Fleet
import UnitState.Proofs.SoundContents

/-!
# Moves of a fleet

A fleet is coherent if every handle has a revision exactly as long as it has a transaction,
at most one of them has one, and the file is locked exactly as long as one has. What an
event does to a coherent fleet is laid down here once, as a move, and everything that is
said about the runs of a fleet is concluded from its moves.
-/

set_option autoImplicit false

namespace UnitState

/-- The revision of a handle and its transaction belong together. -/
inductive Handle.Coherent : Handle → Prop
  | closed (location : Location) (readOnly : Bool) : Coherent ⟨location, readOnly, .closed, none⟩
  | idle (location : Location) (readOnly : Bool) : Coherent ⟨location, readOnly, .idle, none⟩
  | writing (location : Location) (readOnly : Bool) {revision : Int} {pending : Database}
      (opened : pending.Opened revision) :
      Coherent ⟨location, readOnly, .writing pending, some revision⟩

theorem Handle.Outside.coherent {handle : Handle} (outside : handle.Outside) :
    handle.Coherent := by
  obtain ⟨location, readOnly, connection, revision⟩ := handle
  have none := outside.revision
  simp only at none
  subst none
  cases connection with
  | closed => exact .closed location readOnly
  | idle => exact .idle location readOnly
  | writing pending => exact absurd rfl (outside.idle pending)

theorem Fleet.Event.remainder_outside {event : Fleet.Event} (ends : event.kind.ends = true)
    (handle : Handle) {left : Handle} (remains : event.remainder handle = some left) :
    left.Outside := by
  cases event with
  | connect => cases ends
  | drop => cases remains
  | perform operation =>
      cases remains
      unfold Operation.remainder
      split
      · exact ⟨rfl, nofun⟩
      · refine ⟨rfl, fun pending => ?_⟩
        simp only
        split <;> exact nofun

namespace Fleet

variable {Name : Type} [DecidableEq Name]

section Outside

omit [DecidableEq Name]

def Outside (fleet : Fleet Name) (name : Name) : Prop :=
  ∀ handle, fleet.handles name = some handle → handle.Outside

variable {fleet : Fleet Name} {name : Name}

theorem Outside.of_vacant (vacant : fleet.handles name = none) : fleet.Outside name := by
  intro handle named
  rw [vacant] at named
  cases named

theorem Outside.of_named {handle : Handle} (named : fleet.handles name = some handle)
    (outside : handle.Outside) : fleet.Outside name := by
  intro other otherNamed
  rw [named] at otherNamed
  cases otherNamed
  exact outside

theorem Outside.of_free {handle : Handle} (named : fleet.handles name = some handle)
    (free : Store.Free ⟨handle, fleet.file⟩) : fleet.Outside name :=
  .of_named named free.handle_outside

theorem Outside.not_holds (outside : fleet.Outside name) {revision : Int} {pending : Database} :
    ¬fleet.Holds name revision pending := by
  intro holds
  obtain ⟨location, readOnly, named⟩ := holds
  exact (outside _ named).idle pending rfl

theorem Outside.seen (outside : fleet.Outside name) : fleet.seen name = fleet.file.contents := by
  unfold Fleet.seen
  split
  · rename_i handle named
    unfold Store.seen
    split
    · rename_i pending writing
      exact absurd writing ((outside handle named).idle pending)
    · rfl
    · rfl
  · rfl

end Outside

theorem Outside.of_remainder (fleet : Fleet Name) (name : Name) {event : Event}
    (ends : event.kind.ends = true) (handle : Handle) (file : DatabaseFile) :
    (fleet.put name (event.remainder handle) file).Outside name := by
  intro left named
  rw [handles_put_self] at named
  exact Event.remainder_outside ends handle named

structure Coherent (fleet : Fleet Name) : Prop where
  handles : ∀ {name handle}, fleet.handles name = some handle → handle.Coherent
  sound : fleet.file.contents.Sound
  locked : fleet.file.locked = true ↔ ∃ name revision pending, fleet.Holds name revision pending
  alone : ∀ {name other revision otherRevision pending otherPending},
    fleet.Holds name revision pending → fleet.Holds other otherRevision otherPending →
      name = other

/-- What an event does to a coherent fleet, and what the holder is told. -/
inductive Move (fleet : Fleet Name) (name : Name) :
    Event → Option (Except StoreError Outcome) → Fleet Name → Prop
  | unanswered {event : Event} : Move fleet name event none fleet
  /-- Outside a scope: a look, a failure, or a write of what is there already. -/
  | still {event : Event} {result : Except StoreError Outcome}
      (outside : fleet.Outside name)
      (silent : ∀ outcome, result = .ok outcome → event.kind.ends = false ∧
        event.kind ≠ .enter ∧
          fleet.file.contents.live.Has (event.writes fleet.file.contents.live)) :
      Move fleet name event (some result) fleet
  | connected {location : Location} {readOnly : Bool} {store : Store}
      (vacant : fleet.handles name = none)
      (connects : Store.connect location readOnly fleet.file = .ok store) :
      Move fleet name (.connect location readOnly) (some (.ok .done))
        (fleet.put name (some store.handle) store.file)
  /-- Outside a scope a write commits. -/
  | wrote {operation : Operation} {handle : Handle} {outcome : Outcome}
      (named : fleet.handles name = some handle) (free : Store.Free ⟨handle, fleet.file⟩)
      (writing : operation.kind = .write) :
      Move fleet name (.perform operation) (some (.ok outcome))
        { fleet with
          file.contents := fleet.file.contents.assignAll none
            (operation.writes fleet.file.contents.live) }
  | entered {entry : Entry} {handle : Handle} {opening : Opening}
      (named : fleet.handles name = some handle) (free : Store.Free ⟨handle, fleet.file⟩)
      (opens : entry.opening fleet.file.contents = .ok opening) :
      Move fleet name (.perform (.enter entry))
        (some (.ok (.entered opening.revision opening.changes)))
        (fleet.put name
          (some { handle with
            connection := .writing opening.pending
            revision := some opening.revision })
          { fleet.file with locked := true })
  | inside {operation : Operation} {location : Location} {readOnly : Bool} {revision : Int}
      {pending : Database} {result : Except StoreError Outcome}
      (named : fleet.handles name =
        some ⟨location, readOnly, .writing pending, some revision⟩)
      (opened : pending.Opened revision) (stays : operation.kind.ends = false) :
      Move fleet name (.perform operation) (some result)
        (fleet.put name
          (some ⟨location, readOnly,
            .writing (pending.assignAll (some revision) (operation.writes pending.live)),
            some revision⟩)
          fleet.file)
  | committed {event : Event} {handle : Handle} {revision : Int} {pending : Database}
      {outcome : Outcome} (named : fleet.handles name = some handle)
      (holds : fleet.Holds name revision pending) (opened : pending.Opened revision)
      (commits : event.kind = .commit) :
      Move fleet name event (some (.ok outcome))
        (fleet.put name (event.remainder handle)
          { fleet.file with contents := pending, locked := false })
  | discarded {event : Event} {handle : Handle} {revision : Int} {pending : Database}
      {outcome : Outcome} (named : fleet.handles name = some handle)
      (holds : fleet.Holds name revision pending) (discards : event.kind = .discard) :
      Move fleet name event (some (.ok outcome))
        (fleet.put name (event.remainder handle) { fleet.file with locked := false })
  /-- Outside a scope there is nothing to end, but the store may be closed or lost. -/
  | released {event : Event} {handle : Handle} {outcome : Outcome}
      (named : fleet.handles name = some handle) (outside : handle.Outside)
      (ends : event.kind.ends = true) :
      Move fleet name event (some (.ok outcome))
        (fleet.put name (event.remainder handle) fleet.file)

theorem Move.failed {fleet : Fleet Name} {name : Name} (outside : fleet.Outside name)
    (event : Event) (error : StoreError) :
    fleet.Move name event (some (.error error)) fleet := by
  apply Move.still outside
  intro outcome success
  cases success

theorem connect_ordinarily (location : Location) (readOnly : Bool) (file : DatabaseFile) :
    Ordinarily (Store.connect location readOnly file) := by
  unfold Store.connect
  split
  · exact Ordinarily.of_ok _
  · rename_i error _ failure
    unfold DatabaseFile.migrate at failure
    have schema : ∃ fault, error = .schema fault := by
      simp only at failure
      split at failure
      · cases failure
      · split at failure
        · cases failure
          exact ⟨_, rfl⟩
        · split at failure
          · cases failure
            exact ⟨_, rfl⟩
          · split at failure
            · cases failure
              exact ⟨_, rfl⟩
            · cases failure
    obtain ⟨fault, rfl⟩ := schema
    exact Ordinarily.of_error ⟨nofun, nofun⟩

theorem perform_outside {fleet : Fleet Name} {name : Name} {handle : Handle}
    (named : fleet.handles name = some handle) (outside : handle.Outside)
    (operation : Operation) :
    fleet.Move name (.perform operation) (fleet.step name (.perform operation)).1
        (fleet.step name (.perform operation)).2 ∧
      Ordinarily (operation.action ⟨handle, fleet.file⟩).1 := by
  have only : fleet.Outside name := .of_named named outside
  simp only [step, named]
  -- what ends scopes finds none here; only the rest depends on whether the store may write
  cases ends : operation.kind.ends with
  | true =>
      have noRevision : (Store.mk handle fleet.file).handle.revision = none := outside.revision
      obtain ⟨outcome, acted⟩ := Operation.end_outside ends noRevision outside.idle
      rw [acted]
      exact ⟨.released named outside ends, Ordinarily.of_ok outcome⟩
  | false =>
      rcases Store.free_or_barred outside fleet.file with free | barred
      · cases kind : operation.kind with
        | look =>
            obtain ⟨kept, ordinary⟩ := Operation.look_spec kind ⟨handle, fleet.file⟩
            have unentered : operation.kind ≠ .enter := by
              simp only [kind, ne_eq, reduceCtorEq, not_false_eq_true]
            have unwritten : operation.kind ≠ .write := by
              simp only [kind, ne_eq, reduceCtorEq, not_false_eq_true]
            constructor
            · rw [kept, put_eq_of_named named]
              apply Move.still only
              intro outcome _
              refine ⟨ends, unentered, ?_⟩
              simp only [Event.writes, Operation.writes_of_kind_ne unwritten]
              exact Table.has_nil fleet.file.contents.live
            · exact ordinary
        | write =>
            obtain ⟨result, ordinary, acted, nothing⟩ := Operation.write_free kind free
            rw [acted]
            constructor
            · simp only [Store.withContents]
              rw [put_eq_of_named named]
              cases result with
              | ok outcome => exact .wrote named free kind
              | error error =>
                  rw [nothing error rfl]
                  exact .failed only _ error
            · exact ordinary
        | enter =>
            obtain ⟨entry, rfl⟩ := Operation.eq_enter_of_enter kind
            have ordinary := entry.opening_ordinarily fleet.file.contents
            rw [Operation.enter_free entry free]
            cases opens : entry.opening fleet.file.contents with
            | error error =>
                rw [put_eq_of_named named]
                exact ⟨.failed only _ error, Ordinarily.of_error (ordinary error opens)⟩
            | ok opening => exact ⟨.entered named free opens, Ordinarily.of_ok _⟩
        | commit => simp [kind, Kind.ends] at ends
        | discard => simp [kind, Kind.ends] at ends
      · obtain ⟨kept, ordinary, silent⟩ := Operation.barred ends barred
        constructor
        · rw [kept, put_eq_of_named named]
          exact .still only fun outcome success => ⟨ends, silent outcome success⟩
        · exact ordinary

theorem perform_in_scope {fleet : Fleet Name} {name : Name} {location : Location}
    {readOnly : Bool} {revision : Int} {pending : Database}
    (named : fleet.handles name = some ⟨location, readOnly, .writing pending, some revision⟩)
    (opened : pending.Opened revision) (operation : Operation) :
    fleet.Move name (.perform operation) (fleet.step name (.perform operation)).1
        (fleet.step name (.perform operation)).2 ∧
      Ordinarily (operation.action
        ⟨⟨location, readOnly, .writing pending, some revision⟩, fleet.file⟩).1 := by
  have holds : fleet.Holds name revision pending := ⟨location, readOnly, named⟩
  simp only [step, named]
  cases ends : operation.kind.ends with
  | false =>
      obtain ⟨result, ordinary, acted⟩ := Operation.in_scope ends
        ⟨⟨location, readOnly, .writing pending, some revision⟩, fleet.file⟩ revision opened.known
      simp only [Store.inScope] at acted
      rw [acted]
      exact ⟨.inside named opened ends, ordinary⟩
  | true =>
      cases kind : operation.kind with
      | commit =>
          obtain ⟨outcome, acted⟩ := Operation.commit_in_scope kind
            ⟨⟨location, readOnly, .writing pending, some revision⟩, fleet.file⟩ revision pending
          simp only [Store.inScope] at acted
          rw [acted]
          exact ⟨.committed named holds opened kind, Ordinarily.of_ok outcome⟩
      | discard =>
          obtain ⟨outcome, acted⟩ := Operation.discard_in_scope kind
            ⟨⟨location, readOnly, .writing pending, some revision⟩, fleet.file⟩ revision pending
          simp only [Store.inScope] at acted
          rw [acted]
          exact ⟨.discarded named holds kind, Ordinarily.of_ok outcome⟩
      | look | write | enter => simp [kind, Kind.ends] at ends

theorem connect_vacant {fleet : Fleet Name} {name : Name} (vacant : fleet.handles name = none)
    (location : Location) (readOnly : Bool) :
    fleet.Move name (.connect location readOnly)
        (fleet.step name (.connect location readOnly)).1
        (fleet.step name (.connect location readOnly)).2 ∧
      ∀ answer, (fleet.step name (.connect location readOnly)).1 = some answer →
        Ordinarily answer := by
  have ordinary := connect_ordinarily location readOnly fleet.file
  simp only [step, vacant]
  cases connects : Store.connect location readOnly fleet.file with
  | error error =>
      constructor
      · exact .failed (.of_vacant vacant) _ error
      · intro answer answered
        cases answered
        exact Ordinarily.of_error (ordinary error connects)
  | ok store =>
      constructor
      · exact .connected vacant connects
      · intro answer answered
        cases answered
        exact Ordinarily.of_ok _

theorem drop_named {fleet : Fleet Name} {name : Name} {handle : Handle}
    (named : fleet.handles name = some handle) (coherent : handle.Coherent) :
    fleet.Move name .drop (fleet.step name .drop).1 (fleet.step name .drop).2 ∧
      ∀ answer, (fleet.step name .drop).1 = some answer → Ordinarily answer := by
  simp only [step, named]
  cases coherent with
  | closed location readOnly | idle location readOnly =>
      have released : fleet.Move name .drop (some (.ok .done))
          (fleet.put name none fleet.file) := .released named ⟨rfl, nofun⟩ rfl
      constructor
      · exact released
      · intro answer answered
        cases answered
        exact Ordinarily.of_ok _
  | writing location readOnly opened =>
      have discarded : fleet.Move name .drop (some (.ok .done))
          (fleet.put name none { fleet.file with locked := false }) :=
        .discarded named ⟨location, readOnly, named⟩ rfl
      constructor
      · exact discarded
      · intro answer answered
        cases answered
        exact Ordinarily.of_ok _

theorem perform_named {fleet : Fleet Name} {name : Name} {handle : Handle}
    (named : fleet.handles name = some handle) (coherent : handle.Coherent)
    (operation : Operation) :
    fleet.Move name (.perform operation) (fleet.step name (.perform operation)).1
        (fleet.step name (.perform operation)).2 ∧
      ∀ answer, (fleet.step name (.perform operation)).1 = some answer → Ordinarily answer := by
  have whole : fleet.Move name (.perform operation) (fleet.step name (.perform operation)).1
      (fleet.step name (.perform operation)).2 ∧
        Ordinarily (operation.action ⟨handle, fleet.file⟩).1 := by
    cases coherent with
    | closed location readOnly => exact perform_outside named ⟨rfl, nofun⟩ operation
    | idle location readOnly => exact perform_outside named ⟨rfl, nofun⟩ operation
    | writing location readOnly opened => exact perform_in_scope named opened operation
  constructor
  · exact whole.1
  · intro answer answered
    simp only [step, named, Option.some.injEq] at answered
    rw [← answered]
    exact whole.2

/-- An event of a coherent fleet is a move, and no error tells of a scope gone astray. -/
theorem step_move {fleet : Fleet Name} (coherent : fleet.Coherent) (name : Name)
    (event : Event) :
    fleet.Move name event (fleet.step name event).1 (fleet.step name event).2 ∧
      ∀ answer, (fleet.step name event).1 = some answer → Ordinarily answer := by
  cases named : fleet.handles name with
  | none =>
      cases event with
      | connect location readOnly => exact connect_vacant named location readOnly
      | perform | drop =>
          simp only [step, named]
          constructor
          · exact .unanswered
          · intro answer answered
            cases answered
  | some handle =>
      cases event with
      | perform operation => exact perform_named named (coherent.handles named) operation
      | drop => exact drop_named named (coherent.handles named)
      | connect location readOnly =>
          simp only [step, named]
          constructor
          · exact .unanswered
          · intro answer answered
            cases answered

end Fleet

end UnitState
