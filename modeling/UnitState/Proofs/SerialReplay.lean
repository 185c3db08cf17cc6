import UnitState.Proofs.Ledger

/-!
# Serial replay

Whatever the order in which the holders of stores act, the committed contents are those that
the transactions of the ledger leave when they are executed one after the other, each on
contents that nobody else works on. The contents of a scope are what was committed when it was
opened, and what was done in it since.
-/

set_option autoImplicit false

namespace UnitState.Fleet

variable {Name : Type} [DecidableEq Name]

/-- What a fleet, and the ledger of how it came about, have to do with each other. -/
structure Serial (start : Database) (fleet : Fleet Name) (ledger : Ledger Name) : Prop where
  coherent : fleet.Coherent
  replayed : Transaction.replay start ledger.committed = fleet.file.contents
  holder : ∀ {name revision pending}, fleet.Holds name revision pending →
    ∃ scope, ledger.scope = some scope ∧ scope.holder = name ∧
      scope.base = fleet.file.contents ∧
        Transaction.Reaches scope.entry scope.operations scope.base revision pending
  opened : ∀ {scope}, ledger.scope = some scope →
    ∃ revision pending, fleet.Holds scope.holder revision pending

section Serial

omit [DecidableEq Name]

variable {start : Database} {fleet later : Fleet Name} {ledger : Ledger Name}

theorem Serial.others (serial : Serial start fleet ledger) {name : Name}
    (outside : fleet.Outside name) : ∀ scope, ledger.scope = some scope → scope.holder ≠ name := by
  intro scope found holder
  obtain ⟨revision, pending, holds⟩ := serial.opened found
  rw [holder] at holds
  exact outside.not_holds holds

theorem Serial.no_scope (serial : Serial start fleet ledger)
    (unlocked : fleet.file.locked = false) : ledger.scope = none := by
  cases found : ledger.scope with
  | none => rfl
  | some scope =>
      obtain ⟨_, _, holds⟩ := serial.opened found
      exact absurd holds (serial.coherent.not_holds unlocked)

theorem Serial.kept (serial : Serial start fleet ledger) (coherent : later.Coherent)
    (contents : later.file.contents = fleet.file.contents)
    (holds : ∀ name revision pending,
      later.Holds name revision pending ↔ fleet.Holds name revision pending) :
    Serial start later ledger where
  coherent := coherent
  replayed := by rw [contents, serial.replayed]
  holder held := by
    rw [contents]
    exact serial.holder ((holds _ _ _).1 held)
  opened found := by
    obtain ⟨revision, pending, held⟩ := serial.opened found
    exact ⟨revision, pending, (holds _ _ _).2 held⟩

/-- A write outside of a scope. While another scope is open it has nothing to change. -/
theorem Serial.wrote (serial : Serial start fleet ledger) (coherent : later.Coherent)
    {operation : Operation} (writing : operation.kind = .write)
    (contents : later.file.contents =
      fleet.file.contents.assignAll none (operation.writes fleet.file.contents.live))
    (holds : ∀ name revision pending,
      later.Holds name revision pending ↔ fleet.Holds name revision pending)
    (quiet : ledger.scope = none ∨ later.file.contents = fleet.file.contents) :
    Serial start later
      { ledger with committed := ledger.committed ++ [.single operation] } where
  coherent := coherent
  replayed := by
    rw [Transaction.replay_append, serial.replayed, Transaction.execute_single writing, contents]
  holder held := by
    obtain ⟨scope, found, holder, base, reaches⟩ := serial.holder ((holds _ _ _).1 held)
    have same : later.file.contents = fleet.file.contents := by
      rcases quiet with none | same
      · rw [none] at found
        cases found
      · exact same
    exact ⟨scope, found, holder, same ▸ base, reaches⟩
  opened found := by
    obtain ⟨revision, pending, held⟩ := serial.opened found
    exact ⟨revision, pending, (holds _ _ _).2 held⟩

theorem Serial.of_scope (coherent : fleet.Coherent) {scope : OpenScope Name}
    {committed : List Transaction} {revision : Int} {pending : Database}
    (holds : fleet.Holds scope.holder revision pending)
    (replayed : Transaction.replay start committed = fleet.file.contents)
    (base : scope.base = fleet.file.contents)
    (reaches : Transaction.Reaches scope.entry scope.operations scope.base revision pending) :
    Serial start fleet ⟨committed, some scope⟩ where
  coherent := coherent
  replayed := replayed
  holder held := by
    have same := coherent.alone holds held
    subst same
    obtain ⟨rfl, rfl⟩ := holds.unique held
    exact ⟨scope, rfl, rfl, base, reaches⟩
  opened found := by
    cases found
    exact ⟨revision, pending, holds⟩

theorem Serial.of_unlocked (coherent : fleet.Coherent) {committed : List Transaction}
    (unlocked : fleet.file.locked = false)
    (replayed : Transaction.replay start committed = fleet.file.contents) :
    Serial start fleet ⟨committed, none⟩ where
  coherent := coherent
  replayed := replayed
  holder held := absurd held (coherent.not_holds unlocked)
  opened found := nomatch found

end Serial

theorem holds_put_outside {fleet : Fleet Name} {name : Name} {left : Option Handle}
    {file : DatabaseFile} (before : fleet.Outside name)
    (after : (fleet.put name left file).Outside name) (other : Name) (revision : Int)
    (pending : Database) :
    (fleet.put name left file).Holds other revision pending ↔
      fleet.Holds other revision pending := by
  by_cases same : other = name
  · subst same
    exact iff_of_false after.not_holds before.not_holds
  · exact holds_put_of_ne fleet name left file same revision pending

theorem Serial.move {start : Database} {fleet later : Fleet Name} {ledger : Ledger Name}
    (serial : Serial start fleet ledger) {name : Name} {event : Event}
    {answer : Option (Except StoreError Outcome)}
    (move : fleet.Move name event answer later) :
    Serial start later (ledger.note fleet.file.contents name event answer) := by
  have coherent := serial.coherent.move move
  cases move with
  | unanswered => exact serial
  | @still _ answer outside silent =>
      cases answer with
      | error error =>
          rw [Ledger.note_failure (serial.others outside)]
          exact serial
      | ok outcome =>
          obtain ⟨_, unentered, present⟩ := silent outcome rfl
          -- a write that found everything there is a transaction that changes nothing
          by_cases writing : event.kind = .write
          · cases event with
            | connect | drop => cases writing
            | perform operation =>
                rw [Ledger.note_outside (serial.others outside), Ledger.note_outside_write writing]
                refine serial.wrote coherent writing ?_ (fun _ _ _ => Iff.rfl) (.inr rfl)
                exact (Database.assign_all_present _ _ present).symm
          · rw [Ledger.note_silent (serial.others outside) writing unentered]
            exact serial
  | @connected location readOnly store vacant connects =>
      obtain ⟨handle, contents, _⟩ := connect_ok connects
      have before : fleet.Outside name := .of_vacant vacant
      have after : (fleet.put name (some store.handle) store.file).Outside name := by
        apply Outside.of_named (handles_put_self fleet name _ _)
        rw [handle]
        exact ⟨rfl, nofun⟩
      have unwritten : (Event.connect location readOnly).kind ≠ .write := nofun
      have unentered : (Event.connect location readOnly).kind ≠ .enter := nofun
      rw [Ledger.note_silent (serial.others before) unwritten unentered]
      exact serial.kept coherent contents (holds_put_outside before after)
  | wrote named free writing =>
      rw [Ledger.note_outside (serial.others (.of_free named free)),
        Ledger.note_outside_write writing]
      exact serial.wrote coherent writing rfl (fun _ _ _ => Iff.rfl)
        (.inl (serial.no_scope free.unlocked))
  | @entered entry handle opening named free opens =>
      rw [Ledger.note_outside (serial.others (.of_free named free))]
      exact .of_scope coherent ⟨_, _, handles_put_self fleet name _ _⟩ serial.replayed rfl
        (.entered opens)
  | inside named opened stays =>
      have holds : fleet.Holds name _ _ := ⟨_, _, named⟩
      obtain ⟨scope, found, rfl, base, reaches⟩ := serial.holder holds
      rw [Ledger.note_inside found rfl, Ledger.note_inside_stays stays]
      exact .of_scope coherent ⟨_, _, handles_put_self fleet _ _ _⟩ serial.replayed base
        (reaches.performed stays opened.known)
  | committed named holds opened commits =>
      obtain ⟨scope, found, rfl, base, reaches⟩ := serial.holder holds
      rw [Ledger.note_inside found rfl, Ledger.note_inside_commit commits]
      apply Serial.of_unlocked coherent rfl
      rw [Transaction.replay_append, serial.replayed, ← base, reaches.execute]
      rfl
  | discarded named holds discards =>
      obtain ⟨scope, found, rfl, _⟩ := serial.holder holds
      rw [Ledger.note_inside found rfl, Ledger.note_inside_discard discards]
      exact .of_unlocked coherent rfl serial.replayed
  | @released event handle outcome named outside ends =>
      have before : fleet.Outside name := .of_named named outside
      have after := Outside.of_remainder fleet name ends handle fleet.file
      have unwritten : event.kind ≠ .write := by
        intro writing
        rw [writing] at ends
        cases ends
      have unentered : event.kind ≠ .enter := by
        intro entering
        rw [entering] at ends
        cases ends
      rw [Ledger.note_silent (serial.others before) unwritten unentered]
      exact serial.kept coherent rfl (holds_put_outside before after)

/-! ## Views -/

structure Ready (fleet : Fleet Name) : Prop where
  tables : fleet.file.version = Schema.currentVersion → fleet.file.hasTables = true
  current : ∀ name handle, fleet.handles name = some handle →
    fleet.file.version = Schema.currentVersion

theorem Ready.put {fleet : Fleet Name} (ready : fleet.Ready) {name : Name} {handle : Handle}
    (named : fleet.handles name = some handle) (left : Option Handle) {file : DatabaseFile}
    (version : file.version = fleet.file.version)
    (hasTables : file.hasTables = fleet.file.hasTables) : (fleet.put name left file).Ready where
  tables := by
    rw [file_put, version, hasTables]
    exact ready.tables
  current _ _ _ := by
    rw [file_put, version]
    exact ready.current name handle named

theorem Ready.move {fleet later : Fleet Name} (ready : fleet.Ready) {name : Name} {event : Event}
    {answer : Option (Except StoreError Outcome)}
    (move : fleet.Move name event answer later) : later.Ready := by
  cases move with
  | unanswered | still => exact ready
  | connected vacant connects =>
      obtain ⟨_, _, _, current, tables⟩ := connect_ok connects
      refine ⟨fun _ => ?_, fun _ _ _ => current⟩
      rcases tables with hasTables | same
      · exact hasTables
      · rw [same] at current
        rw [file_put, same]
        exact ready.tables current
  | wrote => exact ⟨ready.tables, ready.current⟩
  | entered named | inside named | committed named | discarded named | released named =>
      exact ready.put named _ rfl rfl

section Views

omit [DecidableEq Name]

theorem Ready.view_idle {fleet : Fleet Name} (ready : fleet.Ready) {name : Name}
    {handle : Handle} (named : fleet.handles name = some handle)
    (idle : handle.connection = .idle) (table : String) :
    Store.view ⟨handle, fleet.file⟩ table = .ok fleet.file.contents := by
  have hasTables := ready.tables (ready.current name handle named)
  simp only [Store.view, idle, hasTables, if_true]

theorem Coherent.holds_of_writing {fleet : Fleet Name} (coherent : fleet.Coherent) {name : Name}
    {handle : Handle} {pending : Database} (named : fleet.handles name = some handle)
    (writing : handle.connection = .writing pending) :
    ∃ revision, fleet.Holds name revision pending := by
  have shape := coherent.handles named
  cases shape with
  | closed | idle => cases writing
  | writing location readOnly opened =>
      cases writing
      exact ⟨_, location, readOnly, named⟩

/-- What an open store sees is sound, and it can be viewed through every table. -/
theorem Ready.visible {fleet : Fleet Name} (ready : fleet.Ready) (coherent : fleet.Coherent)
    {name : Name} {handle : Handle} (named : fleet.handles name = some handle)
    (opened : handle.connection ≠ .closed) :
    (∀ table, Store.view ⟨handle, fleet.file⟩ table = .ok (fleet.seen name)) ∧
      (fleet.seen name).Sound := by
  cases coherent.handles named with
  | closed => exact absurd rfl opened
  | idle location readOnly =>
      rw [(Outside.of_named named ⟨rfl, nofun⟩).seen]
      exact ⟨ready.view_idle named rfl, coherent.sound⟩
  | writing location readOnly scope =>
      have holds : fleet.Holds name _ _ := ⟨location, readOnly, named⟩
      rw [holds.seen]
      exact ⟨fun _ => rfl, scope.sound⟩

end Views

theorem Serial.run {start : Database} {fleet : Fleet Name} {ledger : Ledger Name}
    (serial : Serial start fleet ledger) (ready : fleet.Ready) (events : List (Name × Event)) :
    Serial start (fleet.run events) (fleet.ledger events ledger) ∧ (fleet.run events).Ready := by
  induction events generalizing fleet ledger with
  | nil => exact ⟨serial, ready⟩
  | cons event later hypothesis =>
      have move := (step_move serial.coherent event.1 event.2).1
      exact hypothesis (serial.move move) (ready.move move)

end UnitState.Fleet
