import UnitState.Proofs.Entry
import UnitState.Store.Request

/-!
# Operations on a store

Everything that the holder of a store can do with it: requests, the ways into a scope, and
the ends of a guard. An operation looks, writes, enters, commits or discards. A store is in
a scope, free to write or barred from writing, and for each of these conditions it is said
here what every operation does.
-/

set_option autoImplicit false

namespace UnitState

inductive Kind where
  | look
  | write
  | enter
  | commit
  | discard
deriving DecidableEq

namespace Request

open Json Store

def kind : Request → Kind
  | set .. | setDatum .. | update .. | unset _ | unsetRange .. => .write
  | flush true => .commit
  | flush false | close => .discard
  | get _ | getRaw _ | getOr .. | getAs .. | getRecord .. | getRange .. | delta ..
  | getHistory .. | dump | describe => .look

def reads : Request → Bool
  | describe => false
  | request => decide (request.kind = .look)

def plan : Request → Plan Reply
  | set key value => Plan.carryOut [⟨key, some value.storedText⟩] >>= fun _ => pure (.value value)
  | setDatum key datum => datumPlan key datum >>= fun _ => pure .nothing
  | update mapping stem => Plan.carryOut (updateWrites mapping stem) >>= fun _ => pure .nothing
  | unset key => fun live => (.ok (.flag (live.contains key)), [⟨key, none⟩])
  | unsetRange names stem => removalPlan names stem >>= fun count => pure (.count count)
  | get _ | getRaw _ | getOr .. | getAs .. | getRecord .. | getRange .. | delta ..
  | getHistory .. | dump | describe | flush _ | close => pure .nothing

/-- The writes that a request carries out where it finds these live texts. -/
def writes (request : Request) (live : Table String String) : List Write :=
  (request.plan live).2

theorem answer_follows {request : Request} (writing : request.kind = .write) :
    Follows request.answer request.plan := by
  cases request with
  | set key value => exact (set_follows key value).bind fun _ => Follows.pure _
  | setDatum key datum => exact (set_datum_follows key datum).bind fun _ => Follows.pure _
  | update mapping stem => exact (update_follows mapping stem).bind fun _ => Follows.pure _
  | unset key =>
      have follows := (unset_follows key).bind fun present => Follows.pure (Reply.flag present)
      exact follows.congr fun live => rfl
  | unsetRange names stem =>
      exact (unset_range_follows names stem).bind fun count => Follows.pure (Reply.count count)
  | flush save => cases save <;> cases writing
  | get | getRaw | getOr | getAs | getRecord | getRange | delta | getHistory | dump | describe
  | close => cases writing

theorem datum_plan_agreeing (key : String) (datum : Datum) (live : Table String String) :
    Agreeing (datumPlan key datum live).2 := by
  unfold datumPlan
  cases datum.toValue with
  | ok value => exact Agreeing.single ⟨key, some value.compact⟩
  | error cause => exact Agreeing.nil

theorem writes_agreeing (request : Request) (live : Table String String) :
    Agreeing (request.writes live) := by
  cases request with
  | set key value => exact Agreeing.single ⟨key, some value.storedText⟩
  | setDatum key datum =>
      have same := Plan.writes_bind_pure (datumPlan key datum) (fun _ => Reply.nothing) live
      rw [writes, plan, same]
      exact datum_plan_agreeing key datum live
  | update mapping stem =>
      have same := Plan.writes_bind_pure (Plan.carryOut (updateWrites mapping stem))
        (fun _ => Reply.nothing) live
      rw [writes, plan, same]
      exact update_writes_agreeing mapping stem
  | unset key => exact Agreeing.single ⟨key, none⟩
  | unsetRange names stem =>
      rw [writes, plan, Plan.writes_bind_pure]
      exact removal_writes_agreeing (removalKeys names stem live)
  | get | getRaw | getOr | getAs | getRecord | getRange | delta | getHistory | dump | describe
  | flush | close => exact Agreeing.nil

theorem writes_of_error {request : Request} {live : Table String String} {error : StoreError}
    (failure : (request.plan live).1 = .error error) : request.writes live = [] := by
  cases request with
  | setDatum key datum =>
      simp only [writes, plan, Bind.bind, Plan.bind, datumPlan] at failure ⊢
      cases read : datum.toValue with
      | ok value =>
          rw [read] at failure
          cases failure
      | error cause => rfl
  | set | update | unset | unsetRange => cases failure
  | get | getRaw | getOr | getAs | getRecord | getRange | delta | getHistory | dump | describe
  | flush | close => rfl

/-! ## Looking -/

theorem history_entries_ordinarily (key : String) (deserialize : Bool)
    (rows : List (Int × Option String × HookRow)) :
    Ordinarily (historyEntries key deserialize rows) := by
  induction rows with
  | nil => exact Ordinarily.of_ok []
  | cons row later hypothesis =>
      obtain ⟨revision, data, hook⟩ := row
      have dataOrdinary : Ordinarily (historyData deserialize data) := by
        cases data with
        | none => exact Ordinarily.of_ok HistoryData.deleted
        | some text =>
            cases deserialize with
            | false => exact Ordinarily.of_ok _
            | true => exact (decode_ordinarily Value.parse text).map HistoryData.value
      exact dataOrdinary.bind fun _ => hypothesis.bind fun _ => Ordinarily.of_ok _

theorem get_record_ordinarily (store : Store) (key : String) :
    Ordinarily (store.getRecord key) := by
  refine ((get_with_looks_at_live Value.parse key).ordinarily store).bind fun value => ?_
  cases value with
  | none => exact Ordinarily.of_ok none
  | some value =>
      simp only
      cases Record.ofValue value with
      | ok record => exact Ordinarily.of_ok _
      | error _ => exact Ordinarily.of_error ⟨nofun, nofun⟩

theorem kind_of_reads {request : Request} (reading : request.reads = true) :
    request.kind = .look := by
  unfold reads at reading
  split at reading
  · cases reading
  · exact of_decide_eq_true reading

theorem look_keeps {request : Request} (look : request.kind = .look) (store : Store) :
    (request.answer store).2 = store := by
  cases request with
  | getRecord key fields =>
      simp only [answer, Attempt.inspect_bind]
      cases store.getRecord key <;> rfl
  | get | getRaw | getOr | getAs | getRange | delta | getHistory | dump =>
      simp only [answer, Attempt.map_run, Attempt.inspect]
  | describe => rfl
  | flush save => cases save <;> cases look
  | set | setDatum | update | unset | unsetRange | close => cases look

theorem look_ordinarily {request : Request} (look : request.kind = .look) (store : Store) :
    Ordinarily (request.answer store).1 := by
  have asked : ∀ {Result : Type} {look : Store → Except StoreError Result}
      (change : Result → Reply), Ordinarily (look store) →
        Ordinarily ((change <$> Attempt.inspect look : Action Reply) store).1 := by
    intro Result look change ordinary
    rw [Attempt.map_run]
    exact ordinary.map change
  cases request with
  | get key => exact asked _ ((get_with_looks_at_live Value.parse key).ordinarily store)
  | getRaw key => exact asked _ ((get_raw_looks_at_live key).ordinarily store)
  | getOr key default =>
      have found := (get_with_looks_at_live Value.parse key).ordinarily store
      exact asked _ (found.bind fun _ => Ordinarily.of_ok _)
  | getAs key shape => exact asked _ ((get_with_looks_at_live shape.read key).ordinarily store)
  | getRecord key fields =>
      simp only [answer, Attempt.inspect_bind]
      have ordinary := get_record_ordinarily store key
      cases found : store.getRecord key with
      | error error => exact Ordinarily.of_error (ordinary error found)
      | ok record => exact Ordinarily.of_ok _
  | getRange stem strip =>
      exact asked _ ((get_range_looks_at_live stem strip).ordinarily store)
  | delta mapping stem => exact asked _ ((delta_looks_at_live mapping stem).ordinarily store)
  | getHistory key deserialize =>
      exact asked _ ((view_ordinarily store Schema.historyTable).bind fun database =>
        history_entries_ordinarily key deserialize (database.historyOf key))
  | dump =>
      exact asked _ ((view_ordinarily store Schema.liveTable).bind fun _ => Ordinarily.of_ok _)
  | describe => exact Ordinarily.of_ok _
  | flush save => cases save <;> cases look
  | set | setDatum | update | unset | unsetRange | close => cases look

theorem read_eq_of_view_eq {request : Request} (reading : request.reads = true)
    {store other : Store} (same : ∀ table, store.view table = other.view table) :
    (request.answer store).1 = (request.answer other).1 := by
  have sameRaw : ∀ key, store.getRaw key = other.getRaw key := by
    intro key
    unfold Store.getRaw
    rw [same]
  have sameWith : ∀ {Result : Type} (read : String → Except Fault Result) key,
      store.getWith read key = other.getWith read key := by
    intro Result read key
    unfold Store.getWith
    rw [sameRaw]
  have sameRange : ∀ stem strip, store.getRange stem strip = other.getRange stem strip := by
    intro stem strip
    unfold Store.getRange
    rw [same]
  cases request with
  | getRecord key fields =>
      have found : store.getRecord key = other.getRecord key := by
        simp only [Store.getRecord, Store.get, sameWith]
      simp only [answer, Attempt.inspect_bind, found]
      cases other.getRecord key <;> rfl
  | getRaw | get | getOr | getAs | getRange | delta | getHistory | dump =>
      simp only [answer, Attempt.map_run, Attempt.inspect, Store.get, Store.getOr, Store.getAs,
        Store.delta, Store.getHistory, Store.dump, sameRaw, sameWith, sameRange, same]
  | flush save => cases save <;> cases reading
  | set | setDatum | update | unset | unsetRange | close | describe => cases reading

theorem writes_of_kind_ne {request : Request} (silent : request.kind ≠ .write)
    (live : Table String String) : request.writes live = [] := by
  cases request with
  | set | setDatum | update | unset | unsetRange => exact absurd rfl silent
  | get | getRaw | getOr | getAs | getRecord | getRange | delta | getHistory | dump | describe
  | flush | close => rfl

end Request

/-! ## Operations -/

inductive Outcome where
  | reply (reply : Reply)
  | entered (revision : Int) (changes : HookChanges)
  | done

inductive Operation where
  | ask (request : Request)
  | enter (entry : Entry)
  | leave (ending : GuardEnd)

def Kind.ends : Kind → Bool
  | commit | discard => true
  | look | write | enter => false

namespace Operation

open Store

def kind : Operation → Kind
  | ask request => request.kind
  | enter _ => .enter
  | leave .commit => .commit
  | leave .rollback | leave .drop => .discard
  | leave .detach => .look

def action : Operation → Action Outcome
  | ask request => Outcome.reply <$> request.answer
  | enter entry => (fun entered => .entered entered.1 entered.2) <$> Store.enter entry
  | leave ending => (fun _ => .done) <$> Store.endGuard ending

def writes (operation : Operation) (live : Table String String) : List Write :=
  match operation with
  | ask request => request.writes live
  | enter _ | leave _ => []

def remainder (operation : Operation) (handle : Handle) : Handle :=
  match operation with
  | ask .close => { handle with connection := .closed, revision := none }
  | _ =>
      { handle with
        connection := if handle.isClosed then .closed else .idle
        revision := none }

theorem writes_agreeing (operation : Operation) (live : Table String String) :
    Agreeing (operation.writes live) := by
  cases operation with
  | ask request => exact request.writes_agreeing live
  | enter | leave => exact Agreeing.nil

theorem writes_of_kind_ne {operation : Operation} (silent : operation.kind ≠ .write)
    (live : Table String String) : operation.writes live = [] := by
  cases operation with
  | ask request => exact Request.writes_of_kind_ne silent live
  | enter | leave => rfl

theorem eq_ask_of_write {operation : Operation} (writing : operation.kind = .write) :
    ∃ request, operation = ask request ∧ request.kind = .write := by
  cases operation with
  | ask request => exact ⟨request, rfl, writing⟩
  | enter => cases writing
  | leave ending => cases ending <;> cases writing

theorem eq_enter_of_enter {operation : Operation} (entering : operation.kind = .enter) :
    ∃ entry, operation = enter entry := by
  cases operation with
  | ask request =>
      cases request with
      | flush save => cases save <;> cases entering
      | _ => cases entering
  | enter entry => exact ⟨entry, rfl⟩
  | leave ending => cases ending <;> cases entering

/-- A look changes nothing, in whatever condition the store is. -/
theorem look_spec {operation : Operation} (look : operation.kind = .look) (store : Store) :
    (operation.action store).2 = store ∧ Ordinarily (operation.action store).1 := by
  cases operation with
  | ask request =>
      rw [action, Attempt.map_run]
      exact ⟨Request.look_keeps look store, (Request.look_ordinarily look store).map _⟩
  | enter => cases look
  | leave ending =>
      cases ending with
      | detach => exact ⟨rfl, Ordinarily.of_ok _⟩
      | commit | rollback | drop => cases look

/-- Inside a scope whatever does not end it writes to the contents of the scope only. -/
theorem in_scope {operation : Operation} (stays : operation.kind.ends = false) (store : Store)
    (revision : Int) {pending : Database} (known : pending.hooks.contains revision = true) :
    ∃ result, Ordinarily result ∧
      operation.action (store.inScope revision pending) =
        (result,
          store.inScope revision
            (pending.assignAll (some revision) (operation.writes pending.live))) := by
  cases kind : operation.kind with
  | look =>
      obtain ⟨kept, ordinary⟩ := look_spec kind (store.inScope revision pending)
      refine ⟨_, ordinary, Prod.ext rfl ?_⟩
      rw [writes_of_kind_ne (by simp [kind])]
      exact kept
  | write =>
      obtain ⟨request, rfl, writing⟩ := eq_ask_of_write kind
      have follows := Request.answer_follows writing
      refine ⟨Outcome.reply <$> (request.plan pending.live).1,
        (follows.ordinary pending.live).map _, ?_⟩
      rw [action, Attempt.map_run, follows.inScope store revision pending known]
      rfl
  | enter =>
      obtain ⟨entry, rfl⟩ := eq_enter_of_enter kind
      refine ⟨.error (.scopeActive revision), Ordinarily.of_error ⟨nofun, nofun⟩, ?_⟩
      rw [action, Attempt.map_run, enter_in_scope]
      rfl
  | commit => simp [kind, Kind.ends] at stays
  | discard => simp [kind, Kind.ends] at stays

theorem write_free {operation : Operation} (writing : operation.kind = .write) {store : Store}
    (free : store.Free) :
    ∃ result, Ordinarily result ∧
      operation.action store =
        (result,
          store.withContents
            (store.file.contents.assignAll none (operation.writes store.file.contents.live))) ∧
      ∀ error, result = .error error → operation.writes store.file.contents.live = [] := by
  obtain ⟨request, rfl, writing⟩ := eq_ask_of_write writing
  have follows := Request.answer_follows writing
  refine ⟨Outcome.reply <$> (request.plan store.file.contents.live).1,
    (follows.ordinary store.file.contents.live).map _, ?_, fun error failure => ?_⟩
  · rw [action, Attempt.map_run, follows.free store free]
    rfl
  · cases planned : (request.plan store.file.contents.live).1 with
    | error cause => exact Request.writes_of_error planned
    | ok reply =>
        rw [planned] at failure
        cases failure

theorem enter_free (entry : Entry) {store : Store} (free : store.Free) :
    (enter entry).action store =
      match entry.opening store.file.contents with
      | .error error => (.error error, store)
      | .ok opening =>
          (.ok (.entered opening.revision opening.changes),
            store.locked.inScope opening.revision opening.pending) := by
  rw [action, Attempt.map_run, Store.enter_free free]
  cases entry.opening store.file.contents <;> rfl

/-- A barred store changes nothing, and refuses every write that has something to change. -/
theorem barred {operation : Operation} (stays : operation.kind.ends = false) {store : Store}
    (barred : store.Barred) :
    (operation.action store).2 = store ∧ Ordinarily (operation.action store).1 ∧
      ∀ outcome, (operation.action store).1 = .ok outcome →
        operation.kind ≠ .enter ∧
          store.file.contents.live.Has (operation.writes store.file.contents.live) := by
  cases kind : operation.kind with
  | look =>
      obtain ⟨kept, ordinary⟩ := look_spec kind store
      refine ⟨kept, ordinary, fun outcome _ => ⟨nofun, ?_⟩⟩
      rw [writes_of_kind_ne (by simp [kind])]
      exact Table.has_nil _
  | write =>
      obtain ⟨request, rfl, writing⟩ := eq_ask_of_write kind
      obtain ⟨kept, ordinary, reached⟩ := (Request.answer_follows writing).barred store barred
      rw [action, Attempt.map_run]
      refine ⟨kept, ordinary.map _, fun outcome success => ⟨nofun, ?_⟩⟩
      cases answered : (request.answer store).1 with
      | error error =>
          rw [answered] at success
          cases success
      | ok reply => exact (reached reply answered).2
  | enter =>
      obtain ⟨entry, rfl⟩ := eq_enter_of_enter kind
      obtain ⟨error, ordinary, refused⟩ := enter_barred barred entry
      apply Store.refused ordinary
      rw [action, Attempt.map_run, refused]
      rfl
  | commit => simp [kind, Kind.ends] at stays
  | discard => simp [kind, Kind.ends] at stays

theorem commit_in_scope {operation : Operation} (commits : operation.kind = .commit)
    (store : Store) (revision : Int) (pending : Database) :
    ∃ outcome, operation.action (store.inScope revision pending) =
      (.ok outcome,
        ⟨operation.remainder (store.inScope revision pending).handle,
          { store.file with contents := pending, locked := false }⟩) := by
  cases operation with
  | ask request =>
      cases request with
      | flush save =>
          cases save with
          | true => exact ⟨_, rfl⟩
          | false => cases commits
      | _ => cases commits
  | enter => cases commits
  | leave ending =>
      cases ending with
      | commit => exact ⟨_, rfl⟩
      | rollback | drop | detach => cases commits

theorem discard_in_scope {operation : Operation} (discards : operation.kind = .discard)
    (store : Store) (revision : Int) (pending : Database) :
    ∃ outcome, operation.action (store.inScope revision pending) =
      (.ok outcome,
        ⟨operation.remainder (store.inScope revision pending).handle,
          { store.file with locked := false }⟩) := by
  cases operation with
  | ask request =>
      cases request with
      | flush save =>
          cases save with
          | true => cases discards
          | false => exact ⟨_, rfl⟩
      | close => exact ⟨_, rfl⟩
      | _ => cases discards
  | enter => cases discards
  | leave ending =>
      cases ending with
      | rollback | drop => exact ⟨_, rfl⟩
      | commit | detach => cases discards

theorem end_outside {operation : Operation} (ends : operation.kind.ends = true) {store : Store}
    (outside : store.handle.revision = none)
    (idle : ∀ pending, store.handle.connection ≠ .writing pending) :
    ∃ outcome, operation.action store =
      (.ok outcome, ⟨operation.remainder store.handle, store.file⟩) := by
  obtain ⟨⟨location, readOnly, connection, revision⟩, file⟩ := store
  simp only at outside
  subst outside
  cases connection with
  | writing pending => exact absurd rfl (idle pending)
  | closed | idle =>
      cases operation with
      | ask request =>
          cases request with
          | flush save => cases save <;> exact ⟨_, rfl⟩
          | close => exact ⟨_, rfl⟩
          | _ => cases ends
      | enter => cases ends
      | leave ending =>
          cases ending with
          | commit | rollback | drop => exact ⟨_, rfl⟩
          | detach => cases ends

end Operation

end UnitState
