import UnitState.Proofs.DurableFiles

/-!
# Lock conflicts

While a store has a scope open, the other stores on the file are as if it had none, until they
have something to write. A removal is always a write; a text is written unless it is there
already. What has to write is refused as a conflict with the lock, before anything is done. The
exception is the opening of a store on a file with no schema version: to record the version is a
write, too, but its refusal is told as an error of the schema, and does not count as a conflict.
-/

set_option autoImplicit false

namespace UnitState

open Json

/-! ## What has to write -/

/-- Whether some of the writes has to be carried out where these live texts are found. -/
def Write.NeedLock (writes : List Write) (live : Table String String) : Prop :=
  ∃ write ∈ writes, write.data = none ∨ live.get? write.key ≠ write.data

namespace Write

variable {writes later : List Write} {live : Table String String}

theorem not_need_lock_nil : ¬NeedLock [] live := by
  rintro ⟨write, member, _⟩
  cases member

theorem need_lock_append :
    NeedLock (writes ++ later) live ↔ NeedLock writes live ∨ NeedLock later live := by
  simp only [NeedLock, List.mem_append, or_and_right, exists_or]

theorem need_lock_text {key text : String} :
    NeedLock [⟨key, some text⟩] live ↔ live.get? key ≠ some text := by
  simp [NeedLock]

theorem need_lock_removals {keys : List String} :
    NeedLock (Store.removalWrites keys) live ↔ keys ≠ [] := by
  cases keys with
  | nil => exact iff_of_false not_need_lock_nil (not_not.2 rfl)
  | cons key later =>
      have removal : NeedLock (Store.removalWrites (key :: later)) live :=
        ⟨_, List.mem_cons_self, .inl rfl⟩
      exact iff_of_true removal (List.cons_ne_nil key later)

theorem has_of_not_need_lock (spared : ¬NeedLock writes live) : live.Has writes := by
  intro write member
  by_contra different
  exact spared ⟨write, member, .inr different⟩

end Write

namespace Request

def NeedsLock (request : Request) (live : Table String String) : Prop :=
  match request with
  | set key value => live.get? key ≠ some value.storedText
  | setDatum key datum => ∃ value, datum.toValue = .ok value ∧ live.get? key ≠ some value.compact
  | update mapping stem =>
      ∃ key value, mapping.get? key = some value ∧
        live.get? (stem ++ key) ≠ some value.storedText
  | unset _ => True
  | unsetRange (some names) _ => names ≠ []
  | unsetRange none stem =>
      ∃ key text, live.get? key = some text ∧ Database.startsWith stem key = true
  | _ => False

theorem needs_lock_iff {request : Request} {live : Table String String} :
    request.NeedsLock live ↔ Write.NeedLock (request.writes live) live := by
  cases request with
  | set key value => exact Write.need_lock_text.symm
  | setDatum key datum =>
      rw [writes, plan, Plan.writes_bind_pure, Store.datumPlan]
      cases read : datum.toValue with
      | ok value => simp [NeedsLock, read, Plan.carryOut, Write.need_lock_text]
      | error cause => simp [NeedsLock, read, Plan.ofExcept, Write.not_need_lock_nil]
  | update mapping stem =>
      rw [writes, plan, Plan.writes_bind_pure]
      simp only [NeedsLock, Plan.carryOut, Write.NeedLock, Store.updateWrites, List.mem_map,
        Table.get?_eq_some_iff]
      constructor
      · rintro ⟨key, value, member, different⟩
        exact ⟨_, ⟨(key, value), member, rfl⟩, .inr different⟩
      · rintro ⟨_, ⟨⟨key, value⟩, member, rfl⟩, nothing | different⟩
        · cases nothing
        · exact ⟨key, value, member, different⟩
  | unset key =>
      have removal : Write.NeedLock [⟨key, none⟩] live := ⟨_, List.mem_singleton_self _, .inl rfl⟩
      exact iff_of_true trivial removal
  | unsetRange names stem =>
      rw [writes, plan, Plan.writes_bind_pure, Store.removalPlan, Write.need_lock_removals]
      cases names with
      | some names => simp [NeedsLock, Store.removalKeys]
      | none =>
          simp only [NeedsLock, Store.removalKeys, ne_eq, List.map_eq_nil_iff,
            List.filter_eq_nil_iff, not_forall, not_not, Table.get?_eq_some_iff]
          constructor
          · rintro ⟨key, text, member, starts⟩
            exact ⟨(key, text), member, starts⟩
          · rintro ⟨⟨key, text⟩, member, starts⟩
            exact ⟨key, text, member, starts⟩
  | get | getRaw | getOr | getAs | getRecord | getRange | delta | getHistory | dump | describe
  | flush | close => exact iff_of_false id Write.not_need_lock_nil

theorem not_needs_lock_of_kind {request : Request} (silent : request.kind ≠ .write)
    (live : Table String String) : ¬request.NeedsLock live := by
  rw [needs_lock_iff, writes_of_kind_ne silent]
  exact Write.not_need_lock_nil

end Request

def Operation.NeedsLock (operation : Operation) (live : Table String String) : Prop :=
  match operation with
  | .ask request => request.NeedsLock live
  | .enter _ => True
  | .leave _ => False

namespace Store

/-! ## Actions at a bar -/

/-- What an action does at a store that is out of a scope, where something stands against
writing: it comes to a halt at the first write that has to be carried out. -/
structure AtBar {Result : Type} (action : Action Result) (plan : Plan Result) : Prop where
  refused : ∀ {store : Store} {contents : Database} {fault : EngineFault},
    store.handle.Outside → store.view Schema.liveTable = .ok contents →
      store.bar? = some fault → Write.NeedLock (plan contents.live).2 contents.live →
        action store = (.error (.engine fault), store)
  spared : ∀ {store : Store} {contents : Database} {fault : EngineFault},
    store.handle.Outside → store.view Schema.liveTable = .ok contents →
      store.bar? = some fault → ¬Write.NeedLock (plan contents.live).2 contents.live →
        action store = ((plan contents.live).1, store)
  /-- Where the live texts cannot be read, nothing else matters. -/
  hidden : ∀ error, ∃ result, ∀ store : Store, store.handle.Outside →
    store.view Schema.liveTable = .error error → action store = (result, store)

namespace AtBar

variable {Result Other : Type}

theorem of_except (result : Except StoreError Result) :
    AtBar (Attempt.ofExcept result : Action Result) (Plan.ofExcept result) where
  refused _ _ _ needed := absurd needed Write.not_need_lock_nil
  spared _ _ _ _ := rfl
  hidden _ := ⟨result, fun _ _ _ => rfl⟩

theorem pure (result : Result) : AtBar (pure result : Action Result) (pure result : Plan Result) :=
  of_except (.ok result)

theorem congr {action : Action Result} {plan other : Plan Result} (stops : AtBar action plan)
    (same : ∀ live, plan live = other live) : AtBar action other := by
  have equal : plan = other := funext same
  exact equal ▸ stops

theorem bind {first : Action Result} {firstPlan : Plan Result} {next : Result → Action Other}
    {nextPlan : Result → Plan Other} (firstStops : AtBar first firstPlan)
    (nextStops : ∀ result, AtBar (next result) (nextPlan result)) :
    AtBar (first >>= next) (firstPlan >>= nextPlan) where
  refused {store contents fault} outside visible bar needed := by
    by_cases early : Write.NeedLock (firstPlan contents.live).2 contents.live
    · exact Attempt.bind_error (firstStops.refused outside visible bar early)
    · have ran := firstStops.spared outside visible bar early
      cases planned : firstPlan contents.live with
      | mk result writes =>
          rw [planned] at early ran
          cases result with
          | error error =>
              rw [Plan.bind_error planned] at needed
              exact absurd needed early
          | ok result =>
              rw [Plan.bind_ok planned,
                Table.change_all_present (Write.has_of_not_need_lock early)] at needed
              have late := (Write.need_lock_append.1 needed).resolve_left early
              rw [Attempt.bind_ok ran]
              exact (nextStops result).refused outside visible bar late
  spared {store contents fault} outside visible bar spared := by
    cases planned : firstPlan contents.live with
    | mk result writes =>
        have ran := @firstStops.spared store contents fault outside visible bar
        rw [planned] at ran
        cases result with
        | error error =>
            rw [Plan.bind_error planned] at spared ⊢
            exact Attempt.bind_error (ran spared)
        | ok result =>
            have early : ¬Write.NeedLock writes contents.live := by
              intro needed
              apply spared
              rw [Plan.bind_ok planned]
              exact Write.need_lock_append.2 (.inl needed)
            rw [Plan.bind_ok planned,
              Table.change_all_present (Write.has_of_not_need_lock early)] at spared ⊢
            have late := fun needed => spared (Write.need_lock_append.2 (.inr needed))
            rw [Attempt.bind_ok (ran early)]
            exact (nextStops result).spared outside visible bar late
  hidden error := by
    obtain ⟨result, ran⟩ := firstStops.hidden error
    cases result with
    | error cause =>
        exact ⟨_, fun store outside unseen => Attempt.bind_error (ran store outside unseen)⟩
    | ok result =>
        obtain ⟨other, further⟩ := (nextStops result).hidden error
        refine ⟨other, fun store outside unseen => ?_⟩
        rw [Attempt.bind_ok (ran store outside unseen)]
        exact further store outside unseen

theorem inspect {look : Store → Except StoreError Result} (looks : LooksAtLive look) :
    AtBar (Attempt.inspect look) (Plan.look look) where
  refused _ _ _ needed := absurd needed Write.not_need_lock_nil
  spared _ visible _ _ := Prod.ext (looks.seen visible) rfl
  hidden error := by
    refine ⟨.error error, fun store _ unseen => Prod.ext ?_ rfl⟩
    simp only [Attempt.inspect, looks.through store, unseen]
    rfl

end AtBar

theorem set_text_at_bar (key text : String) :
    AtBar (setText key text) (Plan.carryOut [⟨key, some text⟩]) where
  refused outside visible bar needed := by
    rw [set_text_outside outside, visible, bar]
    exact if_neg (Write.need_lock_text.1 needed)
  spared outside visible _ spared := by
    rw [set_text_outside outside, visible]
    exact if_pos (not_not.1 (mt Write.need_lock_text.2 spared))
  hidden error := by
    refine ⟨.error error, fun store outside unseen => ?_⟩
    rw [set_text_outside outside, unseen]

theorem unset_at_bar (key : String) :
    AtBar (unset key) fun live => (.ok (live.contains key), [⟨key, none⟩]) where
  refused outside visible bar _ := by
    rw [unset_outside outside, visible]
    simp only [bar]
  spared _ _ _ spared := absurd ⟨_, List.mem_singleton_self _, .inl rfl⟩ spared
  hidden error := by
    refine ⟨.error error, fun store outside unseen => ?_⟩
    rw [unset_outside outside, unseen]

theorem update_at_bar (mapping : Object) (stem : String) :
    AtBar (update mapping stem) (Plan.carryOut (updateWrites mapping stem)) := by
  unfold update updateWrites
  induction mapping.entries with
  | nil => exact AtBar.pure ()
  | cons binding later hypothesis =>
      exact (set_text_at_bar (stem ++ binding.1) binding.2.storedText).bind fun _ => hypothesis

theorem set_datum_at_bar (key : String) (datum : Datum) :
    AtBar (setDatum key datum) (datumPlan key datum) := by
  unfold setDatum datumPlan
  cases datum.toValue with
  | ok value => exact set_text_at_bar key value.compact
  | error cause => exact AtBar.of_except (.error (.serialization (.unplaced cause)))

theorem unset_all_at_bar (keys : List String) :
    AtBar (unsetAll keys) fun live => (.ok (removals keys live), removalWrites keys) := by
  induction keys with
  | nil => exact AtBar.pure 0
  | cons key later hypothesis =>
      have whole := (unset_at_bar key).bind fun present =>
        hypothesis.bind fun count => AtBar.pure (if present then count + 1 else count)
      refine whole.congr fun live => ?_
      simp only [Bind.bind, Plan.bind, Pure.pure, Plan.pure, removals, removalWrites,
        List.append_nil]
      split <;> rfl

theorem unset_range_at_bar (names : Option (List String)) (stem : String) :
    AtBar (unsetRange names stem) (removalPlan names stem) := by
  cases names with
  | some names => exact unset_all_at_bar (names.map (stem ++ ·))
  | none =>
      rw [unset_range_none]
      exact (AtBar.inspect (range_keys_look_at_live stem)).bind unset_all_at_bar

theorem answer_at_bar {request : Request} (writing : request.kind = .write) :
    AtBar request.answer request.plan := by
  cases request with
  | set key value => exact (set_text_at_bar key value.storedText).bind fun _ => AtBar.pure _
  | setDatum key datum => exact (set_datum_at_bar key datum).bind fun _ => AtBar.pure _
  | update mapping stem => exact (update_at_bar mapping stem).bind fun _ => AtBar.pure _
  | unset key =>
      have stops := (unset_at_bar key).bind fun present => AtBar.pure (Reply.flag present)
      exact stops.congr fun live => rfl
  | unsetRange names stem =>
      exact (unset_range_at_bar names stem).bind fun count => AtBar.pure (Reply.count count)
  | flush save => cases save <;> cases writing
  | get | getRaw | getOr | getAs | getRecord | getRange | delta | getHistory | dump | describe
  | close => cases writing

/-! ## Stores under the lock of another -/

def released (store : Store) : Store := { store with file.locked := false }

theorem view_released (store : Store) (table : String) :
    store.released.view table = store.view table := rfl

structure LockedOut (store : Store) : Prop where
  outside : store.handle.Outside
  readable : ∃ contents, store.view Schema.liveTable = .ok contents
  writable : store.handle.readOnly = false
  locked : store.file.locked = true

namespace LockedOut

variable {store : Store}

theorem bar (out : store.LockedOut) : store.bar? = some .locked := by
  simp only [bar_writable out.writable, out.locked, if_true]

theorem view (out : store.LockedOut) :
    store.view Schema.liveTable = .ok store.file.contents := by
  obtain ⟨contents, visible⟩ := out.readable
  rw [visible, (view_outside out.outside visible).2]

theorem released_free (out : store.LockedOut) : store.released.Free := by
  have visible := out.view
  have idle := (view_outside out.outside visible).1
  refine ⟨idle, out.outside.revision, out.writable, ?_, rfl⟩
  unfold Store.view at visible
  simp only [idle] at visible
  split at visible
  · assumption
  · cases visible

theorem begin_scope_refused (out : store.LockedOut) (row : HookRow) :
    beginScope row store = (.error (.engine .locked), store) := by
  have idle := (view_outside out.outside out.view).1
  simp only [beginScope, out.outside.revision, idle, out.locked, out.writable,
    Bool.false_eq_true, not_false_eq_true, and_self, if_true]

theorem enter_refused (out : store.LockedOut) (entry : Entry) :
    enter entry store = (.error (.engine .locked), store) := by
  simp only [enter, out.begin_scope_refused]

theorem refused (out : store.LockedOut) {operation : Operation}
    (needed : operation.NeedsLock store.file.contents.live) :
    operation.action store = (.error (.engine .locked), store) := by
  cases operation with
  | ask request =>
      have writing : request.kind = .write := by
        by_contra silent
        exact request.not_needs_lock_of_kind silent _ needed
      have stopped := (answer_at_bar writing).refused out.outside out.view out.bar
        (request.needs_lock_iff.1 needed)
      rw [Operation.action, Attempt.map_run, stopped]
      rfl
  | enter entry =>
      rw [Operation.action, Attempt.map_run, out.enter_refused]
      rfl
  | leave ending => exact needed.elim

theorem spared (out : store.LockedOut) {request : Request} (writing : request.kind = .write)
    (spared : ¬request.NeedsLock store.file.contents.live) :
    request.answer store = ((request.plan store.file.contents.live).1, store) ∧
      request.answer store.released =
        ((request.plan store.file.contents.live).1, store.released) := by
  rw [request.needs_lock_iff] at spared
  constructor
  · exact (answer_at_bar writing).spared out.outside out.view out.bar spared
  · have carried := (Request.answer_follows writing).free store.released out.released_free
    have present := Database.assign_all_present store.file.contents none
      (Write.has_of_not_need_lock spared)
    rw [carried]
    exact congrArg (Prod.mk _) (congrArg store.released.withContents present)

end LockedOut

/-- Whether an operation comes to the same with the lock and without it. -/
def Indifferent (operation : Operation) (store : Store) : Prop :=
  operation.action store.released =
    ((operation.action store).1, (operation.action store).2.released)

section Outside

variable {store : Store}

theorem look_indifferent {operation : Operation} (look : operation.kind = .look) :
    Indifferent operation store := by
  have kept := (Operation.look_spec look store).1
  have keptReleased := (Operation.look_spec look store.released).1
  refine Prod.ext ?_ (by rw [kept, keptReleased])
  cases operation with
  | ask request =>
      rw [Operation.action, Attempt.map_run, Attempt.map_run]
      cases reads : request.reads with
      | true => rw [Request.read_eq_of_view_eq reads (view_released store)]
      | false =>
          cases request with
          | describe => rfl
          | flush save => cases save <;> cases look
          | get | getRaw | getOr | getAs | getRecord | getRange | delta | getHistory | dump =>
              cases reads
          | set | setDatum | update | unset | unsetRange | close => cases look
  | enter => cases look
  | leave ending =>
      cases ending with
      | detach => rfl
      | commit | rollback | drop => cases look

variable (outside : store.handle.Outside)

include outside

theorem end_indifferent {operation : Operation} (ends : operation.kind.ends = true) :
    Indifferent operation store := by
  have flushed (save : Bool) := flush_outside outside save
  have without : store.released.handle.Outside := outside
  have flushedReleased (save : Bool) := flush_outside without save
  have closed (store : Store) (outside : store.handle.Outside) :
      close store = (.ok (), { store with handle.connection := .closed }) := by
    rw [close, Attempt.bind_ok (flush_outside outside false)]
    rfl
  unfold Indifferent
  cases operation with
  | ask request =>
      cases request with
      | flush save =>
          simp only [Operation.action, Request.answer, Attempt.map_run, flushed, flushedReleased]
      | close =>
          simp only [Operation.action, Request.answer, Attempt.map_run, closed store outside,
            closed store.released without]
          rfl
      | _ => cases ends
  | enter => cases ends
  | leave ending =>
      cases ending with
      | commit | rollback | drop =>
          simp only [Operation.action, endGuard, Attempt.map_run, flushed, flushedReleased]
      | detach => cases ends

variable (locked : store.file.locked = true)

include locked

/-- Where it is not for the lock alone that a store cannot write, the lock makes no difference to
what a request comes to. -/
theorem write_shows_lock {request : Request} (writing : request.kind = .write) :
    (request.NeedsLock store.file.contents.live ∧ store.LockedOut) ∨
      Indifferent (.ask request) store := by
  have stops := answer_at_bar writing
  have outsideReleased : store.released.handle.Outside := outside
  have same : ∀ result, request.answer store = (result, store) →
      request.answer store.released = (result, store.released) →
        Indifferent (.ask request) store := by
    intro result ran without
    simp only [Indifferent, Operation.action, Attempt.map_run, ran, without]
  cases visible : store.view Schema.liveTable with
  | error error =>
      obtain ⟨result, ran⟩ := stops.hidden error
      have barred := ran store outside visible
      exact .inr (same result barred (ran store.released outsideReleased visible))
  | ok contents =>
      have committed := (view_outside outside visible).2
      subst committed
      cases writable : store.handle.readOnly with
      | true =>
          have bar : store.bar? = some .readOnly := if_pos writable
          have barReleased : store.released.bar? = some .readOnly := if_pos writable
          right
          by_cases needed : Write.NeedLock (request.plan store.file.contents.live).2
              store.file.contents.live
          · exact same _ (stops.refused outside visible bar needed)
              (stops.refused outsideReleased visible barReleased needed)
          · exact same _ (stops.spared outside visible bar needed)
              (stops.spared outsideReleased visible barReleased needed)
      | false =>
          have out : store.LockedOut := ⟨outside, ⟨_, visible⟩, writable, locked⟩
          by_cases needed : request.NeedsLock store.file.contents.live
          · exact .inl ⟨needed, out⟩
          · obtain ⟨ran, without⟩ := out.spared writing needed
            exact .inr (same _ ran without)

theorem begin_scope_shows_lock (row : HookRow) :
    beginScope row store = (.error (.engine .locked), store) ∨
      ∃ error, beginScope row store = (.error error, store) ∧
        beginScope row store.released = (.error error, store.released) := by
  have revision : store.released.handle.revision = none := outside.revision
  unfold beginScope
  simp only [outside.revision, revision]
  cases connection : store.handle.connection with
  | closed =>
      have same : store.released.handle.connection = .closed := connection
      simp only [same]
      exact .inr ⟨.closed, rfl, rfl⟩
  | writing pending => exact absurd connection (outside.idle pending)
  | idle =>
      have same : store.released.handle.connection = .idle := connection
      simp only [same]
      cases readOnly : store.handle.readOnly with
      | false =>
          simp only [locked, Bool.false_eq_true, not_false_eq_true, and_self, if_true]
          exact .inl trivial
      | true =>
          have sameMode : store.released.handle.readOnly = true := readOnly
          have sameTables : store.released.file.hasTables = store.file.hasTables := rfl
          simp only [sameMode, sameTables, not_true_eq_false, and_false, if_false]
          right
          cases store.file.hasTables with
          | false => exact ⟨.engine (.noTable Schema.hookTable), rfl, rfl⟩
          | true => exact ⟨.engine .readOnly, rfl, rfl⟩

theorem enter_shows_lock (entry : Entry) :
    enter entry store = (.error (.engine .locked), store) ∨
      ∃ error, enter entry store = (.error error, store) ∧
        enter entry store.released = (.error error, store.released) := by
  rcases begin_scope_shows_lock outside locked entry.row with refused | ⟨error, ran, without⟩
  · left
    simp only [enter, refused]
  · right
    exact ⟨error, by simp only [enter, ran], by simp only [enter, without]⟩

/-- Whether a run inside a scope fails at once, and for the lock if it is for the lock alone. -/
def FailsAtOnce {Result : Type} (run : Body Store StoreError Result) (store : Store) : Prop :=
  ∃ error, run store = (.failed error, store) ∧
    (error.isLocked = true ∨ run store.released = (.failed error, store.released))

theorem within_fails_at_once {Result : Type} (entry : Entry)
    (body : Int → HookChanges → Body Store StoreError Result) :
    FailsAtOnce (within entry body) store := by
  rcases enter_shows_lock outside locked entry with refused | ⟨error, ran, without⟩
  · exact ⟨.engine .locked, within_refused refused body, .inl rfl⟩
  · exact ⟨error, within_refused ran body, .inr (within_refused without body)⟩

theorem operation_shows_lock (operation : Operation) :
    (operation.NeedsLock store.file.contents.live ∧
      operation.action store = (.error (.engine .locked), store)) ∨
        Indifferent operation store := by
  cases kind : operation.kind with
  | look => exact .inr (look_indifferent kind)
  | commit => exact .inr (end_indifferent outside (by rw [kind]; rfl))
  | discard => exact .inr (end_indifferent outside (by rw [kind]; rfl))
  | write =>
      obtain ⟨request, rfl, writing⟩ := Operation.eq_ask_of_write kind
      refine (write_shows_lock outside locked writing).imp_left fun ⟨needed, out⟩ => ?_
      exact ⟨needed, out.refused needed⟩
  | enter =>
      obtain ⟨entry, rfl⟩ := Operation.eq_enter_of_enter kind
      rcases enter_shows_lock outside locked entry with refused | ⟨error, ran, without⟩
      · left
        refine ⟨trivial, ?_⟩
        rw [Operation.action, Attempt.map_run, refused]
        rfl
      · right
        simp only [Indifferent, Operation.action, Attempt.map_run, ran, without]

end Outside

structure Keeps (store : Store) (live : Table String String) : Prop where
  set : ∀ key value, live.get? key = some value.storedText →
    Store.set key value store = (.ok (), store)
  update : ∀ mapping stem,
    (∀ key value, mapping.get? key = some value →
      live.get? (stem ++ key) = some value.storedText) →
        Store.update mapping stem store = (.ok (), store)
  unsetRange : ∀ stem,
    (∀ key text, live.get? key = some text → Database.startsWith stem key = false) →
      Store.unsetRange none stem store = (.ok 0, store)

/-- How the lock of another store shows to a store. -/
structure TellsLock (store : Store) : Prop where
  /-- What fails, and would not fail in this way without the lock, tells of a lock conflict and
  leaves everything as it is. -/
  conflicts : ∀ (operation : Operation) error, (operation.action store).1 = .error error →
    (operation.action store.released).1 ≠ .error error →
      error.isLocked = true ∧ (operation.action store).2 = store
  hooks : ∀ {Result : Type} (row : HookRow) (invocation : Invocation)
    (revisionFile : Option (Except FileFault String))
    (body : Int → HookChanges → Body Store StoreError Result),
      FailsAtOnce (runHook row invocation revisionFile body) store
  scopes : ∀ {Result : Type} (row : HookRow) (body : Int → Body Store StoreError Result),
    FailsAtOnce (hookScope row body) store
  /-- Where nothing but the lock stands against writing, what has to write is refused. -/
  refused : ∀ contents, store.view Schema.liveTable = .ok contents →
    store.handle.readOnly = false → ∀ operation : Operation, operation.NeedsLock contents.live →
      operation.action store = (.error (.engine .locked), store)
  /-- What has nothing to write comes to the same as without the lock. -/
  spared : ∀ operation : Operation, ¬operation.NeedsLock store.file.contents.live →
    Indifferent operation store
  keeps : ∀ contents, store.view Schema.liveTable = .ok contents → store.Keeps contents.live

theorem keeps_at_bar {store : Store} {fault : EngineFault} (outside : store.handle.Outside)
    (bar : store.bar? = some fault) {contents : Database}
    (visible : store.view Schema.liveTable = .ok contents) : store.Keeps contents.live where
  set key value present :=
    (set_text_at_bar key value.storedText).spared outside visible bar fun needed =>
      Write.need_lock_text.1 needed present
  update mapping stem present := by
    apply (update_at_bar mapping stem).spared outside visible bar
    rintro ⟨write, member, resists⟩
    obtain ⟨binding, bound, rfl⟩ := List.mem_map.1 member
    have there := present binding.1 binding.2 (Table.get?_eq_some_iff.2 bound)
    rcases resists with nothing | different
    · cases nothing
    · exact different there
  unsetRange stem unmatched := by
    have nothing : removalKeys none stem contents.live = [] := by
      rw [removalKeys, List.map_eq_nil_iff, List.filter_eq_nil_iff]
      intro binding bound starts
      have apart := unmatched binding.1 binding.2 (Table.get?_eq_some_iff.2 bound)
      cases starts.symm.trans apart
    have ran := (unset_range_at_bar none stem).spared outside visible bar
    simp only [removalPlan, nothing] at ran
    exact ran Write.not_need_lock_nil

theorem tells_lock {store : Store} (outside : store.handle.Outside)
    (locked : store.file.locked = true) : store.TellsLock where
  conflicts operation error failure without := by
    rcases operation_shows_lock outside locked operation with ⟨_, refused⟩ | same
    · rw [refused] at failure ⊢
      cases failure
      exact ⟨rfl, rfl⟩
    · rw [same] at without
      exact absurd failure without
  hooks row invocation revisionFile body := by
    rw [run_hook_eq]
    exact within_fails_at_once outside locked _ body
  scopes row body := by
    rw [hook_scope_eq]
    exact within_fails_at_once outside locked _ _
  refused contents visible writable operation needed := by
    have out : store.LockedOut := ⟨outside, ⟨contents, visible⟩, writable, locked⟩
    cases (view_outside outside visible).2
    exact out.refused needed
  spared operation silent :=
    (operation_shows_lock outside locked operation).resolve_left fun ⟨needed, _⟩ => silent needed
  keeps contents visible := by
    have bar : ∃ fault, store.bar? = some fault := by
      unfold bar?
      rw [if_pos locked]
      split <;> exact ⟨_, rfl⟩
    obtain ⟨fault, bar⟩ := bar
    exact keeps_at_bar outside bar visible

end Store

/-! ## Opening under the lock -/

/-- How the lock shows to who opens a store on the file. -/
structure DatabaseFile.TellsLock (file : DatabaseFile) : Prop where
  current : ∀ location readOnly, file.version = Schema.currentVersion →
    Store.connect location readOnly file = .ok ⟨.ofLocation location readOnly, file⟩
  /-- The refusal to record the version is told as an error of the schema. -/
  unversioned : ∀ location, file.version = 0 →
    ∃ step, Store.connect location false file = .error (.schema (.failed step .locked))
  /-- No other error of an opening is for the lock. -/
  others : ∀ location readOnly, file.version ≠ 0 ∨ readOnly = true →
    Store.connect location readOnly { file with locked := false } =
      (Store.connect location readOnly file).map Store.released

theorem DatabaseFile.tells_lock {file : DatabaseFile} (locked : file.locked = true) :
    file.TellsLock where
  current _ _ current := Store.connect_current current
  unversioned location unversioned := by
    have outdated : (0 : Int) ≠ Schema.currentVersion := by decide
    refine ⟨if file.hasTables then .recordVersion else .createTables, ?_⟩
    simp only [Store.connect, migrate, unversioned, if_neg outdated, locked, ne_eq,
      not_true_eq_false, Bool.false_eq_true, if_false, if_true]
  others location readOnly other := by
    have outdated : (0 : Int) ≠ Schema.currentVersion := by decide
    by_cases current : file.version = Schema.currentVersion
    · rw [Store.connect_current current, Store.connect_current (by exact current)]
      rfl
    · by_cases unversioned : file.version = 0
      · have mode : readOnly = true := other.resolve_left (not_not.2 unversioned)
        simp only [Store.connect, migrate, unversioned, if_neg outdated, mode, ne_eq,
          not_true_eq_false, if_false, if_true]
        rfl
      · rw [Store.connect_too_new current unversioned,
          Store.connect_too_new (by exact current) (by exact unversioned)]
        rfl

namespace Host

/-- On a host the lock stands in the way of no opening but that of a file with no version. -/
theorem open_under_lock {path : String} {address : Address} {place : Files.Place} {number : Int}
    {host : Host} {busy : Nat} (means : Address.ofPath path = .ok address)
    (file : address.MeansFile)
    (site : host.files.Site path address place number)
    (startable : host.isLogged number = true ∨
      address.access ≠ .read ∧ Files.HasRoom place journalSuffix)
    (logRoom : Files.HasRoom place logSuffix) (indexRoom : Files.HasRoom place indexSuffix)
    (waits : busy ≤ greatestBusyMilliseconds) (locked : (host.database number).locked = true)
    (time : TimeSource) (sharing : Bool) :
    ((host.database number).version = Schema.currentVersion →
      ∃ opened later, openWith ⟨.file path, busy⟩ time sharing host =
          (.returned (opened, false), later) ∧
        later.database number = host.database number) ∧
    ((host.database number).version = 0 → address.access ≠ .read →
      ∃ step later, openWith ⟨.file path, busy⟩ time sharing host =
          (.failed (.schema (.failed step .locked)), later) ∧
        later.database number = host.database number) := by
  obtain ⟨begun, readied, runs⟩ :=
    open_on_site site means file time sharing waits startable logRoom indexRoom
  have same := readied.databases number
  have tells := DatabaseFile.tells_lock locked
  constructor
  · intro current
    have connected := tells.current (.file path) (decide (address.access = .read)) current
    rw [← same] at connected
    have connects : connect (.file path) time (decide (address.access = .read)) number begun =
        (.ok (⟨.ofLocation (.file path) (decide (address.access = .read)), number, none, none,
            time⟩, false), begun.putDatabase number (begun.database number)) := by
      simp only [connect, connected, ne_eq, not_true_eq_false, decide_false]
    rw [connects] at runs
    exact ⟨_, _, runs, (database_put_self begun number _).trans same⟩
  · intro unversioned writable
    obtain ⟨step, refused⟩ := tells.unversioned (.file path) unversioned
    rw [← same] at refused
    have connects : connect (.file path) time (decide (address.access = .read)) number begun =
        (.error (.schema (.failed step .locked)), begun) := by
      simp only [connect, decide_eq_false writable, refused]
    rw [connects] at runs
    exact ⟨step, _, runs, (database_eq (databases_retire _ _ _ begun) number).trans same⟩

end Host

namespace Fleet

variable {Name : Type} [DecidableEq Name]

/-- While a store has a scope open, whatever another store on the file is refused for the lock
alone is refused as a lock conflict, and what has nothing to write is not refused for it. A store
can be opened meanwhile if the file has a version; if it has none, the conflict is told as an error
of the schema. -/
theorem Reachable.lock_told {fleet : Fleet Name} (reachable : fleet.Reachable) {holder : Name}
    {revision : Int} {pending : Database} (holds : fleet.Holds holder revision pending) :
    (∀ name handle, name ≠ holder → fleet.handles name = some handle →
      (Store.mk handle fleet.file).TellsLock) ∧
    fleet.file.TellsLock ∧
    ∀ {host : Host} {path : String} {address : Address} {place : Files.Place} {number : Int}
      {busy : Nat} (time : TimeSource) (sharing : Bool), host.database number = fleet.file →
      Address.ofPath path = .ok address → address.MeansFile →
      host.files.Site path address place number →
      (host.isLogged number = true ∨
        address.access ≠ .read ∧ Files.HasRoom place Host.journalSuffix) →
      Files.HasRoom place Host.logSuffix → Files.HasRoom place Host.indexSuffix →
      busy ≤ Host.greatestBusyMilliseconds →
        (fleet.file.version = Schema.currentVersion →
          ∃ opened later, host.openWith ⟨.file path, busy⟩ time sharing =
              (.returned (opened, false), later) ∧ later.database number = fleet.file) ∧
        (fleet.file.version = 0 → address.access ≠ .read →
          ∃ step later, host.openWith ⟨.file path, busy⟩ time sharing =
              (.failed (.schema (.failed step .locked)), later) ∧
            later.database number = fleet.file) := by
  have coherent := reachable.coherent
  have locked : fleet.file.locked = true := coherent.locked.2 ⟨holder, revision, pending, holds⟩
  refine ⟨?_, DatabaseFile.tells_lock locked, ?_⟩
  · intro name handle different named
    have outside : (Store.mk handle fleet.file).handle.Outside := by
      cases coherent.handles named with
      | closed | idle => exact ⟨rfl, nofun⟩
      | writing location readOnly opened =>
          exact absurd (coherent.alone ⟨location, readOnly, named⟩ holds) different
    exact Store.tells_lock outside locked
  · intro host path address place number busy time sharing same means file site startable logRoom
      indexRoom waits
    rw [← same] at locked ⊢
    exact Host.open_under_lock means file site startable logRoom indexRoom waits locked time sharing

def unversionedScope : Fleet Nat :=
  let opened := (ofFile .fresh).run
    [(0, .connect (.file "later.db") false), (1, .connect (.file "later.db") false),
      (1, .perform (.ask (.set "a" .null)))]
  { opened with file.version := 0 }.run [(0, .perform (.enter (.scope ⟨"install", "today"⟩)))]

theorem unversioned_scope_reachable : unversionedScope.Reachable := by
  have opened := ((Reachable.fresh.step (0 : Nat) (.connect (.file "later.db") false)).step 1
    (.connect (.file "later.db") false)).step 1 (.perform (.ask (.set "a" .null)))
  exact (opened.edit (.version 0) rfl).step 0 (.perform (.enter (.scope ⟨"install", "today"⟩)))

theorem unversioned_scope_held :
    unversionedScope.Holds 0 1 (unversionedScope.seen 0) := ⟨.file "later.db", false, rfl⟩

/-- The other store can store the null again, but nothing else, and no third one can be opened. -/
theorem unversioned_scope_told :
    let store : Store := ⟨.ofLocation (.file "later.db") false, unversionedScope.file⟩
    let host : Host := { Host.outdated with
      databases := (∅ : Table Int DatabaseFile).insert 0 unversionedScope.file }
    Store.set "a" .null store = (.ok (), store) ∧
      (Operation.ask (.set "a" (.bool true))).action store = (.error (.engine .locked), store) ∧
      ∃ step later, host.openWith ⟨.file "later.db", 0⟩ .hostClock true =
          (.failed (.schema (.failed step .locked)), later) ∧
        later.database 0 = unversionedScope.file := by
  intro store host
  obtain ⟨stores, _, openings⟩ :=
    unversioned_scope_reachable.lock_told unversioned_scope_held
  have told : store.TellsLock := stores 1 store.handle (by decide) rfl
  have visible : store.view Schema.liveTable = .ok store.file.contents := rfl
  have opening := @openings host _ _ _ 0 0 .hostClock true rfl
    (Address.of_path_plain (by decide)) (Address.plain_means_file (by decide) (by decide))
    Host.outdated_site (.inr ⟨Access.noConfusion, by decide⟩) (by decide) (by decide) (by decide)
  refine ⟨(told.keeps _ visible).set "a" .null (by rfl), ?_, opening.2 rfl Access.noConfusion⟩
  exact told.refused _ visible rfl _ (by decide : _ ≠ _)

/-- A store that cannot be opened for the lock alone is told of the schema, not of the lock. -/
theorem unversioned_conflict_untold :
    unversionedScope.Reachable ∧ unversionedScope.Holds 0 1 (unversionedScope.seen 0) ∧
      ∃ error, Store.connect (.file "later.db") false unversionedScope.file = .error error ∧
        error.isLocked = false ∧
        ∃ store, Store.connect (.file "later.db") false
          { unversionedScope.file with locked := false } = .ok store :=
  ⟨unversioned_scope_reachable, unversioned_scope_held, _, rfl, rfl, _, rfl⟩

end Fleet

end UnitState
