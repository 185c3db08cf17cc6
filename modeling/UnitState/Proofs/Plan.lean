import UnitState.Proofs.Writes
import UnitState.Store.Scope

/-!
# Plans

An operation on a store does the same whether a scope is open or not: it looks at live
texts and carries out writes. What differs is where the writes go, and whether they are
let through. A plan is the part that does not differ. An action follows a plan if it carries
the writes of the plan out in the open scope, commits them one by one if none is open, and
changes nothing if it cannot write. Actions in a row follow their plans in a row, so
the plan of an operation is put together like the operation itself.
-/

set_option autoImplicit false

namespace UnitState

theorem Attempt.inspect_bind {State Error Result Other : Type}
    (look : State → Except Error Result) (next : Result → Attempt State Error Other)
    (state : State) :
    (Attempt.inspect look >>= next) state =
      match look state with
      | .error error => (.error error, state)
      | .ok result => next result state := by
  simp only [Bind.bind, Attempt.bind, Attempt.inspect]
  cases look state <;> rfl

theorem Attempt.map_run {State Error Result Other : Type} (change : Result → Other)
    (attempt : Attempt State Error Result) (state : State) :
    (change <$> attempt) state = (change <$> (attempt state).1, (attempt state).2) := by
  simp only [Functor.map, Attempt.bind]
  cases attempt state with
  | mk result later => cases result <;> rfl

/-- What an operation makes of the live texts that it finds: its result, and the writes
that it carries out on the way to it. -/
def Plan (Result : Type) : Type :=
  Table String String → Except StoreError Result × List Write

namespace Plan

variable {Result Other : Type}

protected def pure (result : Result) : Plan Result := fun _ => (.ok result, [])

protected def bind (first : Plan Result) (next : Result → Plan Other) : Plan Other := fun live =>
  match first live with
  | (.ok result, writes) =>
      let (other, later) := next result (live.changeAll writes)
      (other, writes ++ later)
  | (.error error, writes) => (.error error, writes)

instance : Monad Plan where
  pure := Plan.pure
  bind := Plan.bind

def carryOut (writes : List Write) : Plan Unit := fun _ => (.ok (), writes)

def ofExcept (result : Except StoreError Result) : Plan Result := fun _ => (result, [])

section Bind

variable {plan : Plan Result} {live : Table String String} {writes : List Write}

theorem bind_error {error : StoreError} (planned : plan live = (.error error, writes))
    (next : Result → Plan Other) : (plan >>= next) live = (.error error, writes) := by
  simp only [Bind.bind, Plan.bind, planned]

theorem bind_ok {result : Result} (planned : plan live = (.ok result, writes))
    (next : Result → Plan Other) :
    (plan >>= next) live =
      ((next result (live.changeAll writes)).1,
        writes ++ (next result (live.changeAll writes)).2) := by
  simp only [Bind.bind, Plan.bind, planned]

end Bind

theorem writes_bind_pure (plan : Plan Result) (change : Result → Other)
    (live : Table String String) :
    ((plan >>= fun result => pure (change result)) live).2 = (plan live).2 := by
  cases planned : plan live with
  | mk result writes =>
      cases result with
      | error error => rw [bind_error planned]
      | ok result =>
          rw [bind_ok planned]
          exact List.append_nil writes

end Plan

/-- A conflict between scopes of one connection, and a history row without its hook, are
no ordinary errors: they would mean that a store has lost track of its own scope. -/
def StoreError.Ordinary (error : StoreError) : Prop :=
  error ≠ .engine .nestedTransaction ∧ error ≠ .engine .unknownRevision

def Ordinarily {Result : Type} (result : Except StoreError Result) : Prop :=
  ∀ error, result = .error error → error.Ordinary

namespace Ordinarily

variable {Result Other : Type}

theorem of_ok (result : Result) : Ordinarily (.ok result) := by
  intro error failure
  cases failure

theorem of_error {error : StoreError} (ordinary : error.Ordinary) :
    Ordinarily (.error error : Except StoreError Result) := by
  intro other failure
  cases failure
  exact ordinary

theorem bind {first : Except StoreError Result} {next : Result → Except StoreError Other}
    (firstOrdinary : Ordinarily first) (nextOrdinary : ∀ result, Ordinarily (next result)) :
    Ordinarily (first >>= next) := by
  cases first with
  | error error => exact of_error (firstOrdinary error rfl)
  | ok result => exact nextOrdinary result

theorem map {first : Except StoreError Result} (change : Result → Other)
    (ordinary : Ordinarily first) : Ordinarily (change <$> first) := by
  cases first with
  | error error => exact of_error (ordinary error rfl)
  | ok result => exact of_ok (change result)

end Ordinarily

structure Handle.Outside (handle : Handle) : Prop where
  revision : handle.revision = none
  idle : ∀ pending, handle.connection ≠ .writing pending

namespace Store

def inScope (store : Store) (revision : Int) (pending : Database) : Store :=
  { store with
    handle := { store.handle with connection := .writing pending, revision := some revision } }

def withContents (store : Store) (contents : Database) : Store :=
  { store with file.contents := contents }

/-- The contents that a store sees: those of its scope, or the committed ones. -/
def seen (store : Store) : Database :=
  match store.handle.connection with
  | .writing pending => pending
  | .closed | .idle => store.file.contents

def alone (contents : Database) : Store :=
  ⟨.ofLocation .memory false, ⟨contents, true, Schema.currentVersion, false⟩⟩

def holding (live : Table String String) : Store := alone { Database.empty with live := live }

/-- No scope is open, neither here nor elsewhere, and nothing stands against writing. -/
structure Free (store : Store) : Prop where
  idle : store.handle.connection = .idle
  outside : store.handle.revision = none
  writable : store.handle.readOnly = false
  hasTables : store.file.hasTables = true
  unlocked : store.file.locked = false

/-- No scope is open here, and something stands against writing: the store is closed, it
may only read, the tables are missing, or another store has a scope open. -/
structure Barred (store : Store) : Prop where
  outside : store.handle.revision = none
  bar : store.handle.connection = .closed ∨
    (store.handle.connection = .idle ∧
      (store.file.hasTables = false ∨ store.handle.readOnly = true ∨ store.file.locked = true))

/-- A store out of a scope is free to write, or barred from it. -/
theorem free_or_barred {handle : Handle} (outside : handle.Outside) (file : DatabaseFile) :
    Free ⟨handle, file⟩ ∨ Barred ⟨handle, file⟩ := by
  cases connection : handle.connection with
  | closed => exact .inr ⟨outside.revision, .inl connection⟩
  | writing pending => exact absurd connection (outside.idle pending)
  | idle =>
      cases hasTables : file.hasTables with
      | false => exact .inr ⟨outside.revision, .inr ⟨connection, .inl hasTables⟩⟩
      | true =>
          cases readOnly : handle.readOnly with
          | true => exact .inr ⟨outside.revision, .inr ⟨connection, .inr (.inl readOnly)⟩⟩
          | false =>
              cases locked : file.locked with
              | true => exact .inr ⟨outside.revision, .inr ⟨connection, .inr (.inr locked)⟩⟩
              | false => exact .inl ⟨connection, outside.revision, readOnly, hasTables, locked⟩

theorem Free.handle_outside {store : Store} (free : store.Free) : store.handle.Outside where
  revision := free.outside
  idle pending := by
    rw [free.idle]
    exact Connection.noConfusion

theorem Barred.handle_outside {store : Store} (barred : store.Barred) : store.handle.Outside where
  revision := barred.outside
  idle pending writing := by
    rcases barred.bar with closed | ⟨idle, _⟩
    · cases closed.symm.trans writing
    · cases idle.symm.trans writing

theorem flush_outside {store : Store} (outside : store.handle.Outside) (save : Bool) :
    flush save store = (.ok (), store) := by
  obtain ⟨⟨location, readOnly, connection, revision⟩, file⟩ := store
  obtain ⟨none, idle⟩ := outside
  cases none
  cases connection with
  | closed | idle => rfl
  | writing pending => exact absurd rfl (idle pending)

theorem view_outside {store : Store} (outside : store.handle.Outside) {table : String}
    {contents : Database} (visible : store.view table = .ok contents) :
    store.handle.connection = .idle ∧ contents = store.file.contents := by
  unfold view at visible
  cases connection : store.handle.connection with
  | closed =>
      rw [connection] at visible
      cases visible
  | writing pending => exact absurd connection (outside.idle pending)
  | idle =>
      simp only [connection] at visible
      split at visible
      · exact ⟨rfl, (Except.ok.inj visible).symm⟩
      · cases visible

theorem alone_free (contents : Database) : (alone contents).Free := ⟨rfl, rfl, rfl, rfl, rfl⟩

@[simp] theorem view_in_scope (store : Store) (revision : Int) (pending : Database)
    (table : String) : (store.inScope revision pending).view table = .ok pending := rfl

theorem Free.view {store : Store} (free : store.Free) (table : String) :
    store.view table = .ok store.file.contents := by
  unfold Store.view
  simp only [free.idle, free.hasTables, if_true]

theorem Free.seen {store : Store} (free : store.Free) : store.seen = store.file.contents := by
  simp only [Store.seen, free.idle]

theorem Free.seen_with_contents {store : Store} (free : store.Free) (contents : Database) :
    (store.withContents contents).seen = contents := by
  simp only [Store.seen, Store.withContents, free.idle]

theorem seen_of_view {store : Store} {table : String} {contents : Database}
    (visible : store.view table = .ok contents) : contents = store.seen := by
  unfold view at visible
  unfold seen
  split at visible
  · cases visible
  · rename_i idle
    rw [idle]
    split at visible <;> cases visible
    rfl
  · rename_i writing
    rw [writing]
    cases visible
    rfl

theorem Barred.view_ok {store : Store} (barred : store.Barred) {table : String}
    {database : Database} (visible : store.view table = .ok database) :
    database = store.file.contents :=
  (view_outside barred.handle_outside visible).2

theorem view_ordinarily (store : Store) (table : String) : Ordinarily (store.view table) := by
  unfold Store.view
  split
  · exact Ordinarily.of_error ⟨nofun, nofun⟩
  · split
    · exact Ordinarily.of_ok _
    · exact Ordinarily.of_error ⟨nofun, nofun⟩
  · exact Ordinarily.of_ok _

/-- A look that sees nothing of a store but its live texts, if it sees them at all. -/
structure LooksAtLive {Result : Type} (look : Store → Except StoreError Result) : Prop where
  through : ∀ store : Store,
    look store = store.view Schema.liveTable >>= fun database => look (holding database.live)
  ordinary : ∀ live, Ordinarily (look (holding live))

theorem LooksAtLive.ordinarily {Result : Type} {look : Store → Except StoreError Result}
    (looks : LooksAtLive look) (store : Store) : Ordinarily (look store) := by
  rw [looks.through]
  exact (view_ordinarily store Schema.liveTable).bind fun database =>
    looks.ordinary database.live

theorem LooksAtLive.seen {Result : Type} {look : Store → Except StoreError Result}
    (looks : LooksAtLive look) {store : Store} {contents : Database}
    (visible : store.view Schema.liveTable = .ok contents) :
    look store = look (holding contents.live) := by
  rw [looks.through, visible]
  rfl

end Store

def Plan.look {Result : Type} (look : Store → Except StoreError Result) : Plan Result :=
  fun live => (look (Store.holding live), [])

namespace Store

/-- What an action does to a store, in terms of a plan. -/
structure Follows {Result : Type} (action : Action Result) (plan : Plan Result) : Prop where
  inScope : ∀ (store : Store) (revision : Int) (pending : Database),
    pending.hooks.contains revision = true →
      action (store.inScope revision pending) =
        ((plan pending.live).1,
          store.inScope revision
            (pending.assignAll (some revision) (plan pending.live).2))
  free : ∀ store : Store, store.Free →
    action store =
      ((plan store.file.contents.live).1,
        store.withContents
          (store.file.contents.assignAll none (plan store.file.contents.live).2))
  barred : ∀ store : Store, store.Barred →
    (action store).2 = store ∧ Ordinarily (action store).1 ∧
      ∀ result, (action store).1 = .ok result →
        (plan store.file.contents.live).1 = .ok result ∧
          store.file.contents.live.Has (plan store.file.contents.live).2
  ordinary : ∀ live, Ordinarily (plan live).1

theorem refused {Result : Type} {action : Action Result} {store : Store} {error : StoreError}
    (ordinary : error.Ordinary) (failure : action store = (.error error, store))
    (claim : Result → Prop) :
    (action store).2 = store ∧ Ordinarily (action store).1 ∧
      ∀ result, (action store).1 = .ok result → claim result := by
  rw [failure]
  refine ⟨rfl, Ordinarily.of_error ordinary, ?_⟩
  intro result success
  cases success

namespace Follows

variable {Result Other : Type}

theorem pure (result : Result) :
    Follows (pure result : Action Result) (pure result : Plan Result) where
  inScope _ _ _ _ := rfl
  free _ _ := rfl
  barred _ _ := by
    refine ⟨rfl, Ordinarily.of_ok result, fun other success => ⟨success, ?_⟩⟩
    intro write member
    cases member
  ordinary _ := Ordinarily.of_ok result

theorem congr {action : Action Result} {plan other : Plan Result}
    (follows : Follows action plan) (same : ∀ live, plan live = other live) :
    Follows action other := by
  have equal : plan = other := funext same
  exact equal ▸ follows

theorem of_except {result : Except StoreError Result} (ordinary : Ordinarily result) :
    Follows (Attempt.ofExcept result : Action Result) (Plan.ofExcept result) where
  inScope _ _ _ _ := rfl
  free _ _ := rfl
  barred _ _ := by
    refine ⟨rfl, ordinary, fun other success => ⟨success, ?_⟩⟩
    intro write member
    cases member
  ordinary _ := ordinary

/-- What comes after an action finds the live texts as the action has left them. -/
theorem bind {first : Action Result} {firstPlan : Plan Result}
    {next : Result → Action Other} {nextPlan : Result → Plan Other}
    (firstFollows : Follows first firstPlan)
    (nextFollows : ∀ result, Follows (next result) (nextPlan result)) :
    Follows (first >>= next) (firstPlan >>= nextPlan) where
  inScope store revision pending known := by
    have step := firstFollows.inScope store revision pending known
    cases planned : firstPlan pending.live with
    | mk result writes =>
        rw [planned] at step
        cases result with
        | error error =>
            rw [Attempt.bind_error step, Plan.bind_error planned]
        | ok result =>
            have stillKnown : (pending.assignAll (some revision) writes).hooks.contains
                revision = true := by
              rw [Database.hooks_assign_all]
              exact known
            rw [Attempt.bind_ok step, (nextFollows result).inScope _ _ _ stillKnown,
              Plan.bind_ok planned, Database.live_assign_all, Database.assign_all_append]
  free store free := by
    have step := firstFollows.free store free
    cases planned : firstPlan store.file.contents.live with
    | mk result writes =>
        rw [planned] at step
        cases result with
        | error error =>
            rw [Attempt.bind_error step, Plan.bind_error planned]
        | ok result =>
            have stillFree : (store.withContents
                (store.file.contents.assignAll none writes)).Free :=
              ⟨free.idle, free.outside, free.writable, free.hasTables, free.unlocked⟩
            rw [Attempt.bind_ok step, (nextFollows result).free _ stillFree,
              Plan.bind_ok planned]
            simp only [withContents, Database.live_assign_all, Database.assign_all_append]
  barred store barred := by
    obtain ⟨kept, ordinary, reached⟩ := firstFollows.barred store barred
    cases ran : first store with
    | mk result later =>
        rw [ran] at kept ordinary reached
        simp only at kept ordinary reached
        subst kept
        cases result with
        | error error =>
            rw [Attempt.bind_error ran]
            refine ⟨rfl, Ordinarily.of_error (ordinary error rfl), fun other success => ?_⟩
            cases success
        | ok result =>
            rw [Attempt.bind_ok ran]
            obtain ⟨planned, nothing⟩ := reached result rfl
            obtain ⟨nextKept, nextOrdinary, nextReached⟩ := (nextFollows result).barred later barred
            refine ⟨nextKept, nextOrdinary, fun other success => ?_⟩
            obtain ⟨nextPlanned, nextNothing⟩ := nextReached other success
            cases shape : firstPlan later.file.contents.live with
            | mk firstResult writes =>
                rw [shape] at planned nothing
                simp only at planned nothing
                subst planned
                -- the store was not changed, but its texts are those after the first writes
                rw [Plan.bind_ok shape, Table.change_all_present nothing]
                refine ⟨nextPlanned, fun write member => ?_⟩
                rcases List.mem_append.1 member with early | late
                · exact nothing write early
                · exact nextNothing write late
  ordinary live := by
    have firstOrdinary := firstFollows.ordinary live
    cases planned : firstPlan live with
    | mk result writes =>
        rw [planned] at firstOrdinary
        cases result with
        | error error =>
            rw [Plan.bind_error planned]
            exact Ordinarily.of_error (firstOrdinary error rfl)
        | ok result =>
            rw [Plan.bind_ok planned]
            exact (nextFollows result).ordinary (live.changeAll writes)

theorem inspect {look : Store → Except StoreError Result} (looks : LooksAtLive look) :
    Follows (Attempt.inspect look) (Plan.look look) where
  inScope store revision pending _ := by
    have seen := looks.through (store.inScope revision pending)
    rw [view_in_scope] at seen
    exact Prod.ext seen rfl
  free store free := by
    have seen := looks.through store
    rw [free.view] at seen
    exact Prod.ext seen rfl
  barred store barred := by
    have seen := looks.through store
    refine ⟨rfl, looks.ordinarily store, fun result success => ⟨?_, fun write member =>
      nomatch member⟩⟩
    cases visible : store.view Schema.liveTable with
    | error error =>
        rw [visible] at seen
        simp only [Attempt.inspect, seen] at success
        cases success
    | ok database =>
        have idle : database = store.file.contents := barred.view_ok visible
        rw [visible] at seen
        subst idle
        exact seen.symm.trans success
  ordinary live := looks.ordinary live

end Follows

end Store

end UnitState
