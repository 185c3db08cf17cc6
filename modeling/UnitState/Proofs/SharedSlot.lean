import UnitState.Proofs.BodyFrame
import UnitState.Proofs.HostFleet
import UnitState.Proofs.OpeningFrame
import UnitState.Proofs.Operation

/-!
# The slot of the shared store

A program uses the shared store through closures, which it may nest and end in any way, and
resets the slot in between. Here the calls of such a program are told as a course of events: a
use that enters its closure marks the slot as held, and the end of that closure clears the mark.
Whatever is asked of the slot from inside is refused and changes nothing. A store is opened only
where the slot is empty, and only a reset makes it empty again.
-/

set_option autoImplicit false

namespace UnitState

def OpenStore.isWriting (opened : OpenStore) (number : Int) : Bool :=
  opened.database == number &&
    match opened.handle.connection with
    | .writing _ => true
    | .closed | .idle => false

inductive SlotEvent where
  | asked (answer : Bool)
  /-- The closure of a use starts, for which a store was opened or not. -/
  | entered (opened : Bool)
  /-- The closure of a use ends. -/
  | ended (ending : Ending Failure Unit)
  /-- A use is over whose closure ran. -/
  | left (ending : Ending Failure Unit)
  /-- A use is over whose closure did not run. -/
  | turnedAway (ending : Ending Failure Unit)
  | reset (answer : Except Failure Unit)
deriving DecidableEq

/-- What is told of the calls of a program: an event, with the host before and after it. -/
structure SlotCall where
  before : Host
  event : SlotEvent
  after : Host

namespace Host

variable {Result : Type}

/-! ## Steps -/

/-- Work that leaves the slot alone, but for the handle of the store of whoever holds it. -/
def Works (before after : Host) : Prop :=
  after.slot = before.slot ∨ ∃ opened handle, before.slot = ⟨true, some opened⟩ ∧
    after.slot = ⟨true, some { opened with handle := handle }⟩

/-- The slot is empty; what its store had not committed is gone, and with it the lock. -/
structure Emptied (before after : Host) : Prop where
  slot : after.slot = .empty
  stores : after.stores = before.stores
  databases : ∀ number, after.database number =
    if before.slot.store.any (·.isWriting number) then
      { before.database number with locked := false }
    else before.database number

inductive SlotStep : Host → SlotEvent → Host → Prop
  | asked (host : Host) : SlotStep host (.asked (host.slot.held || host.slot.store.isSome)) host
  | refused {host : Host} (held : host.slot.held = true) :
      SlotStep host (.turnedAway (.failed (.store .slotInUse))) host
  | resetRefused {host : Host} (held : host.slot.held = true) :
      SlotStep host (.reset (.error (.store .slotInUse))) host
  /-- The environment's store cannot be opened, and the slot stays empty. -/
  | unopened {host later : Host} {ending : Ending Failure Unit} (empty : host.slot = .empty)
      (stillEmpty : later.slot = .empty) (unreturned : ∀ result, ending ≠ .returned result) :
      SlotStep host (.turnedAway ending) later
  | opened {host middle : Host} {store : OpenStore} {changed : Bool} (empty : host.slot = .empty)
      (opens : openFrom (.environment none) { host with slot := ⟨true, none⟩ } =
        (.returned (store, changed), middle)) :
      SlotStep host (.entered true) { middle with slot := ⟨true, some store⟩ }
  | reused {host : Host} {store : OpenStore} (free : host.slot = ⟨false, some store⟩) :
      SlotStep host (.entered false) { host with slot := ⟨true, some store⟩ }
  | ended {host : Host} (ending : Ending Failure Unit) (held : host.slot.held = true) :
      SlotStep host (.ended ending) host
  | left {host : Host} {store : OpenStore} (ending : Ending Failure Unit)
      (held : host.slot = ⟨true, some store⟩) :
      SlotStep host (.left ending) { host with slot := ⟨false, some store⟩ }
  | emptied {host later : Host} (free : host.slot.held = false) (emptied : Emptied host later) :
      SlotStep host (.reset (.ok ())) later

/-- A course of calls, between which work is done. -/
inductive Course : Host → List SlotCall → Host → Prop
  | refl (host : Host) : Course host [] host
  | works {host middle last : Host} {calls : List SlotCall} (works : Works host middle)
      (course : Course middle calls last) : Course host calls last
  | step (call : SlotCall) {last : Host} {calls : List SlotCall}
      (step : SlotStep call.before call.event call.after) (course : Course call.after calls last) :
      Course call.before (call :: calls) last

theorem Works.refl (host : Host) : Works host host := .inl rfl

theorem Works.of_slot_eq {before after : Host} (same : after.slot = before.slot) :
    Works before after := .inl same

theorem Works.trans {first second third : Host} (early : Works first second)
    (late : Works second third) : Works first third := by
  rcases early with same | ⟨opened, handle, before, middle⟩
  · rcases late with also | ⟨opened, handle, middle, after⟩
    · exact .inl (also.trans same)
    · exact .inr ⟨opened, handle, same ▸ middle, after⟩
  · rcases late with same | ⟨_, other, again, after⟩
    · exact .inr ⟨opened, handle, before, same.trans middle⟩
    · rw [middle] at again
      cases again
      exact .inr ⟨opened, other, before, after⟩

theorem Works.held {before after : Host} (works : Works before after) :
    after.slot.held = before.slot.held := by
  rcases works with same | ⟨opened, handle, held, stillHeld⟩
  · rw [same]
  · rw [held, stillHeld]

theorem Works.initialized {before after : Host} (works : Works before after) :
    after.slot.store.isSome = before.slot.store.isSome := by
  rcases works with same | ⟨opened, handle, held, stillHeld⟩
  · rw [same]
  · rw [held, stillHeld]
    rfl

theorem Works.same_store {before after : Host} {opened : OpenStore} (works : Works before after)
    (held : before.slot = ⟨true, some opened⟩) :
    ∃ handle, after.slot = ⟨true, some { opened with handle := handle }⟩ := by
  rcases works with same | ⟨store, handle, shape, left⟩
  · exact ⟨opened.handle, same.trans held⟩
  · rw [held] at shape
    cases shape
    exact ⟨handle, left⟩

namespace Course

variable {first second third : Host} {early late : List SlotCall}

theorem trans (course : Course first early second) (further : Course second late third) :
    Course first (early ++ late) third := by
  induction course with
  | refl host => exact further
  | works works _ hypothesis => exact .works works (hypothesis further)
  | step call step _ hypothesis => exact .step call step (hypothesis further)

theorem of_works (works : Works first second) : Course first [] second :=
  .works works (.refl second)

theorem of_step {event : SlotEvent} (step : SlotStep first event second) :
    Course first [⟨first, event, second⟩] second :=
  .step ⟨first, event, second⟩ step (.refl second)

end Course

/-! ## Courses of bodies -/

def SlotFilled (host : Host) : Prop := host.slot.held = true → host.slot.store.isSome = true

/-- The slot is held as before, and by whoever holds it the store was worked on at most. -/
structure Kept (before after : Host) : Prop where
  held : after.slot.held = before.slot.held
  works : before.slot.held = true → Works before after

theorem Works.kept {before after : Host} (works : Works before after) : Kept before after :=
  ⟨works.held, fun _ => works⟩

theorem Kept.trans {first second third : Host} (early : Kept first second)
    (late : Kept second third) : Kept first third where
  held := late.held.trans early.held
  works held := (early.works held).trans (late.works (early.held.trans held))

theorem Kept.filled {before after : Host} (kept : Kept before after) (filled : SlotFilled before) :
    SlotFilled after := by
  intro held
  have heldBefore := kept.held.symm.trans held
  rw [(kept.works heldBefore).initialized]
  exact filled heldBefore

abbrev ToldBody (Result : Type) : Type := HostBody (List SlotCall) Result

/-- What was told up to here goes on with a course that keeps the slot. -/
def Tells (host : Host) (told : List SlotCall) (later : Host) (listed : List SlotCall) : Prop :=
  ∃ calls, listed = told ++ calls ∧ Course host calls later ∧ Kept host later

namespace Tells

variable {host middle later : Host} {told half listed : List SlotCall}

theorem of_works (works : Works host later) : Tells host told later told :=
  ⟨[], (List.append_nil told).symm, .of_works works, works.kept⟩

theorem of_step {event : SlotEvent} (step : SlotStep host event later) (kept : Kept host later) :
    Tells host told later (told ++ [⟨host, event, later⟩]) :=
  ⟨[⟨host, event, later⟩], rfl, .of_step step, kept⟩

theorem trans (tells : Tells host told middle half) (further : Tells middle half later listed) :
    Tells host told later listed := by
  obtain ⟨events, shape, course, kept⟩ := tells
  obtain ⟨more, longer, onward, stillKept⟩ := further
  refine ⟨events ++ more, ?_, course.trans onward, kept.trans stillKept⟩
  rw [longer, shape, List.append_assoc]

theorem filled (tells : Tells host told later listed) (filled : SlotFilled host) :
    SlotFilled later := by
  obtain ⟨_, _, _, kept⟩ := tells
  exact kept.filled filled

end Tells

def Traced (body : ToldBody Result) : Prop :=
  ∀ host told, SlotFilled host → Tells host told (body (host, told)).2.1 (body (host, told)).2.2

theorem slot_retire_if (ends : Bool) (opened : OpenStore) (host : Host) :
    (if ends then host.retireStore opened else host).slot = host.slot := by
  cases ends with
  | false => rfl
  | true => exact (retire_store_aside opened host).slot

theorem on_works (action : Action Result) (host : Host) :
    Works host (on slotName action host).2 := by
  cases found : host.store? slotName with
  | none =>
      have untouched : (on slotName action host).2 = host := by
        simp only [on, found]
      rw [untouched]
      exact .refl host
  | some opened =>
      let store := (action ⟨opened.handle, host.database opened.database⟩).2
      have slot : (on slotName action host).2.slot =
          (host.leave slotName opened store.handle store.file).slot := by
        simp only [on, found, act]
        exact slot_retire_if _ _ _
      rw [Works, slot]
      unfold leave putStore
      unfold store? at found
      by_cases held : host.slot.held = true
      · have shape : host.slot = ⟨true, some opened⟩ := by
          rw [if_pos ⟨rfl, held⟩] at found
          rw [← held, ← found]
        have stillHeld : (host.putDatabase opened.database store.file).slot.held = true := held
        rw [if_pos ⟨rfl, stillHeld⟩]
        exact .inr ⟨opened, store.handle, shape, by rw [← stillHeld]⟩
      · have notHeld : ¬(slotName = slotName ∧
            (host.putDatabase opened.database store.file).slot.held = true) := fun both =>
          held both.2
        rw [if_neg notHeld]
        exact .inl rfl

/-! ## Ways to run a body -/

namespace Traced

variable {body : ToldBody Unit}

theorem hook_scope {name : String} {body : Int → ToldBody Result}
    (traced : ∀ revision, Traced (body revision)) : Traced (hookScope slotName name body) := by
  intro host told filled
  refine hook_scope_keeps (fun state => Tells host told state.1 state.2) ?_ ?_ ?_ ?_
    (Tells.of_works (.refl host))
  · exact fun _ between _ tells => tells.trans (.of_works (on_works _ between))
  · exact fun _ between _ tells => tells.trans (.of_works (on_works _ between))
  · exact fun _ _ _ tells => tells.trans (.of_works (.of_slot_eq rfl))
  · exact fun revision state tells =>
      tells.trans (traced revision state.1 state.2 (tells.filled filled))

theorem run_hook (invocation : Invocation) {body : Int → HookChanges → ToldBody Result}
    (traced : ∀ revision changes, Traced (body revision changes)) :
    Traced (runHook slotName invocation body) := by
  apply hook_scope
  intro revision host told filled
  refine Body.after_keeps (fun (state : Host × List SlotCall) => Tells host told state.1 state.2)
    ?_ ?_ (Tells.of_works (.refl host))
  · exact fun state tells => tells.trans (.of_works (on_works _ state.1))
  · exact fun changes state tells =>
      tells.trans (traced revision changes state.1 state.2 (tells.filled filled))

end Traced

/-- A use of the slot that tells when its closure starts and ends and when it is over itself. A
use of which nothing was told on the way has not run its closure. -/
def useTold (closure : ToldBody Unit) : ToldBody Unit := fun (host, told) =>
  let (ending, later, listed) :=
    withSlot (fun (inner, told) =>
      let (ending, last, listed) :=
        closure (inner, told ++ [⟨host, .entered host.slot.store.isNone, inner⟩])
      (ending, last, listed ++ [⟨last, .ended ending, last⟩])) (host, told)
  (ending, later, listed ++
    [match (listed.drop told.length).getLast? with
      | none => ⟨host, .turnedAway ending, later⟩
      | some call => ⟨call.after, .left ending, later⟩])

/-- A closure that is entered is left again, with the mark cleared. -/
theorem tells_use {host inner : Host} (told : List SlotCall) {opened : Bool}
    {store : OpenStore} {closure : ToldBody Unit} (traced : Traced closure)
    (step : SlotStep host (.entered opened) inner) (held : inner.slot = ⟨true, some store⟩)
    (free : host.slot.held = false) :
    let ran := closure (inner, told ++ [⟨host, .entered opened, inner⟩])
    let listed := ran.2.2 ++ [⟨ran.2.1, .ended ran.1, ran.2.1⟩]
    (listed.drop told.length).getLast? = some ⟨ran.2.1, .ended ran.1, ran.2.1⟩ ∧
      Tells host told ran.2.1.releaseSlot
        (listed ++ [⟨ran.2.1, .left ran.1, ran.2.1.releaseSlot⟩]) := by
  intro ran listed
  have filled : SlotFilled inner := fun _ => by rw [held]; rfl
  obtain ⟨calls, shape, course, kept⟩ :=
    traced inner (told ++ [⟨host, .entered opened, inner⟩]) filled
  have stillHeld : ∃ last, ran.2.1.slot = ⟨true, some last⟩ := by
    rcases kept.works (by rw [held]) with same | ⟨last, handle, _, after⟩
    · exact ⟨store, same.trans held⟩
    · exact ⟨_, after⟩
  obtain ⟨last, lastSlot⟩ := stillHeld
  have released : ran.2.1.releaseSlot = { ran.2.1 with slot := ⟨false, some last⟩ } := by
    rw [releaseSlot, lastSlot]
  have since : listed = told ++ (⟨host, .entered opened, inner⟩ :: (calls ++
      [⟨ran.2.1, .ended ran.1, ran.2.1⟩])) := by
    simp only [listed, ran, shape]
    simp
  refine ⟨?_, _, by rw [since, List.append_assoc], ?_, ?_⟩
  · rw [since, List.drop_left, List.getLast?_cons, List.getLast?_concat]
    rfl
  · rw [List.cons_append, List.append_assoc]
    refine .step ⟨host, .entered opened, inner⟩ step (course.trans ?_)
    have leaving := Course.of_step (SlotStep.left ran.1 lastSlot)
    rw [← released] at leaving
    exact (Course.of_step (.ended ran.1 (by rw [lastSlot]))).trans leaving
  · rw [released]
    refine ⟨free.symm, fun heldBefore => ?_⟩
    rw [free] at heldBefore
    cases heldBefore

theorem use_traced {closure : ToldBody Unit} (traced : Traced closure) :
    Traced (useTold closure) := by
  intro host told filled
  cases slot : host.slot with
  | mk held store =>
      cases held with
      | true =>
          have inUse : host.slot.held = true := by rw [slot]
          have run : useTold closure (host, told) = (.failed (.store .slotInUse), host,
              told ++ [⟨host, .turnedAway (.failed (.store .slotInUse)), host⟩]) := by
            simp only [useTold, withSlot, inUse, if_true, List.drop_length, List.getLast?_nil]
          rw [run]
          exact .of_step (.refused inUse) (Works.refl host).kept
      | false =>
          have free : host.slot.held = false := by rw [slot]
          cases store with
          | some opened =>
              let inner : Host := { host with slot := ⟨true, some opened⟩ }
              obtain ⟨last, tells⟩ := tells_use told traced (SlotStep.reused slot)
                (rfl : inner.slot = ⟨true, some opened⟩) free
              unfold useTold withSlot
              simp only [slot, Bool.false_eq_true, if_false, Option.isNone_some, last]
              exact tells
          | none =>
              have aside := open_from_aside (.environment none) { host with slot := ⟨true, none⟩ }
              cases opens : openFrom (.environment none) { host with slot := ⟨true, none⟩ } with
              | mk answer middle =>
                  rw [opens] at aside
                  have stillEmpty : middle.releaseSlot.slot = .empty := by
                    rw [releaseSlot, aside.slot]
                    rfl
                  have keptEmpty : Kept host middle.releaseSlot :=
                    ⟨by rw [stillEmpty, slot]; rfl, fun held => by rw [slot] at held; cases held⟩
                  unfold useTold withSlot
                  simp only [slot, opens, Bool.false_eq_true, if_false, Option.isNone_none]
                  cases answer with
                  | returned result =>
                      obtain ⟨store, changed⟩ := result
                      have marked : middle.slot = ⟨true, none⟩ := aside.slot
                      obtain ⟨last, tells⟩ := tells_use told traced
                        (SlotStep.opened slot opens)
                        (rfl : ({ middle with slot := ⟨true, some store⟩ } : Host).slot = _) free
                      simp only [marked, last]
                      exact tells
                  | failed error =>
                      simp only [List.drop_length, List.getLast?_nil]
                      exact .of_step (.unopened slot stillEmpty nofun) keptEmpty
                  | crashed =>
                      simp only [List.drop_length, List.getLast?_nil]
                      exact .of_step (.unopened slot stillEmpty nofun) keptEmpty

/-! ## Resets -/

theorem release_emptied {host : Host} {opened : OpenStore}
    (slot : host.slot = ⟨false, some opened⟩) :
    Emptied host (release opened { host with slot := .empty }) := by
  unfold release
  split
  · rename_i closed
    have idle : ∀ number, opened.isWriting number = false := by
      intro number
      have connection : opened.handle.connection = .closed := of_decide_eq_true closed
      simp only [OpenStore.isWriting, connection, Bool.and_false]
    refine ⟨rfl, rfl, fun number => ?_⟩
    rw [slot, Option.any_some, idle, if_neg Bool.false_ne_true]
    rfl
  · have file := file_close opened.handle (host.database opened.database)
    let left := (Store.close ⟨opened.handle, host.database opened.database⟩).2
    let closed : OpenStore := { opened with handle := left.handle }
    let middle : Host := { host with slot := .empty }.putDatabase opened.database left.file
    have aside := retire_store_aside closed middle
    have databases : ∀ number, (middle.retireStore closed).database number =
        middle.database number := fun number => by
      rw [database, databases_retire_store]
      rfl
    refine ⟨aside.slot, aside.stores, fun number => ?_⟩
    rw [slot, Option.any_some]
    refine (databases number).trans ?_
    by_cases same : opened.database = number
    · subst same
      rw [database_put_self, OpenStore.isWriting, beq_self_eq_true, Bool.true_and]
      refine file.trans ?_
      cases opened.handle.connection <;> rfl
    · have other : opened.isWriting number = false := by
        rw [OpenStore.isWriting, beq_eq_false_iff_ne.2 same, Bool.false_and]
      rw [database_put_of_ne _ _ (Ne.symm same), other, if_neg Bool.false_ne_true]
      rfl

theorem reset_slot_step (host : Host) :
    SlotStep host (.reset (resetSlot host).1) (resetSlot host).2 := by
  cases slot : host.slot with
  | mk held store =>
      cases held with
      | true =>
          have inUse : host.slot.held = true := by rw [slot]
          have refused : resetSlot host = (.error (.store .slotInUse), host) := by
            simp only [resetSlot, inUse, if_true]
          rw [refused]
          exact .resetRefused inUse
      | false =>
          have free : host.slot.held = false := by rw [slot]
          cases store with
          | none =>
              have kept : resetSlot host = (.ok (), host) := by
                simp only [resetSlot, slot, Bool.false_eq_true, if_false]
              rw [kept]
              refine .emptied free ⟨slot, rfl, fun number => ?_⟩
              rw [slot, Option.any_none, if_neg Bool.false_ne_true]
          | some opened =>
              have released : resetSlot host =
                  (.ok (), release opened { host with slot := .empty }) := by
                simp only [resetSlot, slot, Bool.false_eq_true, if_false]
                rfl
              rw [released]
              exact .emptied free (release_emptied slot)

theorem reset_slot_kept (host : Host) : Kept host (resetSlot host).2 := by
  cases held : host.slot.held with
  | true =>
      have refused : resetSlot host = (.error (.store .slotInUse), host) := by
        simp only [resetSlot, held, if_true]
      rw [refused]
      exact (Works.refl host).kept
  | false =>
      have after : (resetSlot host).2.slot.held = false := by
        have step := reset_slot_step host
        generalize (resetSlot host).1 = answer at step
        generalize (resetSlot host).2 = later at step
        cases step with
        | resetRefused inUse =>
            rw [held] at inUse
            cases inUse
        | emptied _ emptied => rw [emptied.slot]; rfl
      exact ⟨after.trans held.symm, fun inUse => by rw [held] at inUse; cases inUse⟩

end Host

open Host

/-- A program on one thread that uses the shared store. Each call is followed by what the program
does on its answer; in between it may do anything else with the host. -/
inductive SlotProgram where
  /-- Returns, fails or crashes; inside a closure, this ends the closure. -/
  | done (ending : Ending Failure Unit)
  | isInitialized (next : Bool → SlotProgram)
  | reset (next : Except Failure Unit → SlotProgram)
  | use (closure : SlotProgram) (next : Ending Failure Unit → SlotProgram)
  | useInHook (invocation : Invocation) (closure : Int → HookChanges → SlotProgram)
      (next : Ending Failure Unit → SlotProgram)
  /-- An operation on the shared store by whoever holds it. -/
  | perform (operation : Operation) (next : Except Failure Outcome → SlotProgram)
  | elsewhere (change : Host → Host) (next : Host → SlotProgram)

namespace SlotProgram

def run : SlotProgram → ToldBody Unit
  | done ending => fun state => (ending, state)
  | isInitialized next => fun (host, told) =>
      (next host.slot.isInitialized).run (host, told ++ [⟨host, .asked host.slot.isInitialized, host⟩])
  | reset next => fun (host, told) =>
      let (answer, later) := resetSlot host
      (next answer).run (later, told ++ [⟨host, .reset answer, later⟩])
  | use closure next => fun state =>
      let (ending, later) := useTold closure.run state
      (next ending).run later
  | useInHook invocation closure next => fun state =>
      let (ending, later) :=
        useTold (Host.runHook slotName invocation fun revision changes =>
          (closure revision changes).run) state
      (next ending).run later
  | perform operation next => fun (host, told) =>
      let (answer, later) := on slotName operation.action host
      (next answer).run (later, told)
  | elsewhere change next => fun (host, told) =>
      let later := { change host with slot := host.slot }
      (next later).run (later, told)

/-- Every call of a program is a step of the slot. -/
theorem run_traced (program : SlotProgram) : Traced program.run := by
  induction program with
  | done ending =>
      intro host told filled
      exact .of_works (.refl host)
  | isInitialized next hypothesis =>
      intro host told filled
      have asked : Tells host told host (told ++ [⟨host, .asked host.slot.isInitialized, host⟩]) :=
        .of_step (.asked host) (Works.refl host).kept
      exact asked.trans (hypothesis _ host _ filled)
  | reset next hypothesis =>
      intro host told filled
      have tells : Tells host told (resetSlot host).2 (told ++ [⟨host, .reset (resetSlot host).1, (resetSlot host).2⟩]) :=
        .of_step (reset_slot_step host) (reset_slot_kept host)
      exact tells.trans (hypothesis _ _ _ (tells.filled filled))
  | use closure next closureHypothesis hypothesis =>
      intro host told filled
      have used := use_traced closureHypothesis host told filled
      exact used.trans (hypothesis _ _ _ (used.filled filled))
  | useInHook invocation closure next closureHypothesis hypothesis =>
      intro host told filled
      have used := use_traced (.run_hook invocation closureHypothesis) host told filled
      exact used.trans (hypothesis _ _ _ (used.filled filled))
  | perform operation next hypothesis =>
      intro host told filled
      have works := on_works operation.action host
      exact (Tells.of_works works).trans (hypothesis _ _ told (works.kept.filled filled))
  | elsewhere change next hypothesis =>
      intro host told filled
      have works : Works host { change host with slot := host.slot } := .of_slot_eq rfl
      exact (Tells.of_works works).trans (hypothesis _ _ told (works.kept.filled filled))

end SlotProgram

/-! ## What the courses of programs are like -/

namespace Host.Course

variable {first last : Host} {call : SlotCall} {early calls : List SlotCall}

theorem works_of_nil (course : Course first [] last) : Works first last := by
  generalize shape : ([] : List SlotCall) = calls at course
  induction course with
  | refl host => exact .refl host
  | works works _ hypothesis => exact works.trans (hypothesis shape)
  | step step _ _ => cases shape

theorem head (course : Course first (call :: calls) last) :
    Works first call.before ∧ SlotStep call.before call.event call.after ∧
      Course call.after calls last := by
  generalize shape : call :: calls = listed at course
  induction course with
  | refl host => cases shape
  | works works _ hypothesis =>
      obtain ⟨further, step, rest⟩ := hypothesis shape
      exact ⟨works.trans further, step, rest⟩
  | step call step rest _ =>
      cases shape
      exact ⟨.refl _, step, rest⟩

theorem split (course : Course first (early ++ calls) last) :
    ∃ middle, Course first early middle ∧ Course middle calls last := by
  induction early generalizing first with
  | nil => exact ⟨first, .refl first, course⟩
  | cons call later hypothesis =>
      obtain ⟨works, step, rest⟩ := head course
      obtain ⟨middle, before, after⟩ := hypothesis rest
      exact ⟨middle, .works works (.step _ step before), after⟩

theorem step_of_mem (course : Course first calls last) (member : call ∈ calls) :
    SlotStep call.before call.event call.after := by
  obtain ⟨before, after, shape⟩ := List.append_of_mem member
  rw [shape] at course
  obtain ⟨_, _, rest⟩ := split course
  exact (head rest).2.1

end Host.Course

/-- A call from inside a closure: the slot is held and counts as initialized, and every use and
reset is refused. The host is left exactly as it was. -/
structure SlotCall.Inside (call : SlotCall) : Prop where
  held : call.before.slot.held = true
  untouched : call.after = call.before
  event : call.event = .asked true ∨ (∃ ending, call.event = .ended ending) ∨
    call.event = .turnedAway (.failed (.store .slotInUse)) ∨
    call.event = .reset (.error (.store .slotInUse))

namespace Host

theorem SlotStep.inside {host later : Host} {event : SlotEvent} {opened : OpenStore}
    (step : SlotStep host event later) (held : host.slot = ⟨true, some opened⟩) :
    (∃ ending, event = .left ending ∧ later = { host with slot := ⟨false, some opened⟩ }) ∨
      SlotCall.Inside ⟨host, event, later⟩ := by
  have inUse : host.slot.held = true := by rw [held]
  cases step with
  | asked => exact .inr ⟨inUse, rfl, .inl (by rw [inUse, Bool.true_or])⟩
  | refused => exact .inr ⟨inUse, rfl, .inr (.inr (.inl rfl))⟩
  | resetRefused => exact .inr ⟨inUse, rfl, .inr (.inr (.inr rfl))⟩
  | ended ending => exact .inr ⟨inUse, rfl, .inr (.inl ⟨ending, rfl⟩)⟩
  | left ending slot =>
      rw [held] at slot
      cases slot
      exact .inl ⟨ending, rfl, rfl⟩
  | unopened empty | opened empty =>
      rw [held] at empty
      cases empty
  | reused free =>
      rw [held] at free
      cases free
  | emptied free =>
      rw [inUse] at free
      cases free

namespace Course

variable {first last : Host} {calls : List SlotCall} {opened : OpenStore}

/-- A closure is left again if nobody holds the slot at last. Up to there all calls are calls from
inside, and the slot keeps the store as the closure left it. -/
theorem leaves (course : Course first calls last) (held : first.slot = ⟨true, some opened⟩)
    (ended : last.slot.held = false) :
    ∃ middle leaving rest ending handle, calls = middle ++ leaving :: rest ∧
      (∀ call ∈ middle, call.Inside) ∧ leaving.event = .left ending ∧
      leaving.before.slot = ⟨true, some { opened with handle := handle }⟩ ∧
      leaving.after =
        { leaving.before with slot := ⟨false, some { opened with handle := handle }⟩ } := by
  induction calls generalizing first opened with
  | nil =>
      obtain ⟨handle, slot⟩ := course.works_of_nil.same_store held
      rw [slot] at ended
      cases ended
  | cons call later hypothesis =>
      obtain ⟨works, step, rest⟩ := course.head
      obtain ⟨handle, slot⟩ := works.same_store held
      rcases step.inside slot with ⟨ending, event, after⟩ | inside
      · exact ⟨[], call, later, ending, handle, rfl, List.forall_mem_nil _, event, slot, after⟩
      · have after : call.after.slot = ⟨true, some { opened with handle := handle }⟩ :=
          (congrArg Host.slot inside.untouched).trans slot
        obtain ⟨middle, leaving, others, ending, handle, shape, calls, left⟩ :=
          hypothesis rest after
        exact ⟨call :: middle, leaving, others, ending, handle, by rw [shape]; rfl,
          List.forall_mem_cons.2 ⟨inside, calls⟩, left⟩

/-- A slot with a store keeps one, and none is opened for it, until it is reset. -/
theorem filled (course : Course first calls last) (store : first.slot.store.isSome = true)
    (unreset : ∀ call ∈ calls, call.event ≠ .reset (.ok ())) :
    (∀ call ∈ calls, call.event ≠ .entered true) ∧ last.slot.store.isSome = true := by
  induction calls generalizing first with
  | nil => exact ⟨List.forall_mem_nil _, course.works_of_nil.initialized.trans store⟩
  | cons call later hypothesis =>
      obtain ⟨works, step, rest⟩ := course.head
      have before : call.before.slot.store.isSome = true := works.initialized.trans store
      have laterUnreset := fun other member => unreset other (List.mem_cons_of_mem call member)
      have this : call.event ≠ .entered true ∧ call.after.slot.store.isSome = true := by
        have own := unreset call List.mem_cons_self
        obtain ⟨host, event, after⟩ := call
        dsimp only at step before
        cases step with
        | asked | refused | resetRefused | ended => exact ⟨nofun, before⟩
        | left | reused => exact ⟨nofun, rfl⟩
        | unopened empty | opened empty =>
            rw [empty] at before
            cases before
        | emptied => exact absurd rfl own
      obtain ⟨others, lastStore⟩ := hypothesis rest this.2 laterUnreset
      exact ⟨List.forall_mem_cons.2 ⟨this.1, others⟩, lastStore⟩

end Course

end Host

/-- What the calls of a program are like that starts where nobody holds the slot. -/
structure SlotProtocol (host : Host) (calls : List SlotCall) (last : Host) : Prop where
  course : Course host calls last
  free : last.slot.held = false
  /-- Each closure is left once, and up to there nothing is granted to it. -/
  left : ∀ early entry late opened, calls = early ++ entry :: late →
    entry.event = .entered opened →
      ∃ store middle leaving rest ending handle, entry.after.slot = ⟨true, some store⟩ ∧
        late = middle ++ leaving :: rest ∧ (∀ call ∈ middle, call.Inside) ∧
        leaving.event = .left ending ∧
        leaving.before.slot = ⟨true, some { store with handle := handle }⟩ ∧
        leaving.after =
          { leaving.before with slot := ⟨false, some { store with handle := handle }⟩ }
  openedOnce : ∀ early first middle second late,
    calls = early ++ first :: (middle ++ second :: late) → first.event = .entered true →
      second.event = .entered true → ∃ call ∈ middle, call.event = .reset (.ok ())
  unopened : ∀ call ∈ calls, ∀ ending, call.event = .turnedAway ending →
    call.before.slot.held = false → call.before.slot = .empty ∧ call.after.slot = .empty
  asked : ∀ call ∈ calls, ∀ answer, call.event = .asked answer → call.before.slot.held = false →
    (answer = true ↔ call.before.slot.store.isSome = true)
  reset : ∀ call ∈ calls, call.event = .reset (.ok ()) →
    call.before.slot.held = false ∧ Emptied call.before call.after

/-- Whatever a program does with the shared store, it keeps to the protocol. -/
theorem SlotProgram.slot_protocol (program : SlotProgram) {host : Host}
    (free : host.slot.held = false) :
    SlotProtocol host (program.run (host, [])).2.2 (program.run (host, [])).2.1 := by
  have filled : SlotFilled host := fun held => by rw [free] at held; cases held
  obtain ⟨calls, shape, course, kept⟩ := program.run_traced host [] filled
  rw [List.nil_append] at shape
  rw [shape]
  have stillFree := kept.held.trans free
  refine ⟨course, stillFree, ?_, ?_, ?_, ?_, ?_⟩
  · intro early entry late opened listed entered
    rw [listed] at course
    obtain ⟨_, _, further⟩ := course.split
    obtain ⟨_, step, rest⟩ := further.head
    rw [entered] at step
    obtain ⟨store, slot⟩ : ∃ store, entry.after.slot = ⟨true, some store⟩ := by
      generalize entry.before = before at step
      generalize entry.after = after at step
      cases step with
      | opened | reused => exact ⟨_, rfl⟩
    obtain ⟨middle, leaving, others, ending, handle, whole, inside, left⟩ :=
      rest.leaves slot stillFree
    exact ⟨store, middle, leaving, others, ending, handle, slot, whole, inside, left⟩
  · intro early first middle second late listed firstOpened secondOpened
    by_contra unreset
    rw [listed] at course
    obtain ⟨_, _, further⟩ := course.split
    obtain ⟨_, step, rest⟩ := further.head
    rw [firstOpened] at step
    have store : first.after.slot.store.isSome = true := by
      generalize first.before = before at step
      generalize first.after = after at step
      cases step with
      | opened => rfl
    obtain ⟨reached, between, last⟩ := rest.split
    have stillFilled := (between.filled store fun call member reset =>
      unreset ⟨call, member, reset⟩).2
    obtain ⟨works, again, _⟩ := last.head
    have secondFilled := works.initialized.trans stillFilled
    rw [secondOpened] at again
    generalize second.before = before at again secondFilled
    generalize second.after = after at again
    cases again with
    | opened empty =>
        rw [empty] at secondFilled
        cases secondFilled
  · intro call member ending turnedAway outside
    have step := course.step_of_mem member
    rw [turnedAway] at step
    generalize call.before = before at step outside
    generalize call.after = after at step
    cases step with
    | refused held =>
        rw [outside] at held
        cases held
    | unopened empty stillEmpty => exact ⟨empty, stillEmpty⟩
  · intro call member answer asked outside
    have step := course.step_of_mem member
    rw [asked] at step
    generalize call.before = before at step outside
    generalize call.after = after at step
    cases step with
    | asked => rw [outside, Bool.false_or]
  · intro call member reset
    have step := course.step_of_mem member
    rw [reset] at step
    generalize call.before = before at step
    generalize call.after = after at step
    cases step with
    | emptied free emptied => exact ⟨free, emptied⟩

/-- Two uses and a reset inside of a closure that crashes in the end, and a reset after it. -/
theorem crash_after_refusals :
    let host := Host.initial "agent" ⟨1714564800, 0⟩
    let refused : Failure := .store .slotInUse
    let program : SlotProgram :=
      .use
        (.use (.done (.returned ())) fun _ => .reset fun _ => .use (.done .crashed) fun _ =>
          .isInitialized fun _ => .done .crashed)
        fun _ => .reset fun _ => .done (.returned ())
    let ran := program.run (host, [])
    SlotProtocol host ran.2.2 ran.2.1 ∧ ran.2.2.map (·.event) =
      [.entered true, .turnedAway (.failed refused), .reset (.error refused),
        .turnedAway (.failed refused), .asked true, .ended .crashed, .left .crashed,
        .reset (.ok ())] := by
  intro host refused program ran
  exact ⟨program.slot_protocol rfl, by decide +kernel⟩

end UnitState
