import UnitState.Proofs.Moves

/-!
# Coherence

Whatever the holders of stores do, and whatever is edited from outside between the scopes,
the revision of a handle and its transaction never come apart.
-/

set_option autoImplicit false

namespace UnitState.Fleet

variable {Name : Type} [DecidableEq Name]

omit [DecidableEq Name] in
theorem of_file_coherent {file : DatabaseFile} (sound : file.contents.Sound)
    (unlocked : file.locked = false) : (ofFile file : Fleet Name).Coherent where
  handles named := nomatch named
  sound := sound
  locked := by
    constructor
    · intro locked
      exact absurd (unlocked.symm.trans locked) Bool.false_ne_true
    · intro held
      obtain ⟨name, revision, pending, location, readOnly, named⟩ := held
      cases named
  alone holds := by
    obtain ⟨location, readOnly, named⟩ := holds
    cases named

theorem connect_ok {location : Location} {readOnly : Bool} {file : DatabaseFile} {store : Store}
    (connects : Store.connect location readOnly file = .ok store) :
    store.handle = .ofLocation location readOnly ∧ store.file.contents = file.contents ∧
      store.file.locked = file.locked ∧ store.file.version = Schema.currentVersion ∧
        (store.file.hasTables = true ∨ store.file = file) := by
  unfold Store.connect DatabaseFile.migrate at connects
  split at connects
  · rename_i later migrated
    cases connects
    simp only at migrated
    split at migrated
    · rename_i current
      cases migrated
      exact ⟨rfl, rfl, rfl, current, .inr rfl⟩
    · split at migrated
      · cases migrated
      · split at migrated
        · cases migrated
        · split at migrated
          · cases migrated
          · cases migrated
            exact ⟨rfl, rfl, rfl, rfl, .inl rfl⟩
  · cases connects

theorem Coherent.put {fleet : Fleet Name} (coherent : fleet.Coherent) {name : Name}
    {left : Option Handle} (outside : ∀ handle, left = some handle → handle.Outside)
    {file : DatabaseFile} (sound : file.contents.Sound)
    (locked : file.locked = true ↔
      ∃ other revision pending, other ≠ name ∧ fleet.Holds other revision pending) :
    (fleet.put name left file).Coherent := by
  have apart : ∀ {other revision pending},
      (fleet.put name left file).Holds other revision pending → other ≠ name := by
    intro other revision pending holds same
    obtain ⟨location, readOnly, named⟩ := holds
    rw [same, handles_put_self] at named
    have none := (outside _ named).revision
    cases none
  constructor
  · intro other handle named
    by_cases same : other = name
    · subst same
      rw [handles_put_self] at named
      exact (outside handle named).coherent
    · rw [handles_put_of_ne fleet name left file same] at named
      exact coherent.handles named
  · exact sound
  · rw [file_put, locked]
    constructor
    · intro held
      obtain ⟨other, revision, pending, different, holds⟩ := held
      exact ⟨other, revision, pending,
        (holds_put_of_ne fleet name left file different revision pending).2 holds⟩
    · intro held
      obtain ⟨other, revision, pending, holds⟩ := held
      exact ⟨other, revision, pending, apart holds,
        (holds_put_of_ne fleet name left file (apart holds) revision pending).1 holds⟩
  · intro first second firstRevision secondRevision firstPending secondPending holds others
    exact coherent.alone
      ((holds_put_of_ne fleet name left file (apart holds) firstRevision firstPending).1 holds)
      ((holds_put_of_ne fleet name left file (apart others) secondRevision secondPending).1 others)

theorem Coherent.put_writing {fleet : Fleet Name} (coherent : fleet.Coherent) {name : Name}
    {location : Location} {readOnly : Bool} {revision : Int} {pending : Database}
    (opened : pending.Opened revision) {file : DatabaseFile} (sound : file.contents.Sound)
    (locked : file.locked = true)
    (only : ∀ other revision pending, fleet.Holds other revision pending → other = name) :
    (fleet.put name (some ⟨location, readOnly, .writing pending, some revision⟩) file).Coherent := by
  have holder : ∀ {other otherRevision otherPending},
      (fleet.put name (some ⟨location, readOnly, .writing pending, some revision⟩) file).Holds
        other otherRevision otherPending → other = name := by
    intro other otherRevision otherPending holds
    by_contra different
    exact different (only other otherRevision otherPending
      ((holds_put_of_ne fleet name _ file different otherRevision otherPending).1 holds))
  constructor
  · intro other handle named
    by_cases same : other = name
    · subst same
      rw [handles_put_self] at named
      cases named
      exact .writing location readOnly opened
    · rw [handles_put_of_ne fleet name _ file same] at named
      exact coherent.handles named
  · exact sound
  · rw [file_put]
    refine iff_of_true locked ⟨name, revision, pending, location, readOnly, ?_⟩
    rw [handles_put_self]
  · intro first second firstRevision secondRevision firstPending secondPending holds others
    rw [holder holds, holder others]

section Lock

omit [DecidableEq Name]

theorem Coherent.not_holds {fleet : Fleet Name} (coherent : fleet.Coherent)
    (unlocked : fleet.file.locked = false) {name : Name} {revision : Int} {pending : Database} :
    ¬fleet.Holds name revision pending := by
  intro holds
  have locked := coherent.locked.2 ⟨name, revision, pending, holds⟩
  exact absurd (unlocked.symm.trans locked) Bool.false_ne_true

theorem Coherent.locked_outside {fleet : Fleet Name} (coherent : fleet.Coherent) {name : Name}
    (outside : fleet.Outside name) :
    fleet.file.locked = true ↔
      ∃ other revision pending, other ≠ name ∧ fleet.Holds other revision pending := by
  rw [coherent.locked]
  constructor
  · intro held
    obtain ⟨other, revision, pending, holds⟩ := held
    have different : other ≠ name := by
      intro same
      subst same
      exact outside.not_holds holds
    exact ⟨other, revision, pending, different, holds⟩
  · intro held
    obtain ⟨other, revision, pending, _, holds⟩ := held
    exact ⟨other, revision, pending, holds⟩

theorem Coherent.unlocked {fleet : Fleet Name} (coherent : fleet.Coherent) {name : Name}
    {revision : Int} {pending : Database} (holds : fleet.Holds name revision pending) :
    false = true ↔
      ∃ other revision pending, other ≠ name ∧ fleet.Holds other revision pending := by
  constructor
  · intro impossible
    cases impossible
  · intro held
    obtain ⟨other, _, _, different, others⟩ := held
    exact absurd (coherent.alone others holds) different

end Lock

theorem Coherent.move {fleet later : Fleet Name} (coherent : fleet.Coherent) {name : Name}
    {event : Event} {result : Option (Except StoreError Outcome)}
    (move : fleet.Move name event result later) : later.Coherent := by
  cases move with
  | unanswered => exact coherent
  | still => exact coherent
  | connected vacant connects =>
      obtain ⟨handle, contents, locked, _, _⟩ := connect_ok connects
      apply coherent.put
      · intro left same
        cases same
        rw [handle]
        exact ⟨rfl, nofun⟩
      · rw [contents]
        exact coherent.sound
      · rw [locked]
        exact coherent.locked_outside (.of_vacant vacant)
  | wrote named free writing =>
      exact ⟨coherent.handles, coherent.sound.assign_all_none _, coherent.locked, coherent.alone⟩
  | entered named free opens =>
      apply coherent.put_writing
      · exact Entry.opening_opened coherent.sound opens
      · exact coherent.sound
      · rfl
      · -- a free store finds the file unlocked, so nobody else is in a scope
        intro other revision pending holds
        exact absurd holds (coherent.not_holds free.unlocked)
  | inside named opened stays =>
      have holds : fleet.Holds name _ _ := ⟨_, _, named⟩
      apply coherent.put_writing
      · exact opened.assign_all _
      · exact coherent.sound
      · exact coherent.locked.2 ⟨_, _, _, holds⟩
      · intro other revision pending others
        exact coherent.alone others holds
  | committed named holds opened commits =>
      apply coherent.put
      · intro left remains
        exact Event.remainder_outside (by simp [commits, Kind.ends]) _ remains
      · exact opened.sound
      · exact coherent.unlocked holds
  | discarded named holds discards =>
      apply coherent.put
      · intro left remains
        exact Event.remainder_outside (by simp [discards, Kind.ends]) _ remains
      · exact coherent.sound
      · exact coherent.unlocked holds
  | released named outside ends =>
      apply coherent.put
      · intro left remains
        exact Event.remainder_outside ends _ remains
      · exact coherent.sound
      · exact coherent.locked_outside (.of_named named outside)

theorem Coherent.step {fleet : Fleet Name} (coherent : fleet.Coherent) (name : Name)
    (event : Event) : (fleet.step name event).2.Coherent :=
  coherent.move (step_move coherent name event).1

omit [DecidableEq Name] in
theorem Coherent.edit {fleet : Fleet Name} (coherent : fleet.Coherent) {edit : Edit}
    {file : DatabaseFile} (edited : fleet.file.edit edit = some file) :
    Coherent { fleet with file := file } := by
  obtain ⟨sound, locked, _⟩ := DatabaseFile.edit_sound coherent.sound edited
  exact ⟨coherent.handles, sound, locked ▸ coherent.locked, coherent.alone⟩

/-- The fleets that come about on a new file, whatever the holders of stores do, and
whatever is edited from outside meanwhile. -/
inductive Reachable : Fleet Name → Prop
  | fresh : Reachable (ofFile .fresh)
  | step {fleet : Fleet Name} (before : Reachable fleet) (name : Name) (event : Event) :
      Reachable (fleet.step name event).2
  | edit {fleet : Fleet Name} (before : Reachable fleet) (edit : Edit) {file : DatabaseFile}
      (edited : fleet.file.edit edit = some file) : Reachable { fleet with file := file }

theorem Reachable.coherent {fleet : Fleet Name} (reachable : fleet.Reachable) :
    fleet.Coherent := by
  induction reachable with
  | fresh => exact of_file_coherent Database.empty_sound rfl
  | step before name event hypothesis => exact hypothesis.step name event
  | edit before edit edited hypothesis => exact hypothesis.edit edited

section Seen

omit [DecidableEq Name]

theorem Coherent.opened {fleet : Fleet Name} (coherent : fleet.Coherent) {name : Name}
    {revision : Int} {pending : Database} (holds : fleet.Holds name revision pending) :
    pending.Opened revision := by
  obtain ⟨location, readOnly, named⟩ := holds
  cases coherent.handles named with
  | writing _ _ opened => exact opened

theorem Coherent.outside_or_holds {fleet : Fleet Name} (coherent : fleet.Coherent)
    (name : Name) : fleet.Outside name ∨ ∃ revision pending, fleet.Holds name revision pending := by
  cases named : fleet.handles name with
  | none => exact .inl (.of_vacant named)
  | some handle =>
      cases coherent.handles named with
      | closed | idle => exact .inl (.of_named named ⟨rfl, nofun⟩)
      | writing location readOnly opened => exact .inr ⟨_, _, location, readOnly, named⟩

end Seen

theorem Move.handles_of_ne {fleet later : Fleet Name} {name other : Name} {event : Event}
    {result : Option (Except StoreError Outcome)} (move : fleet.Move name event result later)
    (different : other ≠ name) : later.handles other = fleet.handles other := by
  cases move with
  | unanswered | still | wrote => rfl
  | connected | entered | inside | committed | discarded | released =>
      exact handles_put_of_ne fleet name _ _ different

/-- Where the contents of a scope come from that is open after an event. -/
inductive Continues (fleet later : Fleet Name) (name : Name) (event : Event) (holder : Name)
    (revision : Int) : Database → Prop
  | kept {pending : Database} (holds : fleet.Holds holder revision pending)
      (idle : holder = name → later = fleet) :
      Continues fleet later name event holder revision pending
  | entered {entry : Entry} {opening : Opening} (acts : holder = name)
      (enters : event = .perform (.enter entry)) (outside : fleet.Outside holder)
      (opens : entry.opening fleet.file.contents = .ok opening)
      (number : opening.revision = revision) :
      Continues fleet later name event holder revision opening.pending
  | performed {operation : Operation} {pending : Database} (acts : holder = name)
      (performs : event = .perform operation) (holds : fleet.Holds holder revision pending) :
      Continues fleet later name event holder revision
        (pending.assignAll (some revision) (operation.writes pending.live))

/-- A scope is open after an event only if nothing was committed. -/
theorem Move.continues {fleet later : Fleet Name} (coherent : fleet.Coherent) {name : Name}
    {event : Event} {answer : Option (Except StoreError Outcome)}
    (move : fleet.Move name event answer later) {holder : Name} {revision : Int}
    {pending : Database} (holds : later.Holds holder revision pending) :
    later.file.contents = fleet.file.contents ∧
      Continues fleet later name event holder revision pending := by
  have others : holder ≠ name → fleet.Holds holder revision pending := by
    intro different
    obtain ⟨location, readOnly, named⟩ := holds
    rw [move.handles_of_ne different] at named
    exact ⟨location, readOnly, named⟩
  by_cases acts : holder = name
  · subst acts
    cases move with
    | unanswered | still => exact ⟨rfl, .kept holds fun _ => rfl⟩
    | connected vacant connects =>
        obtain ⟨handle, _⟩ := connect_ok connects
        obtain ⟨location, readOnly, named⟩ := holds
        rw [handles_put_self, handle] at named
        cases named
    | wrote named free writing => exact absurd holds (Outside.of_free named free).not_holds
    | entered named free opens =>
        obtain ⟨location, readOnly, writing⟩ := holds
        rw [handles_put_self] at writing
        cases writing
        exact ⟨rfl, .entered rfl rfl (.of_free named free) opens rfl⟩
    | inside named opened stays =>
        obtain ⟨location, readOnly, writing⟩ := holds
        rw [handles_put_self] at writing
        cases writing
        exact ⟨rfl, .performed rfl rfl ⟨_, _, named⟩⟩
    | committed _ _ _ commits =>
        have ends : event.kind.ends = true := by rw [commits]; rfl
        exact absurd holds (Outside.of_remainder fleet holder ends _ _).not_holds
    | discarded _ _ discards =>
        have ends : event.kind.ends = true := by rw [discards]; rfl
        exact absurd holds (Outside.of_remainder fleet holder ends _ _).not_holds
    | released _ _ ends =>
        exact absurd holds (Outside.of_remainder fleet holder ends _ _).not_holds
  · have held := others acts
    have kept : Continues fleet later name event holder revision pending :=
      .kept held fun same => absurd same acts
    cases move with
    | unanswered | still | released => exact ⟨rfl, kept⟩
    | connected vacant connects => exact ⟨(connect_ok connects).2.1, kept⟩
    | wrote _ free | entered _ free => exact absurd held (coherent.not_holds free.unlocked)
    | inside named => exact absurd (coherent.alone held ⟨_, _, named⟩) acts
    | committed _ holder | discarded _ holder => exact absurd (coherent.alone held holder) acts

inductive Leaves (fleet : Fleet Name) (name : Name) (event : Event) : Database → Prop
  | same : Leaves fleet name event fleet.file.contents
  | wrote (writes : List Write) :
      Leaves fleet name event (fleet.file.contents.assignAll none writes)
  | committed {revision : Int} {pending : Database} (holds : fleet.Holds name revision pending)
      (commits : event.kind = .commit) : Leaves fleet name event pending

theorem Move.leaves {fleet later : Fleet Name} {name : Name} {event : Event}
    {answer : Option (Except StoreError Outcome)}
    (move : fleet.Move name event answer later) :
    Leaves fleet name event later.file.contents := by
  cases move with
  | unanswered | still | entered | inside | discarded | released => exact .same
  | connected vacant connects =>
      rw [file_put, (connect_ok connects).2.1]
      exact .same
  | wrote => exact .wrote _
  | committed _ holds _ commits => exact .committed holds commits

/-- Whoever is in a scope after an event has a history row for every live text that the
event has changed. -/
theorem Move.recorded {fleet later : Fleet Name} (coherent : fleet.Coherent) {name : Name}
    {event : Event} {answer : Option (Except StoreError Outcome)}
    (move : fleet.Move name event answer later) {revision : Int} {pending : Database}
    (holds : later.Holds name revision pending) (key : String) :
    pending.live.get? key = (fleet.seen name).live.get? key ∨
      pending.history.get? (revision, key) = some (pending.live.get? key) := by
  cases (move.continues coherent holds).2 with
  | kept held =>
      rw [held.seen]
      exact .inl rfl
  | entered _ _ outside opens number =>
      obtain ⟨_, opened⟩ := Entry.opening_ok opens
      rw [opened, outside.seen, ← number]
      refine (Database.recorded_or_unchanged _ _ key _).symm.imp ?_ id
      exact fun unchanged => unchanged.2
  | performed _ _ held =>
      rw [held.seen]
      refine (Database.recorded_or_unchanged _ _ key _).symm.imp ?_ id
      exact fun unchanged => unchanged.2

/-- Nothing that the holder of a closed store does changes the file, and the store stays
closed until it is lost. -/
theorem Move.closed {fleet later : Fleet Name} {name : Name} {event : Event}
    {result : Option (Except StoreError Outcome)} (move : fleet.Move name event result later)
    {location : Location} {readOnly : Bool}
    (named : fleet.handles name = some ⟨location, readOnly, .closed, none⟩) :
    later.file = fleet.file ∧ (event ≠ .drop → later.handles name = fleet.handles name) := by
  have outside : fleet.Outside name := .of_named named ⟨rfl, nofun⟩
  cases move with
  | unanswered | still => exact ⟨rfl, fun _ => rfl⟩
  | connected vacant connects =>
      rw [named] at vacant
      cases vacant
  | wrote free_named free writing | entered free_named free opens =>
      have idle := free.idle
      rw [named] at free_named
      cases free_named
      cases idle
  | inside holds opened stays => exact absurd ⟨_, _, holds⟩ outside.not_holds
  | committed _ holds | discarded _ holds => exact absurd holds outside.not_holds
  | released other _ ends =>
      refine ⟨rfl, fun kept => ?_⟩
      rw [handles_put_self, named]
      rw [named] at other
      cases other
      cases event with
      | connect => cases ends
      | drop => exact absurd rfl kept
      | perform operation =>
          cases operation with
          | ask request => cases request <;> rfl
          | enter | leave => rfl

theorem Coherent.stays_closed {fleet : Fleet Name} (coherent : fleet.Coherent) {name : Name}
    {location : Location} {readOnly : Bool}
    (named : fleet.handles name = some ⟨location, readOnly, .closed, none⟩)
    (events : List (Name × Event)) (kept : (name, Event.drop) ∉ events) :
    (fleet.run events).handles name = some ⟨location, readOnly, .closed, none⟩ := by
  induction events generalizing fleet with
  | nil => exact named
  | cons event later hypothesis =>
      obtain ⟨first, rest⟩ := not_or.1 (mt List.mem_cons.2 kept)
      have move := (step_move coherent event.1 event.2).1
      apply hypothesis (coherent.step event.1 event.2)
      · by_cases same : name = event.1
        · subst same
          have still := (move.closed named).2 fun dropped => first (Prod.ext rfl dropped.symm)
          rw [still, named]
        · rw [move.handles_of_ne same, named]
      · exact rest

theorem Move.ended {fleet later : Fleet Name} {name : Name} {operation : Operation}
    {result : Option (Except StoreError Outcome)}
    (move : fleet.Move name (.perform operation) result later) {handle : Handle}
    (named : fleet.handles name = some handle) (answered : result ≠ none)
    (ends : operation.kind.ends = true) :
    ∃ left, later.handles name = some left ∧ left.Outside := by
  have remains : ∀ other file, ∃ left,
      (fleet.put name (Event.remainder (.perform operation) other) file).handles name =
        some left ∧ left.Outside := by
    intro other file
    refine ⟨operation.remainder other, handles_put_self fleet name _ file, ?_⟩
    have performs : (Event.perform operation).kind.ends = true := ends
    exact Event.remainder_outside performs other rfl
  cases move with
  | unanswered => exact absurd rfl answered
  | still outside silent => exact ⟨handle, named, outside handle named⟩
  | wrote _ _ writing => simp [writing, Kind.ends] at ends
  | entered => simp [Operation.kind, Kind.ends] at ends
  | inside _ _ stays => simp [stays] at ends
  | committed | discarded | released => exact remains _ _

/-- How the scopes of a fleet hold together. -/
structure Tied (fleet : Fleet Name) : Prop where
  /-- A handle has a revision exactly as long as it has a transaction. -/
  together : ∀ name handle, fleet.handles name = some handle →
    ((∃ revision, handle.revision = some revision) ↔
      ∃ pending, handle.connection = .writing pending)
  /-- The revision has its hook in the transaction, and is greater than every other. -/
  latest : ∀ name handle revision pending, fleet.handles name = some handle →
    handle.revision = some revision → handle.connection = .writing pending →
      pending.hooks.contains revision = true ∧
        ∀ other, pending.hooks.contains other = true → other ≠ revision → other < revision
  /-- A closed handle has no revision, its holder cannot change the file, and whatever is
  done by anybody does not open it again, as long as it is there. -/
  closed : ∀ name handle, fleet.handles name = some handle → handle.connection = .closed →
    handle.revision = none ∧ (∀ event, (fleet.step name event).2.file = fleet.file) ∧
      ∀ events, (name, Event.drop) ∉ events → (fleet.run events).handles name = some handle
  /-- No transaction is begun inside another, and no history row is refused. -/
  errors : ∀ name event error, (fleet.step name event).1 = some (.error error) →
    error ≠ .engine .nestedTransaction ∧ error ≠ .engine .unknownRevision
  /-- A live text that an event changes under a revision has its history row afterwards,
  whether the event succeeds or not. -/
  recorded : ∀ name event revision pending key,
    (fleet.step name event).2.Holds name revision pending →
      pending.live.get? key ≠ (fleet.seen name).live.get? key →
        pending.history.get? (revision, key) = some (pending.live.get? key)
  /-- A guard that ends leaves its handle without a revision and without a transaction, and
  if the file is locked then, another handle holds the lock. -/
  ended : ∀ name handle ending, fleet.handles name = some handle → ending ≠ GuardEnd.detach →
    let later := (fleet.step name (.perform (.leave ending))).2
    (∃ left, later.handles name = some left ∧ left.revision = none ∧
      ∀ pending, left.connection ≠ .writing pending) ∧
        (later.file.locked = true →
          ∃ other revision pending, other ≠ name ∧ later.Holds other revision pending)

/-- The revision of a handle and its transaction never come apart. -/
theorem Reachable.tied {fleet : Fleet Name} (reachable : fleet.Reachable) : fleet.Tied where
  together name handle named := by
    cases reachable.coherent.handles named with
    | closed | idle => simp
    | writing => simp
  latest name handle revision pending named active writing := by
    have coherent := reachable.coherent.handles named
    cases coherent with
    | closed | idle => cases active
    | writing location readOnly opened =>
        cases active
        cases writing
        refine ⟨opened.known, fun other known different => ?_⟩
        have bound := opened.sound.bounded other known
        rw [opened.latest] at bound
        omega
  closed name handle named isClosed := by
    have coherent := reachable.coherent
    have shape := coherent.handles named
    cases shape with
    | idle | writing => cases isClosed
    | closed location readOnly =>
        refine ⟨rfl, fun event => ?_, fun events kept => coherent.stays_closed named events kept⟩
        exact ((step_move coherent name event).1.closed named).1
  errors name event error failure :=
    (step_move reachable.coherent name event).2 (.error error) failure error rfl
  recorded name event revision pending key holds changed := by
    have move := (step_move reachable.coherent name event).1
    exact (move.recorded reachable.coherent holds key).resolve_left changed
  ended name handle ending named attached := by
    have coherent := reachable.coherent
    have ends : (Operation.leave ending).kind.ends = true := by
      cases ending with
      | detach => exact absurd rfl attached
      | commit | rollback | drop => rfl
    have move := (step_move coherent name (.perform (.leave ending))).1
    have answered : (fleet.step name (.perform (.leave ending))).1 ≠ none := by
      simp only [Fleet.step, named]
      exact Option.some_ne_none _
    obtain ⟨left, leftNamed, outside⟩ := move.ended named answered ends
    refine ⟨⟨left, leftNamed, outside.revision, outside.idle⟩, fun locked => ?_⟩
    exact ((coherent.move move).locked_outside (.of_named leftNamed outside)).1 locked

def scopeOpened : Fleet Nat :=
  (ofFile .fresh).run
    [(0, .connect .memory false), (0, .perform (.enter (.scope ⟨"install", "today"⟩)))]

theorem scope_opened_tied :
    (∃ handle, scopeOpened.handles 0 = some handle ∧ handle.revision = some 1) ∧
      scopeOpened.Tied := by
  refine ⟨⟨_, rfl, rfl⟩, Reachable.tied ?_⟩
  exact (Reachable.fresh.step 0 (.connect .memory false)).step 0
    (.perform (.enter (.scope ⟨"install", "today"⟩)))

end UnitState.Fleet
