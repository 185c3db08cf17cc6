import UnitState.Proofs.Plan

/-!
# Plans of writes

The plans of the operations that write. Storing a text and removing a key are one write
each, and the operations on several keys carry their writes out in order. No write fails in
an open scope: only a value that denotes nothing is refused, before anything is written.
-/

set_option autoImplicit false

namespace UnitState.Store

open Json

theorem record_in_scope (key : String) (data : Option String) (store : Store) (revision : Int)
    {pending : Database} (known : pending.hooks.contains revision = true) :
    record key data (store.inScope revision pending) =
      (.ok (),
        store.inScope revision
          { pending with history := pending.history.insert (revision, key) data }) := by
  simp only [record, inScope, statement, Database.record, known, if_true]

theorem record_outside (key : String) (data : Option String) {store : Store}
    (outside : store.handle.revision = none) : record key data store = (.ok (), store) := by
  simp only [record, outside]

def bar? (store : Store) : Option EngineFault :=
  if store.handle.readOnly then some .readOnly
  else if store.file.locked then some .locked
  else none

theorem bar_writable {store : Store} (writable : store.handle.readOnly = false) :
    store.bar? = if store.file.locked then some .locked else none := by
  simp only [bar?, writable, Bool.false_eq_true, if_false]

theorem statement_outside {store : Store} (outside : store.handle.Outside) {table : String}
    {contents : Database} (visible : store.view table = .ok contents)
    (edit : Database → Except EngineFault Database) :
    statement edit store =
      match store.bar? with
      | some fault => (.error (.engine fault), store)
      | none =>
          match edit contents with
          | .error fault => (.error (.engine fault), store)
          | .ok edited => (.ok (), store.withContents edited) := by
  obtain ⟨idle, same⟩ := view_outside outside visible
  subst same
  unfold statement bar?
  simp only [idle]
  split
  · rfl
  · split
    · rfl
    · cases edit store.file.contents <;> rfl

theorem Free.bar {store : Store} (free : store.Free) : store.bar? = none := by
  simp only [bar_writable free.writable, free.unlocked, Bool.false_eq_true, if_false]

theorem Barred.bar_some {store : Store} (barred : store.Barred) {table : String}
    {contents : Database} (visible : store.view table = .ok contents) :
    ∃ fault, store.bar? = some fault ∧ (StoreError.engine fault).Ordinary := by
  unfold bar?
  split
  · exact ⟨.readOnly, rfl, by simp, by simp⟩
  · split
    · exact ⟨.locked, rfl, by simp, by simp⟩
    · rename_i writable unlocked
      unfold Store.view at visible
      rcases barred.bar with closed | ⟨idle, tables | readOnly | locked⟩
      · simp [closed] at visible
      · simp [idle, tables] at visible
      · exact absurd readOnly writable
      · exact absurd locked unlocked

theorem get_raw_looks_at_live (key : String) : LooksAtLive fun store => store.getRaw key where
  through store := by
    unfold getRaw
    cases store.view Schema.liveTable <;> rfl
  ordinary _ := Ordinarily.of_ok _

theorem get_raw_eq {store : Store} {contents : Database}
    (visible : store.view Schema.liveTable = .ok contents) (key : String) :
    store.getRaw key = .ok (contents.live.get? key) := by
  unfold getRaw
  rw [visible]
  rfl

theorem get_raw_error {store : Store} {error : StoreError}
    (hidden : store.view Schema.liveTable = .error error) (key : String) :
    store.getRaw key = .error error := by
  unfold getRaw
  rw [hidden]
  rfl

/-- Storing a text looks first, and writes only if another text, or none, is there. -/
theorem set_text_run (key text : String) (store : Store) :
    setText key text store =
      match store.getRaw key with
      | .error error => (.error error, store)
      | .ok found =>
          if found = some text then (.ok (), store)
          else (do
            statement fun database => .ok (database.setLive key text)
            record key (some text) : Action Unit) store := by
  rw [setText, Attempt.inspect_bind]
  cases store.getRaw key with
  | error error => rfl
  | ok found =>
      simp only
      split <;> rfl

theorem set_text_outside {store : Store} (outside : store.handle.Outside) (key text : String) :
    setText key text store =
      match store.view Schema.liveTable with
      | .error error => (.error error, store)
      | .ok contents =>
          if contents.live.get? key = some text then (.ok (), store)
          else
            match store.bar? with
            | some fault => (.error (.engine fault), store)
            | none => (.ok (), store.withContents (contents.setLive key text)) := by
  rw [set_text_run]
  cases visible : store.view Schema.liveTable with
  | error error => rw [get_raw_error visible]
  | ok contents =>
      rw [get_raw_eq visible]
      have written := statement_outside outside visible fun database => .ok (database.setLive key text)
      dsimp only
      split
      · rfl
      · cases bar : store.bar? with
        | some fault =>
            rw [bar] at written
            exact Attempt.bind_error written
        | none =>
            rw [bar] at written
            rw [Attempt.bind_ok written]
            exact record_outside key _ outside.revision

theorem set_text_follows (key text : String) :
    Follows (setText key text) (Plan.carryOut [⟨key, some text⟩]) where
  inScope store revision pending known := by
    rw [set_text_run, get_raw_eq (view_in_scope store revision pending _)]
    simp only [Plan.carryOut, Database.assign_all_cons, Database.assign_all_nil]
    by_cases present : pending.live.get? key = some text
    · rw [if_pos present, Database.assign_present pending (some revision) present]
    · have written : statement (fun database => .ok (database.setLive key text))
          (store.inScope revision pending) =
            (.ok (), store.inScope revision (pending.setLive key text)) := rfl
      have stillKnown : (pending.setLive key text).hooks.contains revision = true := known
      rw [if_neg present, Attempt.bind_ok written,
        record_in_scope key (some text) store revision stillKnown]
      simp only [Database.assign, present, if_false]
      rfl
  free store free := by
    rw [set_text_outside free.handle_outside, free.view, free.bar]
    simp only [Plan.carryOut, Database.assign_all_cons, Database.assign_all_nil]
    by_cases present : store.file.contents.live.get? key = some text
    · rw [if_pos present, Database.assign_present store.file.contents none present]
      rfl
    · simp only [Database.assign, present, if_false]
      rfl
  barred store barred := by
    have ran := set_text_outside barred.handle_outside key text
    cases visible : store.view Schema.liveTable with
    | error error =>
        rw [visible] at ran
        exact refused (view_ordinarily store Schema.liveTable error visible) ran _
    | ok contents =>
        have same := barred.view_ok visible
        subst same
        obtain ⟨fault, bar, ordinary⟩ := barred.bar_some visible
        rw [visible, bar] at ran
        simp only at ran
        by_cases present : store.file.contents.live.get? key = some text
        · rw [ran, if_pos present]
          refine ⟨rfl, Ordinarily.of_ok (), fun _ _ => ⟨rfl, fun write member => ?_⟩⟩
          rw [List.mem_singleton.1 member]
          exact present
        · rw [if_neg present] at ran
          exact refused ordinary ran _
  ordinary _ := Ordinarily.of_ok ()

theorem erase_live_absent {database : Database} {key : String}
    (absent : database.live.get? key = none) : database.eraseLive key = database := by
  have same : database.live.erase key = database.live := Table.change_present absent
  unfold Database.eraseLive
  rw [same]

/-- Removing a key writes whether it is there or not, but records only that it is gone. -/
theorem unset_run (key : String) (store : Store) :
    unset key store =
      match store.getRaw key with
      | .error error => (.error error, store)
      | .ok found => (do
          statement fun database => .ok (database.eraseLive key)
          if found.isSome then record key none
          return found.isSome : Action Bool) store := by
  rw [unset, Attempt.inspect_bind]
  cases store.getRaw key <;> rfl

theorem unset_outside {store : Store} (outside : store.handle.Outside) (key : String) :
    unset key store =
      match store.view Schema.liveTable with
      | .error error => (.error error, store)
      | .ok contents =>
          match store.bar? with
          | some fault => (.error (.engine fault), store)
          | none =>
              (.ok (contents.live.get? key).isSome, store.withContents (contents.eraseLive key)) := by
  rw [unset_run]
  cases visible : store.view Schema.liveTable with
  | error error => rw [get_raw_error visible]
  | ok contents =>
      rw [get_raw_eq visible]
      have written := statement_outside outside visible fun database => .ok (database.eraseLive key)
      dsimp only
      cases bar : store.bar? with
      | some fault =>
          rw [bar] at written
          exact Attempt.bind_error written
      | none =>
          rw [bar] at written
          rw [Attempt.bind_ok written]
          cases contents.live.get? key with
          | none => rfl
          | some text => exact Attempt.bind_ok (record_outside key none outside.revision)

theorem unset_follows (key : String) :
    Follows (unset key) fun live => (.ok (live.contains key), [⟨key, none⟩]) where
  inScope store revision pending known := by
    have written : statement (fun database => .ok (database.eraseLive key))
        (store.inScope revision pending) =
          (.ok (), store.inScope revision (pending.eraseLive key)) := rfl
    rw [unset_run, get_raw_eq (view_in_scope store revision pending _)]
    simp only [Table.contains, Database.assign_all_cons, Database.assign_all_nil]
    rw [Attempt.bind_ok written]
    cases found : pending.live.get? key with
    | none =>
        rw [Database.assign_present pending (some revision) found, erase_live_absent found]
        rfl
    | some text =>
        have stillKnown : (pending.eraseLive key).hooks.contains revision = true := known
        have changed : pending.live.get? key ≠ none := by
          rw [found]
          exact Option.some_ne_none text
        simp only [Option.isSome_some, if_true]
        rw [Attempt.bind_ok (record_in_scope key none store revision stillKnown)]
        simp only [Database.assign, changed, if_false]
        rfl
  free store free := by
    rw [unset_outside free.handle_outside, free.view, free.bar]
    simp only [Table.contains, Database.assign_all_cons, Database.assign_all_nil]
    by_cases absent : store.file.contents.live.get? key = none
    · rw [Database.assign_present store.file.contents none absent, erase_live_absent absent]
    · simp only [Database.assign, absent, if_false]
      rfl
  barred store barred := by
    have ran := unset_outside barred.handle_outside key
    cases visible : store.view Schema.liveTable with
    | error error =>
        rw [visible] at ran
        exact refused (view_ordinarily store Schema.liveTable error visible) ran _
    | ok contents =>
        obtain ⟨fault, bar, ordinary⟩ := barred.bar_some visible
        rw [visible, bar] at ran
        exact refused ordinary ran _
  ordinary _ := Ordinarily.of_ok _

theorem for_each_follows {Item : Type} {attempt : Item → Action Unit} {write : Item → Write}
    (each : ∀ item, Follows (attempt item) (Plan.carryOut [write item])) (items : List Item) :
    Follows (Attempt.forEach attempt items) (Plan.carryOut (items.map write)) := by
  induction items with
  | nil => exact Follows.pure ()
  | cons item later hypothesis => exact (each item).bind fun _ => hypothesis

theorem set_follows (key : String) (value : Value) :
    Follows (set key value) (Plan.carryOut [⟨key, some value.storedText⟩]) :=
  set_text_follows key value.storedText

def updateWrites (mapping : Object) (stem : String) : List Write :=
  mapping.entries.map fun binding => ⟨stem ++ binding.1, some binding.2.storedText⟩

theorem update_follows (mapping : Object) (stem : String) :
    Follows (update mapping stem) (Plan.carryOut (updateWrites mapping stem)) := by
  unfold update updateWrites
  apply for_each_follows
  intro binding
  exact set_follows (stem ++ binding.1) binding.2

/-- A datum that denotes no value is refused before anything is written. -/
def datumPlan (key : String) (datum : Datum) : Plan Unit :=
  match datum.toValue with
  | .ok value => Plan.carryOut [⟨key, some value.compact⟩]
  | .error cause => Plan.ofExcept (.error (.serialization (.unplaced cause)))

theorem set_datum_follows (key : String) (datum : Datum) :
    Follows (setDatum key datum) (datumPlan key datum) := by
  unfold setDatum datumPlan
  cases datum.toValue with
  | ok value => exact set_text_follows key value.compact
  | error cause => exact Follows.of_except (Ordinarily.of_error ⟨nofun, nofun⟩)

/-- How many of the keys are there when they are removed one by one. -/
def removals : List String → Table String String → Nat
  | [], _ => 0
  | key :: later, live =>
      if live.contains key then removals later (live.erase key) + 1
      else removals later (live.erase key)

def removalWrites (keys : List String) : List Write := keys.map fun key => ⟨key, none⟩

theorem unset_all_follows (keys : List String) :
    Follows (unsetAll keys) fun live => (.ok (removals keys live), removalWrites keys) := by
  induction keys with
  | nil => exact Follows.pure 0
  | cons key later hypothesis =>
      have whole := (unset_follows key).bind fun present =>
        hypothesis.bind fun count =>
          Follows.pure (if present then count + 1 else count)
      refine whole.congr fun live => ?_
      simp only [Bind.bind, Plan.bind, Pure.pure, Plan.pure, removals, removalWrites,
        List.append_nil]
      split <;> rfl

def removalKeys (names : Option (List String)) (stem : String) (live : Table String String) :
    List String :=
  match names with
  | some names => names.map (stem ++ ·)
  | none => (live.entries.filter fun binding => Database.startsWith stem binding.1).map (·.1)

theorem range_keys_look_at_live (stem : String) :
    LooksAtLive fun store =>
      (fun contents => (contents.range stem).map (·.1)) <$> store.view Schema.liveTable where
  through store := by
    cases store.view Schema.liveTable <;> rfl
  ordinary _ := Ordinarily.of_ok _

def removalPlan (names : Option (List String)) (stem : String) : Plan Nat := fun live =>
  (.ok (removals (removalKeys names stem live) live),
    removalWrites (removalKeys names stem live))

theorem unset_range_none (stem : String) :
    unsetRange none stem =
      Attempt.inspect (fun store =>
        (fun contents => (contents.range stem).map (·.1)) <$> store.view Schema.liveTable) >>=
          unsetAll := by
  funext store
  rw [unsetRange, Attempt.inspect_bind, Attempt.inspect_bind]
  cases store.view Schema.liveTable <;> rfl

theorem unset_range_follows (names : Option (List String)) (stem : String) :
    Follows (unsetRange names stem) (removalPlan names stem) := by
  cases names with
  | some names => exact unset_all_follows (names.map (stem ++ ·))
  | none =>
      rw [unset_range_none]
      exact (Follows.inspect (range_keys_look_at_live stem)).bind unset_all_follows

end UnitState.Store
