import UnitState.Proofs.DumpText
import UnitState.Proofs.ExactDiff
import UnitState.Proofs.StemSearch

/-!
# Isolated reads

What a store is told is told of the contents that it sees. Here that is said for each read on its
own: the text of a key, what its text is decoded to, the rows under a stem, the difference to them,
the history of a key and the dump. Whoever has no scope is told of the committed contents; whoever
has one, of what was committed when it was opened, and what was done in it since. With the serial
order of the transactions, this is what a run looks like to each holder of a store.
-/

set_option autoImplicit false

namespace UnitState

open Json

/-! ## What reads tell of contents -/

def Database.readThrough {Result : Type} (contents : Database)
    (read : String → Except Fault Result) (key : String) : Except StoreError (Option Result) :=
  match contents.live.get? key with
  | none => .ok none
  | some text =>
      match read text with
      | .ok result => .ok (some result)
      | .error fault => .error (.serialization fault)

def Database.fieldsOf (contents : Database) (key : String) (fields : List String) :
    Except StoreError Reply :=
  match contents.readThrough Value.parse key with
  | .error error => .error error
  | .ok none => .ok (.record none)
  | .ok (some value) =>
      match value.toObject? with
      | none => .error (.notARecord key)
      | some object =>
          .ok (.record (some (⟨object⟩, fields.map fun name =>
            match object.get? name with
            | some value => .ok value
            | none => .error ⟨name⟩)))

def shownKey (stem : String) (strip : Bool) (name : String) : String :=
  if strip then stem ++ name else name

/-- What a search by a stem tells of contents. -/
inductive Database.Shows (contents : Database) (stem : String) (strip : Bool) :
    Except StoreError (Option Object) → Prop
  | nothing (absent : ∀ key, Sought stem key → contents.live.get? key = none) :
      Shows contents stem strip (.ok none)
  | members {object : Object} (present : ∃ key, Sought stem key ∧ contents.live.get? key ≠ none)
      (decodes : ∀ key text, Sought stem key → contents.live.get? key = some text →
        ∃ value, Value.parse text = .ok value)
      (values : ∀ name value, object.get? name = some value ↔
        Sought stem (shownKey stem strip name) ∧
          ∃ text, contents.live.get? (shownKey stem strip name) = some text ∧
            Value.parse text = .ok value) :
      Shows contents stem strip (.ok (some object))
  /-- The first text that is no document, in the order of the keys, is told of. -/
  | refused {key text : String} {fault : Fault} (sought : Sought stem key)
      (found : contents.live.get? key = some text) (unread : Value.parse text = .error fault)
      (first : ∀ earlier other, Sought stem earlier → contents.live.get? earlier = some other →
        bytes earlier < bytes key → ∃ value, Value.parse other = .ok value) :
      Shows contents stem strip (.error (.serialization fault))

/-- The keys on whose values two objects disagree, each with both of its values. -/
structure DeltaSet.Differences (deltas : DeltaSet) (previous current : Object) : Prop where
  increasing : (deltas.keys.map bytes).Pairwise (· < ·)
  entries : ∀ key delta, (key, delta) ∈ deltas.entries ↔
    delta = ⟨previous.get? key, current.get? key⟩ ∧
      (previous.contains key ≠ current.contains key ∨
        ∃ before after, previous.get? key = some before ∧ current.get? key = some after ∧
          before.alike after = false)

inductive ToldDifferences (mapping : Object) :
    Except StoreError (Option Object) → Except StoreError (Option DeltaSet) → Prop
  | refused (error : StoreError) : ToldDifferences mapping (.error error) (.error error)
  | same {previous : Option Object} (alike : DeltaSet.Differences ∅ (previous.getD ∅) mapping) :
      ToldDifferences mapping (.ok previous) (.ok none)
  | changed {previous : Option Object} {deltas : DeltaSet} (nonempty : deltas.entries ≠ [])
      (differences : deltas.Differences (previous.getD ∅) mapping) :
      ToldDifferences mapping (.ok previous) (.ok (some deltas))

inductive Database.ShowsHistory (contents : Database) (key : String) :
    Except StoreError (List HistoryEntry) → Prop
  | decoded {entries decoded : List HistoryEntry}
      (rows : List.Forall₂ (HistoryEntry.TellsOf contents key)
        (contents.recordsOf key).entries entries)
      (texts : List.Forall₂ HistoryEntry.DecodedFrom entries decoded) :
      ShowsHistory contents key (.ok decoded)
  /-- The first revision whose text is no document is told of. -/
  | refused {revision : Int} {text : String} {fault : Fault}
      (recorded : contents.history.get? (revision, key) = some (some text))
      (unread : Value.parse text = .error fault)
      (first : ∀ earlier other, contents.history.get? (earlier, key) = some (some other) →
        earlier < revision → ∃ value, Value.parse other = .ok value) :
      ShowsHistory contents key (.error (.serialization fault))

/-- Whether an answer to a read is what these contents have to tell. Nothing else is a read. -/
def Database.Tells (contents : Database) (answer : Except StoreError Reply) : Request → Prop
  | .getRaw key => answer = .ok (.optionalText (contents.live.get? key))
  | .get key => answer = .optionalValue <$> contents.readThrough Value.parse key
  | .getOr key default =>
      answer = (fun found => .value (found.getD default)) <$>
        contents.readThrough Value.parse key
  | .getAs key shape => answer = .optionalValue <$> contents.readThrough shape.read key
  | .getRecord key fields => answer = contents.fieldsOf key fields
  | .getRange stem strip => ∃ shown, answer = .optionalObject <$> shown ∧
      contents.Shows stem strip shown
  | .delta mapping stem => ∃ shown told, answer = .deltas <$> told ∧
      contents.Shows stem true shown ∧ ToldDifferences mapping shown told
  | .getHistory key false => ∃ entries, answer = .ok (.history entries) ∧
      List.Forall₂ (HistoryEntry.TellsOf contents key) (contents.recordsOf key).entries entries
  | .getHistory key true => ∃ shown, answer = .history <$> shown ∧ contents.ShowsHistory key shown
  | .dump => ∃ dump, answer = .ok (.dump dump) ∧ dump.Lists contents
  | _ => False

theorem List.mem_of_not_after {Item : Type} {relation : Item → Item → Prop} {item other : Item}
    {before after : List Item} (ordered : (before ++ item :: after).Pairwise relation)
    (member : other ∈ before ++ item :: after) (different : other ≠ item)
    (notAfter : ¬relation item other) : other ∈ before := by
  rcases List.mem_append.1 member with early | late
  · exact early
  · rcases List.mem_cons.1 late with same | later
    · exact absurd same different
    · have rest := (List.pairwise_append.1 ordered).2.1
      exact absurd ((List.pairwise_cons.1 rest).1 other later) notAfter

namespace Store

variable {store : Store} {contents : Database}

theorem get_with_eq {Result : Type} (visible : store.view Schema.liveTable = .ok contents)
    (read : String → Except Fault Result) (key : String) :
    store.getWith read key = contents.readThrough read key := by
  unfold getWith Database.readThrough
  rw [get_raw_eq visible]
  cases contents.live.get? key with
  | none => rfl
  | some text =>
      simp only [Bind.bind, Except.bind, decode]
      cases read text <;> rfl

theorem told_fields (visible : store.view Schema.liveTable = .ok contents) (key : String)
    (fields : List String) :
    ((Request.getRecord key fields).answer store).1 = contents.fieldsOf key fields := by
  simp only [Request.answer, Attempt.inspect_bind, getRecord, get, get_with_eq visible]
  unfold Database.fieldsOf
  cases contents.readThrough Value.parse key with
  | error error => rfl
  | ok found =>
      cases found with
      | none => rfl
      | some value =>
          simp only [Bind.bind, Except.bind, Record.ofValue]
          cases value.toObject? <;> rfl

/-! ## Rows under a stem -/

theorem decode_rows_error {rows : List (String × String)} {error : StoreError}
    (failed : decodeRows rows = .error error) :
    ∃ before key text after fault, rows = before ++ (key, text) :: after ∧
      (∀ row ∈ before, ∃ value, Value.parse row.2 = .ok value) ∧
        Value.parse text = .error fault ∧ error = .serialization fault := by
  induction rows with
  | nil => cases failed
  | cons row later hypothesis =>
      obtain ⟨key, text⟩ := row
      cases read : Value.parse text with
      | error fault =>
          simp only [decodeRows, decode, read] at failed
          cases failed
          exact ⟨[], key, text, later, fault, rfl, List.forall_mem_nil _, read, rfl⟩
      | ok value =>
          cases rest : decodeRows later with
          | ok values =>
              simp only [decodeRows, decode, read, rest] at failed
              cases failed
          | error other =>
              simp only [decodeRows, decode, read, rest] at failed
              cases failed
              obtain ⟨before, found, unread, after, fault, rfl, decodes, refused, same⟩ :=
                hypothesis rest
              refine ⟨(key, text) :: before, found, unread, after, fault, rfl, ?_, refused, same⟩
              exact List.forall_mem_cons.2 ⟨⟨value, read⟩, decodes⟩

theorem get_range_error (visible : store.view Schema.liveTable = .ok contents) {stem : String}
    {strip : Bool} {error : StoreError} (refused : store.getRange stem strip = .error error) :
    decodeRows (contents.range stem) = .error error := by
  unfold getRange at refused
  simp only [visible, Bind.bind, Except.bind] at refused
  split at refused
  · cases refused
  · cases decoded : decodeRows (contents.range stem) with
    | error other =>
        rw [decoded] at refused
        cases refused
        rfl
    | ok values =>
        rw [decoded] at refused
        cases refused

theorem get_range_shown (visible : store.view Schema.liveTable = .ok contents) {stem : String}
    (decodes : ∀ key text, Database.Sought stem key → contents.live.get? key = some text →
      ∃ value, Value.parse text = .ok value) (strip : Bool) :
    ∃ found, store.getRange stem strip = .ok found ∧
      (found = none ↔ ∀ key, Database.Sought stem key → contents.live.get? key = none) ∧
      ∀ name value, (found.getD ∅).get? name = some value ↔
        Database.Sought stem (shownKey stem strip name) ∧
          ∃ text, contents.live.get? (shownKey stem strip name) = some text ∧
            Value.parse text = .ok value := by
  cases strip with
  | false => exact found_whole visible decodes
  | true => exact found_stripped visible decodes

theorem get_range_shows (visible : store.view Schema.liveTable = .ok contents) (stem : String)
    (strip : Bool) : contents.Shows stem strip (store.getRange stem strip) := by
  cases ranged : store.getRange stem strip with
  | ok range =>
      obtain ⟨readable, _⟩ := of_get_range_ok visible ranged
      have decodes : ∀ key text, Database.Sought stem key → contents.live.get? key = some text →
          ∃ value, Value.parse text = .ok value := fun key text sought found =>
        readable (key, text) (Database.mem_range_iff.2 ⟨found, sought⟩)
      obtain ⟨_, same, nothing, values⟩ := get_range_shown visible decodes strip
      cases ranged.symm.trans same
      cases range with
      | none => exact .nothing (nothing.1 rfl)
      | some object =>
          refine .members ?_ decodes values
          by_contra absent
          have none := nothing.2 fun key sought => by
            by_contra found
            exact absent ⟨key, sought, found⟩
          cases none
  | error error =>
      obtain ⟨before, key, text, after, fault, rows, decodes, unread, rfl⟩ :=
        decode_rows_error (get_range_error visible ranged)
      have ordered : (contents.range stem).Pairwise fun left right =>
          KeyOrder.before left.1 right.1 = true := contents.live.increasing.filter _
      have listed : (key, text) ∈ contents.range stem := by
        rw [rows]
        exact List.mem_append_right before List.mem_cons_self
      obtain ⟨found, sought⟩ := Database.mem_range_iff.1 listed
      refine .refused sought found unread fun earlier other soughtOther foundOther less => ?_
      have member := Database.mem_range_iff.2 ⟨foundOther, soughtOther⟩
      rw [rows] at ordered member
      have order := before_iff_bytes_lt.2 less
      refine decodes (earlier, other) (List.mem_of_not_after ordered member ?_ ?_)
      · rintro ⟨⟩
        rw [KeyOrder.irreflexive] at order
        cases order
      · rw [KeyOrder.asymmetric order]
        exact Bool.false_ne_true

end Store

theorem compute_delta_differences (previous current : Object) :
    (computeDelta previous current).Differences previous current where
  increasing := keys_increasing previous current
  entries key delta := by
    rw [mem_compute_delta_iff]
    constructor
    · intro change
      refine ⟨sides_of_change_of change, ?_⟩
      unfold changeOf at change
      unfold Table.contains
      cases before : previous.get? key <;> cases after : current.get? key <;>
        simp_all
    · rintro ⟨rfl, differ⟩
      unfold changeOf
      unfold Table.contains at differ
      cases before : previous.get? key <;> cases after : current.get? key <;>
        simp_all

theorem Store.delta_told (store : Store) (mapping : Object) (stem : String) :
    ToldDifferences mapping (store.getRange stem true) (store.delta mapping stem) := by
  unfold Store.delta
  cases store.getRange stem true with
  | error error => exact .refused error
  | ok previous =>
      have differences := compute_delta_differences (previous.getD ∅) mapping
      simp only [Bind.bind, Except.bind, Pure.pure, Except.pure]
      split
      · rename_i none
        rw [DeltaSet.eq_empty none] at differences
        exact .same differences
      · rename_i some
        refine .changed ?_ differences
        intro nothing
        exact some (List.isEmpty_iff.2 nothing)

/-! ## The history of a key -/

theorem Database.Sound.history_of_increasing {database : Database} (sound : database.Sound)
    (key : String) :
    (database.historyOf key).Pairwise fun earlier later => earlier.1 < later.1 := by
  have revisions : (database.recordsOf key).entries.map Prod.fst =
      (database.historyOf key).map Prod.fst := by
    apply List.map_eq_of_forall₂ (sound.joined key)
    rintro row joined ⟨hook, _, rfl⟩
    rfl
  apply List.pairwise_map.1
  rw [← revisions]
  apply List.pairwise_map.2
  exact (database.recordsOf key).increasing.imp fun order => of_decide_eq_true order

namespace Store

variable {store : Store} {contents : Database}

theorem history_entries_error {key : String} {rows : List (Int × Option String × HookRow)}
    {error : StoreError} (failed : historyEntries key true rows = .error error) :
    ∃ before revision text hook after fault,
      rows = before ++ (revision, some text, hook) :: after ∧
        (∀ row ∈ before, ∃ data, historyData true row.2.1 = .ok data) ∧
          Value.parse text = .error fault ∧ error = .serialization fault := by
  induction rows with
  | nil => cases failed
  | cons row later hypothesis =>
      obtain ⟨revision, data, hook⟩ := row
      simp only [historyEntries] at failed
      cases content : historyData true data with
      | error other =>
          rw [content] at failed
          cases failed
          cases data with
          | none => cases content
          | some text =>
              cases read : Value.parse text with
              | ok value => simp [historyData, decode, read, Except.mapError] at content
              | error fault =>
                  simp only [historyData, decode, read, Except.mapError] at content
                  cases content
                  exact ⟨[], revision, text, hook, later, fault, rfl, List.forall_mem_nil _, read,
                    rfl⟩
      | ok told =>
          cases rest : historyEntries key true later with
          | ok entries =>
              rw [content, rest] at failed
              cases failed
          | error other =>
              rw [content, rest] at failed
              cases failed
              obtain ⟨before, found, text, itsHook, after, fault, rfl, decodes, refused, same⟩ :=
                hypothesis rest
              refine ⟨(revision, data, hook) :: before, found, text, itsHook, after, fault, rfl,
                ?_, refused, same⟩
              exact List.forall_mem_cons.2 ⟨⟨told, content⟩, decodes⟩

theorem get_history_shows (sound : contents.Sound)
    (visible : ∀ table, store.view table = .ok contents) (key : String) :
    contents.ShowsHistory key (store.getHistory key true) := by
  have tells := tells_history sound visible key
  cases told : store.getHistory key true with
  | ok decoded =>
      obtain ⟨entries, undecoded, rows, _⟩ := tells.raw
      exact .decoded rows (tells.decoded entries decoded undecoded told)
  | error error =>
      rw [get_history_eq visible] at told
      obtain ⟨before, revision, text, hook, after, fault, rows, decodes, unread, rfl⟩ :=
        history_entries_error told
      have ordered := sound.history_of_increasing key
      have listed : (revision, some text, hook) ∈ contents.historyOf key := by
        rw [rows]
        exact List.mem_append_right before List.mem_cons_self
      refine .refused (sound.mem_history_of.1 ⟨hook, listed⟩) unread ?_
      intro earlier other recorded less
      obtain ⟨itsHook, member⟩ := sound.mem_history_of.2 recorded
      rw [rows] at ordered member
      have early := List.mem_of_not_after ordered member (by
        rintro ⟨⟩
        exact lt_irrefl _ less) (lt_asymm less)
      exact (history_data_ok_iff (some other)).1 (decodes _ early) other rfl

end Store

/-! ## Every read -/

/-- A store that sees contents tells what they have to tell. -/
theorem Request.tells {request : Request} (reading : request.reads = true) {store : Store}
    {contents : Database} (sound : contents.Sound)
    (visible : ∀ table, store.view table = .ok contents) :
    contents.Tells (request.answer store).1 request := by
  have seen := visible Schema.liveTable
  cases request with
  | getRaw key =>
      simp only [Database.Tells, answer, Attempt.map_run, Attempt.inspect, Store.get_raw_eq seen]
      rfl
  | get key =>
      simp only [Database.Tells, answer, Attempt.map_run, Attempt.inspect, Store.get,
        Store.get_with_eq seen]
  | getOr key default =>
      simp only [Database.Tells, answer, Attempt.map_run, Attempt.inspect, Store.getOr, Store.get,
        Store.get_with_eq seen]
      cases contents.readThrough Value.parse key <;> rfl
  | getAs key shape =>
      simp only [Database.Tells, answer, Attempt.map_run, Attempt.inspect, Store.getAs,
        Store.get_with_eq seen]
  | getRecord key fields => exact Store.told_fields seen key fields
  | getRange stem strip =>
      exact ⟨_, by rw [answer, Attempt.map_run]; rfl, Store.get_range_shows seen stem strip⟩
  | delta mapping stem =>
      exact ⟨_, _, by rw [answer, Attempt.map_run]; rfl, Store.get_range_shows seen stem true,
        store.delta_told mapping stem⟩
  | getHistory key deserialize =>
      cases deserialize with
      | false =>
          obtain ⟨entries, told, rows, _⟩ := (Store.tells_history sound visible key).raw
          refine ⟨entries, ?_, rows⟩
          simp only [answer, Attempt.map_run, Attempt.inspect, told]
          rfl
      | true =>
          exact ⟨_, by rw [answer, Attempt.map_run]; rfl, Store.get_history_shows sound visible key⟩
  | dump =>
      refine ⟨contents.dumped, ?_, contents.dumped_lists⟩
      simp only [answer, Attempt.map_run, Attempt.inspect, Store.dump_eq seen]
      rfl
  | flush save => cases save <;> cases reading
  | set | setDatum | update | unset | unsetRange | close | describe => cases reading

namespace Fleet

variable {Name : Type} [DecidableEq Name]

/-- Whether the store of a name answers a request so, and nothing is changed by it. -/
def Answers (fleet : Fleet Name) (name : Name) (request : Request)
    (answer : Except StoreError Reply) : Prop :=
  fleet.step name (.perform (.ask request)) = (some (.reply <$> answer), fleet)

theorem answers_read (fleet : Fleet Name) {name : Name} {handle : Handle} {request : Request}
    (named : fleet.handles name = some handle) (reading : request.reads = true) :
    fleet.Answers name request (request.answer ⟨handle, fleet.file⟩).1 := by
  have kept := Request.look_keeps (Request.kind_of_reads reading) ⟨handle, fleet.file⟩
  simp only [Answers, step, named, Operation.action, Attempt.map_run, kept,
    put_eq_of_named named]

/-- What the ledger of a run says about the fleet that the run has left. -/
structure Accounted (start : Database) (fleet : Fleet Name) (ledger : Ledger Name) : Prop where
  /-- The committed contents are those that the transactions leave one after the other. -/
  committed : fleet.file.contents = Transaction.replay start ledger.committed
  /-- At most one store has a transaction open. -/
  alone : ∀ name handle pending other otherHandle otherPending,
    fleet.handles name = some handle → handle.connection = .writing pending →
      fleet.handles other = some otherHandle → otherHandle.connection = .writing otherPending →
        name = other
  /-- It is the one of whose scope the ledger tells. -/
  holder : ∀ name, (∃ scope, ledger.scope = some scope ∧ scope.holder = name) ↔
    ∃ handle pending, fleet.handles name = some handle ∧ handle.connection = .writing pending
  /-- Without a transaction the committed contents are read. -/
  outside : ∀ name handle request, fleet.handles name = some handle →
    handle.connection = .idle → request.reads = true →
      ∃ answer, fleet.Answers name request answer ∧ fleet.file.contents.Tells answer request
  /-- With one, it is what was committed when it was opened, and is still, and what the
  holder has done in it. -/
  inside : ∀ name handle pending request, fleet.handles name = some handle →
    handle.connection = .writing pending → request.reads = true →
      ∃ scope answer, ledger.scope = some scope ∧ scope.holder = name ∧
        scope.base = fleet.file.contents ∧
          (Transaction.inside scope.entry scope.operations scope.base).handle.connection =
            .writing pending ∧
              fleet.Answers name request answer ∧ pending.Tells answer request

theorem Serial.accounted {start : Database} {fleet : Fleet Name} {ledger : Ledger Name}
    (serial : Serial start fleet ledger) (ready : fleet.Ready) :
    Accounted start fleet ledger where
  committed := serial.replayed.symm
  alone name handle pending other otherHandle otherPending named writing otherNamed
      otherWriting := by
    obtain ⟨_, holds⟩ := serial.coherent.holds_of_writing named writing
    obtain ⟨_, others⟩ := serial.coherent.holds_of_writing otherNamed otherWriting
    exact serial.coherent.alone holds others
  holder name := by
    constructor
    · intro told
      obtain ⟨scope, found, rfl⟩ := told
      obtain ⟨revision, pending, location, readOnly, named⟩ := serial.opened found
      exact ⟨_, pending, named, rfl⟩
    · intro held
      obtain ⟨handle, pending, named, writing⟩ := held
      obtain ⟨_, holds⟩ := serial.coherent.holds_of_writing named writing
      obtain ⟨scope, found, holder, _⟩ := serial.holder holds
      exact ⟨scope, found, holder⟩
  outside name handle request named idle reading :=
    ⟨_, fleet.answers_read named reading,
      Request.tells reading serial.coherent.sound (ready.view_idle named idle)⟩
  inside name handle pending request named writing reading := by
    obtain ⟨revision, holds⟩ := serial.coherent.holds_of_writing named writing
    obtain ⟨scope, found, holder, base, reaches⟩ := serial.holder holds
    have reached : Transaction.inside scope.entry scope.operations scope.base =
        (Store.alone scope.base).locked.inScope revision pending := reaches
    have visible : ∀ table, Store.view ⟨handle, fleet.file⟩ table = .ok pending := by
      intro table
      simp only [Store.view, writing]
    refine ⟨scope, _, found, holder, base, ?_, fleet.answers_read named reading,
      Request.tells reading (serial.coherent.opened holds).sound visible⟩
    rw [reached]
    rfl

/-- Every run is as good as one in which the transactions are executed one by one. -/
theorem serial_replay {file : DatabaseFile} (settled : file.Settled)
    (events : List (Name × Event)) :
    Accounted file.contents ((ofFile file).run events) ((ofFile file).ledger events .empty) := by
  have coherent : (ofFile file : Fleet Name).Coherent :=
    of_file_coherent settled.sound settled.unlocked
  have start : Serial file.contents (ofFile file : Fleet Name) .empty :=
    .of_unlocked coherent settled.unlocked rfl
  have ready : (ofFile file : Fleet Name).Ready :=
    ⟨settled.tables, fun name handle named => nomatch named⟩
  obtain ⟨serial, stillReady⟩ := start.run ready events
  exact serial.accounted stillReady

/-- Two stores on one file. The first commits a mode, while the second is refused; the second takes
it back in a scope that it rolls back, and stores a state outside of one; the first removes the
mode in a scope that it leaves open. -/
def twoStores : List (Nat × Event) :=
  [(0, .connect .memory false), (1, .connect .memory false),
    (0, .perform (.enter (.scope ⟨"install", "today"⟩))),
    (0, .perform (.ask (.set "mode" (.bool true)))), (1, .perform (.ask (.unset "mode"))),
    (0, .perform (.leave .commit)),
    (1, .perform (.enter (.scope ⟨"start", "today"⟩))), (1, .perform (.ask (.unset "mode"))),
    (1, .perform (.leave .rollback)), (1, .perform (.ask (.set "state" .null))),
    (0, .perform (.enter (.scope ⟨"stop", "today"⟩))), (0, .perform (.ask (.unset "mode")))]

/-- The first store reads that the mode is gone, the second one that it is there; what was rolled
back is no transaction. -/
theorem two_stores_accounted :
    let fleet : Fleet Nat := (ofFile .fresh).run twoStores
    let ledger := (ofFile .fresh).ledger twoStores .empty
    DatabaseFile.fresh.Settled ∧ Accounted Database.empty fleet ledger ∧
      ledger.committed.length = 2 ∧
      fleet.file.contents.live = .ofList [("mode", "true"), ("state", "null")] ∧
      fleet.Answers 0 (.getRaw "mode") (.ok (.optionalText none)) ∧
      fleet.Answers 0 (.getRaw "state") (.ok (.optionalText (some "null"))) ∧
      fleet.Answers 1 (.get "mode") (.ok (.optionalValue (some (.bool true)))) := by
  intro fleet ledger
  have accounted : Accounted Database.empty fleet ledger :=
    serial_replay DatabaseFile.fresh_settled twoStores
  obtain ⟨handle, named, writing⟩ : ∃ handle, fleet.handles 0 = some handle ∧
      handle.connection = .writing (fleet.seen 0) := ⟨_, rfl, rfl⟩
  obtain ⟨_, answer, _, _, _, _, answers, told⟩ :=
    accounted.inside 0 handle _ (.getRaw "mode") named writing rfl
  obtain ⟨_, other, _, _, _, _, otherAnswers, otherTold⟩ :=
    accounted.inside 0 handle _ (.getRaw "state") named writing rfl
  obtain ⟨outer, outerAnswers, outerTold⟩ :=
    accounted.outside 1 (.ofLocation .memory false) (.get "mode") rfl rfl rfl
  cases told
  cases otherTold
  cases outerTold
  exact ⟨DatabaseFile.fresh_settled, accounted, by decide +kernel, by decide +kernel, answers,
    otherAnswers, outerAnswers⟩

end Fleet

end UnitState
