import UnitState.Proofs.KeptSchema
import UnitState.Proofs.KeyHistory
import UnitState.Proofs.RevisionNumbers
import UnitState.Proofs.SerialReplay

/-!
# The history that a store tells

The history of a key lists its rows by increasing revision, each with the hook of its revision.
No row is lost, since every row has a hook, also a row that was recorded from outside. Decoding
the history needs every recorded text to be a document, and changes nothing but the texts.
-/

set_option autoImplicit false

namespace UnitState

open Json

/-- An entry that tells of a row of a key, under the hook of its revision. -/
structure HistoryEntry.TellsOf (contents : Database) (key : String) (row : Int × Option String)
    (entry : HistoryEntry) : Prop where
  revision : entry.revision = row.1
  key : entry.key = key
  data : entry.data = row.2.elim .deleted .raw
  hook : contents.hooks.get? row.1 = some ⟨entry.hook, entry.timestamp⟩

def HistoryData.decoded : HistoryData → Except Fault HistoryData
  | raw text => .value <$> Value.parse text
  | value content => .ok (.value content)
  | deleted => .ok .deleted

structure HistoryEntry.DecodedFrom (entry decoded : HistoryEntry) : Prop where
  rest : decoded = { entry with data := decoded.data }
  data : entry.data.decoded = .ok decoded.data

/-- What is told of the history of a key by a store that sees these contents. -/
structure Store.TellsHistory (store : Store) (contents : Database) (key : String) : Prop where
  /-- There is one entry for each row, by strictly increasing revision. -/
  raw : ∃ entries, store.getHistory key false = .ok entries ∧
    List.Forall₂ (HistoryEntry.TellsOf contents key) (contents.recordsOf key).entries entries ∧
      entries.Pairwise fun earlier later => earlier.revision < later.revision
  /-- The history can be decoded exactly if every recorded text is a document. -/
  decodable : (∃ decoded, store.getHistory key true = .ok decoded) ↔
    ∀ revision text, contents.history.get? (revision, key) = some (some text) →
      ∃ value, Value.parse text = .ok value
  /-- It is then the same list with the texts decoded. -/
  decoded : ∀ entries decoded, store.getHistory key false = .ok entries →
    store.getHistory key true = .ok decoded →
      List.Forall₂ HistoryEntry.DecodedFrom entries decoded

theorem List.forall₂_filterMap {Item Other : Type} {change : Item → Option Other}
    {items : List Item} (kept : ∀ item ∈ items, ∃ other, change item = some other) :
    List.Forall₂ (fun item other => change item = some other) items (items.filterMap change) := by
  induction items with
  | nil => exact .nil
  | cons head tail hypothesis =>
      obtain ⟨other, changed⟩ := kept head List.mem_cons_self
      rw [List.filterMap_cons_some changed]
      refine .cons changed (hypothesis ?_)
      exact fun item member => kept item (List.mem_cons_of_mem head member)

theorem List.map_eq_of_forall₂ {Item Other Result : Type} {relation : Item → Other → Prop}
    {left : Item → Result} {right : Other → Result} {items : List Item} {others : List Other}
    (related : List.Forall₂ relation items others)
    (same : ∀ item other, relation item other → left item = right other) :
    items.map left = others.map right := by
  induction related with
  | nil => rfl
  | cons head _ hypothesis => rw [List.map_cons, List.map_cons, same _ _ head, hypothesis]

namespace Database

theorem history_of_eq (database : Database) (key : String) :
    database.historyOf key = (database.recordsOf key).entries.filterMap fun row =>
      (database.hooks.get? row.1).map fun hook => (row.1, row.2, hook) := by
  unfold historyOf recordsOf
  rw [List.filterMap_filterMap]
  apply congrArg (List.filterMap · _)
  funext entry
  split <;> rfl

theorem Sound.joined {database : Database} (sound : database.Sound) (key : String) :
    List.Forall₂ (fun row joined => ∃ hook, database.hooks.get? row.1 = some hook ∧
      joined = (row.1, row.2, hook)) (database.recordsOf key).entries (database.historyOf key) := by
  have found : ∀ row ∈ (database.recordsOf key).entries, ∃ joined,
      ((database.hooks.get? row.1).map fun hook => (row.1, row.2, hook)) = some joined := by
    intro row member
    have recorded := Table.get?_eq_some_iff.2 member
    rw [get?_records_of] at recorded
    have known := sound.recorded row.1 key row.2 recorded
    obtain ⟨hook, hooked⟩ := Option.isSome_iff_exists.1 known
    rw [hooked]
    exact ⟨_, rfl⟩
  rw [history_of_eq]
  apply (List.forall₂_filterMap found).imp
  intro row joined shape
  obtain ⟨hook, hooked, same⟩ := Option.map_eq_some_iff.1 shape
  exact ⟨hook, hooked, same.symm⟩

theorem Sound.mem_history_of {database : Database} (sound : database.Sound) {key : String}
    {revision : Int} {data : Option String} :
    (∃ hook, (revision, data, hook) ∈ database.historyOf key) ↔
      database.history.get? (revision, key) = some data := by
  rw [← get?_records_of, Table.get?_eq_some_iff, history_of_eq]
  simp only [List.mem_filterMap, Option.map_eq_some_iff]
  constructor
  · intro joined
    obtain ⟨hook, row, member, _, _, same⟩ := joined
    cases same
    exact member
  · intro member
    have recorded := Table.get?_eq_some_iff.2 member
    rw [get?_records_of] at recorded
    have known := sound.recorded revision key data recorded
    obtain ⟨hook, hooked⟩ := Option.isSome_iff_exists.1 known
    exact ⟨hook, (revision, data), member, hook, hooked, rfl⟩

theorem Sound.told_undecoded {database : Database} (sound : database.Sound) (key : String) :
    List.Forall₂ (HistoryEntry.TellsOf database key) (database.recordsOf key).entries
      ((database.historyOf key).map fun row =>
        ⟨row.1, key, row.2.1.elim .deleted .raw, row.2.2.hook, row.2.2.date⟩) := by
  apply List.forall₂_map_right_iff.2
  apply (sound.joined key).imp
  intro row joined shape
  obtain ⟨hook, hooked, rfl⟩ := shape
  exact ⟨rfl, rfl, rfl, hooked⟩

end Database

namespace Store

theorem history_entries_raw (key : String) (rows : List (Int × Option String × HookRow)) :
    historyEntries key false rows = .ok (rows.map fun row =>
      ⟨row.1, key, row.2.1.elim .deleted .raw, row.2.2.hook, row.2.2.date⟩) := by
  induction rows with
  | nil => rfl
  | cons row later hypothesis =>
      obtain ⟨revision, data, hook⟩ := row
      cases data <;> simp only [historyEntries, hypothesis] <;> rfl

theorem history_data_decoded (data : Option String) :
    historyData true data =
      (HistoryData.decoded (data.elim .deleted .raw)).mapError .serialization := by
  cases data with
  | none => rfl
  | some text =>
      simp only [historyData, decode, HistoryData.decoded, if_true, Option.elim_some]
      cases Value.parse text <;> rfl

theorem decoded_of_history_data {data : Option String} {content : HistoryData}
    (success : historyData true data = .ok content) :
    (HistoryData.decoded (data.elim .deleted .raw)) = .ok content := by
  rw [history_data_decoded] at success
  cases found : HistoryData.decoded (data.elim .deleted .raw) with
  | error fault => simp [found, Except.mapError] at success
  | ok other =>
      simp only [found, Except.mapError, Except.ok.injEq] at success
      rw [success]

theorem history_data_ok_iff (data : Option String) :
    (∃ content, historyData true data = .ok content) ↔
      ∀ text, data = some text → ∃ value, Value.parse text = .ok value := by
  cases data with
  | none =>
      apply iff_of_true ⟨.deleted, rfl⟩
      intro text absent
      cases absent
  | some text =>
      simp only [Option.some.injEq, forall_eq', historyData, decode, if_true]
      cases Value.parse text with
      | error fault => simp [Except.mapError]
      | ok value => exact iff_of_true ⟨.value value, rfl⟩ ⟨value, rfl⟩

theorem history_entries_decoded_ok (key : String)
    (rows : List (Int × Option String × HookRow)) :
    (∃ decoded, historyEntries key true rows = .ok decoded) ↔
      ∀ row ∈ rows, ∃ data, historyData true row.2.1 = .ok data := by
  induction rows with
  | nil => simp [historyEntries]
  | cons row later hypothesis =>
      obtain ⟨revision, data, hook⟩ := row
      rw [List.forall_mem_cons, ← hypothesis]
      simp only [historyEntries]
      cases historyData true data with
      | error error => simp [Bind.bind, Except.bind]
      | ok content =>
          cases historyEntries key true later <;>
            simp [Bind.bind, Except.bind, Pure.pure, Except.pure]

theorem history_entries_decoded {key : String} {rows : List (Int × Option String × HookRow)}
    {decoded : List HistoryEntry} (success : historyEntries key true rows = .ok decoded) :
    List.Forall₂ (fun row entry => historyData true row.2.1 = .ok entry.data ∧
      entry = ⟨row.1, key, entry.data, row.2.2.hook, row.2.2.date⟩) rows decoded := by
  induction rows generalizing decoded with
  | nil =>
      cases success
      exact .nil
  | cons row later hypothesis =>
      obtain ⟨revision, data, hook⟩ := row
      simp only [historyEntries] at success
      cases content : historyData true data with
      | error error => simp [content, Bind.bind, Except.bind] at success
      | ok content' =>
          cases rest : historyEntries key true later with
          | error error => simp [content, rest, Bind.bind, Except.bind] at success
          | ok entries =>
              simp only [content, rest, Bind.bind, Except.bind, Pure.pure, Except.pure,
                Except.ok.injEq] at success
              subst success
              exact .cons ⟨content, rfl⟩ (hypothesis rest)

theorem get_history_eq {store : Store} {contents : Database}
    (visible : ∀ table, store.view table = .ok contents) (key : String) (deserialize : Bool) :
    store.getHistory key deserialize =
      historyEntries key deserialize (contents.historyOf key) := by
  rw [getHistory, visible]
  rfl

/-- A store that sees sound contents tells the whole history of a key. -/
theorem tells_history {store : Store} {contents : Database} (sound : contents.Sound)
    (visible : ∀ table, store.view table = .ok contents) (key : String) :
    store.TellsHistory contents key := by
  have asked := get_history_eq visible key
  constructor
  · have told := sound.told_undecoded key
    refine ⟨_, by rw [asked, history_entries_raw], told, ?_⟩
    have revisions := List.map_eq_of_forall₂ told fun row entry tells => tells.revision.symm
    apply List.pairwise_map.1
    rw [← revisions]
    apply List.pairwise_map.2
    exact (contents.recordsOf key).increasing.imp fun order => of_decide_eq_true order
  · rw [asked, history_entries_decoded_ok]
    simp only [history_data_ok_iff]
    constructor
    · intro decodable revision text recorded
      obtain ⟨hook, member⟩ := sound.mem_history_of.2 recorded
      exact decodable _ member text rfl
    · rintro documents ⟨revision, _, hook⟩ member text rfl
      exact documents revision text (sound.mem_history_of.1 ⟨hook, member⟩)
  · intro entries decoded undecoded success
    rw [asked, history_entries_raw] at undecoded
    rw [asked] at success
    cases undecoded
    apply List.forall₂_map_left_iff.2
    apply (history_entries_decoded success).imp
    intro row entry shape
    obtain ⟨data, same⟩ := shape
    constructor
    · rw [same]
    · exact decoded_of_history_data data

end Store

/-! ## Fleets whose rows are edited from outside -/

namespace Fleet

variable {Name : Type} [DecidableEq Name]

/-- The fleets that come about on a new file, whatever the holders of stores do, and whatever
rows are recorded from outside meanwhile. -/
inductive RowReachable : Fleet Name → Prop
  | fresh : RowReachable (ofFile .fresh)
  | step {fleet : Fleet Name} (before : RowReachable fleet) (name : Name) (event : Event) :
      RowReachable (fleet.step name event).2
  | edit {fleet : Fleet Name} (before : RowReachable fleet) (edit : Edit) {file : DatabaseFile}
      (rows : edit.needsTables = true) (edited : fleet.file.edit edit = some file) :
      RowReachable { fleet with file := file }

theorem RowReachable.reachable {fleet : Fleet Name} (reachable : fleet.RowReachable) :
    fleet.Reachable := by
  induction reachable with
  | fresh => exact .fresh
  | step before name event hypothesis => exact hypothesis.step name event
  | edit before edit rows edited hypothesis => exact hypothesis.edit edit edited

theorem RowReachable.ready {fleet : Fleet Name} (reachable : fleet.RowReachable) :
    fleet.Ready := by
  induction reachable with
  | fresh => exact ⟨DatabaseFile.fresh_settled.tables, fun name handle named => nomatch named⟩
  | step before name event hypothesis =>
      exact hypothesis.move (step_move before.reachable.coherent name event).1
  | edit before edit rows edited hypothesis =>
      obtain ⟨version, hasTables⟩ := DatabaseFile.edit_rows rows edited
      constructor
      · rw [version, hasTables]
        exact hypothesis.tables
      · rw [version]
        exact hypothesis.current

theorem RowReachable.tells_history {fleet : Fleet Name} (reachable : fleet.RowReachable)
    {name : Name} {handle : Handle} (named : fleet.handles name = some handle)
    (opened : handle.connection ≠ .closed) (key : String) :
    Store.TellsHistory ⟨handle, fleet.file⟩ (fleet.seen name) key := by
  obtain ⟨visible, sound⟩ :=
    reachable.ready.visible reachable.reachable.coherent named opened
  exact Store.tells_history sound visible key

/-- Revisions are numbered without gaps, and the history of a key is told without loss. -/
theorem numbered_and_told :
    (∀ events, ((ofFile .fresh : Fleet Name).run events).Numbered
      ((ofFile .fresh : Fleet Name).commits events)) ∧
    ∀ {fleet : Fleet Name}, fleet.RowReachable → ∀ name handle,
      fleet.handles name = some handle → handle.connection ≠ .closed →
        ∀ key, Store.TellsHistory ⟨handle, fleet.file⟩ (fleet.seen name) key := by
  constructor
  · exact run_numbered
  · intro fleet reachable name handle named opened key
    exact reachable.tells_history named opened key

def recordedOutside : Fleet Nat where
  handles := ((ofFile .fresh : Fleet Nat).step 0 (.connect .memory false)).2.handles
  file :=
    { contents :=
        { live := ∅
          hooks := (∅ : Table Int HookRow).insert 7 ⟨"upgrade", "today"⟩
          history := (∅ : Table (Int × String) (Option String)).insert (7, "mode") (some "1")
          sequence := 7 }
      hasTables := true
      version := 1
      locked := false }

theorem recorded_outside_reachable : recordedOutside.RowReachable := by
  have connected := RowReachable.fresh.step 0 (.connect .memory false)
  have hooked := connected.edit (.hook 7 ⟨"upgrade", "today"⟩) rfl rfl
  exact hooked.edit (.history "mode" 7 (some "1")) rfl rfl

theorem recorded_outside_told :
    recordedOutside.RowReachable ∧
      recordedOutside.handles 0 = some (.ofLocation .memory false) ∧
        Store.TellsHistory ⟨.ofLocation .memory false, recordedOutside.file⟩
          (recordedOutside.seen 0) "mode" :=
  ⟨recorded_outside_reachable, rfl,
    numbered_and_told.2 recorded_outside_reachable 0 _ rfl nofun "mode"⟩

end Fleet

end UnitState
