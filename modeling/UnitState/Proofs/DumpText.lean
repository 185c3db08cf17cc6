import UnitState.Proofs.ByteOrder
import UnitState.Proofs.HistoryJoin
import UnitState.Proofs.IndentedReading

/-!
# The text of a dump

A dump lists every live row and every history row of the contents that a store sees, each once and
in the order of its key. From its text it is read back as it was, whatever characters the keys and
the data have, and whether or not the data are documents. So the text tells both tables.
-/

set_option autoImplicit false

namespace UnitState

open Json

/-! ## Reading back -/

theorem LiveRow.decoder_restores (row : LiveRow) (room : Nat) :
    LiveRow.decoder.Restores (room + 1) row.toValue row := by
  apply Decoder.record_restores "struct LiveRow"
  · intro level
    apply Decoder.FieldsRead.slot (Decoder.text_restores row.key room) rfl rfl
    apply Decoder.FieldsRead.slot (Decoder.text_restores row.data room) rfl rfl
    exact .done _
  · rfl

theorem RevisionRow.decoder_restores {row : RevisionRow}
    (signed : Decoder.IntegerType.signed64.Holds row.revision) (room : Nat) :
    RevisionRow.decoder.Restores (room + 1) row.toValue row := by
  apply Decoder.record_restores "struct RevisionRow"
  · intro level
    apply Decoder.FieldsRead.slot (Decoder.integer_restores signed room) rfl rfl
    apply Decoder.FieldsRead.slot (Decoder.text_restores row.key room) rfl rfl
    apply Decoder.FieldsRead.slot (Decoder.optional_text_restores row.data room) rfl rfl
    exact .done _
  · rfl

namespace Dump

variable {dump : Dump}

theorem decoder_restores
    (signed : ∀ row ∈ dump.revisions, Decoder.IntegerType.signed64.Holds row.revision)
    (room : Nat) : decoder.Restores (room + 3) dump.toValue dump := by
  have live := Decoder.list_restores fun row (_ : row ∈ dump.live) =>
    LiveRow.decoder_restores row room
  have revisions := Decoder.list_restores fun row member =>
    RevisionRow.decoder_restores (signed row member) room
  apply Decoder.record_restores "struct DebugDump"
  · intro level
    apply Decoder.FieldsRead.slot live rfl rfl
    apply Decoder.FieldsRead.slot revisions rfl rfl
    exact .done _
  · rfl

theorem decoder_run
    (signed : ∀ row ∈ dump.revisions, Decoder.IntegerType.signed64.Holds row.revision) :
    decoder.run dump.text = .ok dump :=
  (decoder_restores signed (nestingLimit - 3)).run (.inr ⟨[], rfl, nofun⟩)

/-- Whether a dump lists all rows of these contents, each of them once. -/
structure Lists (dump : Dump) (contents : Database) : Prop where
  live : ∀ key text, ⟨key, text⟩ ∈ dump.live ↔ contents.live.get? key = some text
  liveOrder : dump.live.Pairwise fun earlier later => bytes earlier.key < bytes later.key
  revisions : ∀ revision key data, ⟨revision, key, data⟩ ∈ dump.revisions ↔
    contents.history.get? (revision, key) = some data
  revisionOrder : dump.revisions.Pairwise fun earlier later =>
    earlier.revision < later.revision ∨
      earlier.revision = later.revision ∧ bytes earlier.key < bytes later.key

theorem Lists.same_tables {contents other : Database} (lists : dump.Lists contents)
    (listsOther : dump.Lists other) :
    contents.live = other.live ∧ contents.history = other.history := by
  constructor
  · apply Table.ext_get?
    intro key
    apply Option.ext
    intro text
    rw [← lists.live, ← listsOther.live]
  · apply Table.ext_get?
    rintro ⟨revision, key⟩
    apply Option.ext
    intro data
    rw [← lists.revisions, ← listsOther.revisions]

end Dump

theorem revision_before_iff {left right : Int × String} :
    KeyOrder.before left right = true ↔
      left.1 < right.1 ∨ left.1 = right.1 ∧ bytes left.2 < bytes right.2 := by
  have pairs : KeyOrder.before left right = true ↔ KeyOrder.before left.1 right.1 = true ∨
      KeyOrder.before right.1 left.1 = false ∧ KeyOrder.before left.2 right.2 = true := by
    change (KeyOrder.before left.1 right.1 || (!KeyOrder.before right.1 left.1 &&
      KeyOrder.before left.2 right.2)) = true ↔ _
    rw [Bool.or_eq_true, Bool.and_eq_true, Bool.not_eq_true']
  have numbers : ∀ {first second : Int}, KeyOrder.before first second = decide (first < second) :=
    rfl
  rw [pairs, before_iff_bytes_lt, numbers, numbers, decide_eq_true_eq, decide_eq_false_iff_not]
  constructor
  · rintro (less | ⟨notGreater, later⟩)
    · exact .inl less
    · rcases lt_or_eq_of_le (Int.not_lt.1 notGreater) with less | same
      · exact .inl less
      · exact .inr ⟨same, later⟩
  · rintro (less | ⟨same, later⟩)
    · exact .inl less
    · exact .inr ⟨by omega, later⟩

def Database.dumped (contents : Database) : Dump where
  live := contents.live.entries.map fun (key, text) => ⟨key, text⟩
  revisions := contents.history.entries.map fun ((revision, key), data) => ⟨revision, key, data⟩

theorem Database.dumped_lists (contents : Database) : contents.dumped.Lists contents where
  live key text := by
    rw [Table.get?_eq_some_iff, dumped, List.mem_map]
    constructor
    · rintro ⟨binding, member, same⟩
      cases same
      exact member
    · intro member
      exact ⟨_, member, rfl⟩
  liveOrder := by
    apply List.pairwise_map.2
    exact contents.live.increasing.imp fun order => before_iff_bytes_lt.1 order
  revisions revision key data := by
    rw [Table.get?_eq_some_iff, dumped, List.mem_map]
    constructor
    · rintro ⟨binding, member, same⟩
      cases same
      exact member
    · intro member
      exact ⟨_, member, rfl⟩
  revisionOrder := by
    apply List.pairwise_map.2
    exact contents.history.increasing.imp fun order => revision_before_iff.1 order

theorem Store.dump_eq {store : Store} {contents : Database}
    (visible : store.view Schema.liveTable = .ok contents) : store.dump = .ok contents.dumped := by
  rw [dump, visible]
  rfl

/-! ## Revisions of 64 bits -/

open Decoder.IntegerType (signed64)

namespace Database

/-- Contents whose revisions are all signed numbers of 64 bits, as are those that come next. -/
structure Fits (contents : Database) : Prop where
  hooks : ∀ revision, contents.hooks.contains revision = true → signed64.least ≤ revision
  nonnegative : 0 ≤ contents.sequence
  bounded : contents.sequence ≤ lastRevision

theorem empty_fits : Fits empty where
  hooks _ known := nomatch known
  nonnegative := Int.le_refl 0
  bounded := by decide

theorem Fits.recorded {contents : Database} (fits : contents.Fits) (sound : contents.Sound)
    {revision : Int} {key : String} {data : Option String}
    (found : contents.history.get? (revision, key) = some data) : signed64.Holds revision := by
  have known := sound.recorded revision key data found
  exact ⟨fits.hooks revision known, (sound.bounded revision known).trans fits.bounded⟩

theorem Fits.dumped {contents : Database} (fits : contents.Fits) (sound : contents.Sound) :
    ∀ row ∈ contents.dumped.revisions, signed64.Holds row.revision := by
  rintro ⟨revision, key, data⟩ member
  exact fits.recorded sound ((contents.dumped_lists.revisions revision key data).1 member)

theorem Fits.assign_all {contents : Database} (fits : contents.Fits) (recorded : Option Int)
    (writes : List Write) : (contents.assignAll recorded writes).Fits where
  hooks revision known := by
    rw [hooks_assign_all] at known
    exact fits.hooks revision known
  nonnegative := by
    rw [sequence_assign_all]
    exact fits.nonnegative
  bounded := by
    rw [sequence_assign_all]
    exact fits.bounded

theorem Fits.insert {contents : Database} (fits : contents.Fits) {revision sequence : Int}
    (least : signed64.least ≤ revision) (row : HookRow) (nonnegative : 0 ≤ sequence)
    (bounded : sequence ≤ lastRevision) :
    Fits { contents with hooks := contents.hooks.insert revision row, sequence := sequence } where
  hooks other known := by
    simp only [Table.contains_insert, Bool.or_eq_true, decide_eq_true_eq] at known
    rcases known with rfl | earlier
    · exact least
    · exact fits.hooks other earlier
  nonnegative := nonnegative
  bounded := bounded

theorem Fits.add_hook {contents later : Database} (fits : contents.Fits) {revision : Int}
    {row : HookRow} (holds : signed64.Holds revision)
    (added : contents.addHook revision row = some later) : later.Fits := by
  unfold addHook at added
  split at added
  · cases added
  · cases added
    have nonnegative := fits.nonnegative
    exact fits.insert holds.1 row (by omega) (Int.max_le.2 ⟨fits.bounded, holds.2⟩)

/-- No scope is entered if there is no number left for it. -/
theorem Fits.opening {contents : Database} (fits : contents.Fits) {entry : Entry}
    {opening : Opening} (opens : entry.opening contents = .ok opening) : opening.pending.Fits := by
  have room := Entry.opening_numbered opens
  have nonnegative := fits.nonnegative
  have least : signed64.least ≤ contents.sequence + 1 :=
    Int.le_trans (by decide : signed64.least ≤ 0) (by omega)
  obtain ⟨_, pending⟩ := Entry.opening_ok opens
  rw [pending]
  apply Fits.assign_all
  exact fits.insert least entry.row (by omega) room

end Database

theorem DatabaseFile.edit_fits {file later : DatabaseFile} {edit : Edit}
    (fits : file.contents.Fits)
    (held : ∀ revision row, edit = .hook revision row → signed64.Holds revision)
    (success : file.edit edit = some later) : later.contents.Fits := by
  unfold DatabaseFile.edit at success
  split at success
  · cases success
  · cases edit with
    | live key text =>
        cases success
        exact ⟨fits.hooks, fits.nonnegative, fits.bounded⟩
    | history key revision data =>
        simp only at success
        split at success
        · rename_i recorded
          cases success
          unfold Database.record at recorded
          split at recorded
          · cases recorded
            exact ⟨fits.hooks, fits.nonnegative, fits.bounded⟩
          · cases recorded
        · cases success
    | hook revision row =>
        obtain ⟨contents, added, rfl⟩ := Option.map_eq_some_iff.1 success
        exact fits.add_hook (held revision row rfl) added
    | version version =>
        cases success
        exact fits

/-! ## Dumps of stores in use -/

namespace Fleet

variable {Name : Type} [DecidableEq Name]

/-- The fleets that come about on a new file, whatever the holders of stores do, and whatever
rows are recorded from outside meanwhile by an engine whose revisions have 64 bits. -/
inductive EngineReachable : Fleet Name → Prop
  | fresh : EngineReachable (ofFile .fresh)
  | step {fleet : Fleet Name} (before : EngineReachable fleet) (name : Name) (event : Event) :
      EngineReachable (fleet.step name event).2
  | edit {fleet : Fleet Name} (before : EngineReachable fleet) (edit : Edit) {file : DatabaseFile}
      (rows : edit.needsTables = true)
      (held : ∀ revision row, edit = .hook revision row → signed64.Holds revision)
      (edited : fleet.file.edit edit = some file) : EngineReachable { fleet with file := file }

theorem EngineReachable.row_reachable {fleet : Fleet Name} (reachable : fleet.EngineReachable) :
    fleet.RowReachable := by
  induction reachable with
  | fresh => exact .fresh
  | step _ name event hypothesis => exact hypothesis.step name event
  | edit _ edit rows _ edited hypothesis => exact hypothesis.edit edit rows edited

structure FitsFleet (fleet : Fleet Name) : Prop where
  committed : fleet.file.contents.Fits
  pending : ∀ {name revision pending}, fleet.Holds name revision pending → pending.Fits

theorem FitsFleet.move {fleet later : Fleet Name} (fits : fleet.FitsFleet)
    (coherent : fleet.Coherent) {name : Name} {event : Event}
    {answer : Option (Except StoreError Outcome)}
    (move : fleet.Move name event answer later) : later.FitsFleet where
  committed := by
    have leaves := move.leaves
    generalize later.file.contents = contents at leaves
    cases leaves with
    | same => exact fits.committed
    | wrote writes => exact fits.committed.assign_all none writes
    | committed holds => exact fits.pending holds
  pending holds := by
    cases (move.continues coherent holds).2 with
    | kept held => exact fits.pending held
    | entered _ _ _ opens => exact fits.committed.opening opens
    | performed _ _ held => exact (fits.pending held).assign_all _ _

theorem EngineReachable.fits {fleet : Fleet Name} (reachable : fleet.EngineReachable) :
    fleet.FitsFleet := by
  induction reachable with
  | fresh => exact ⟨Database.empty_fits, fun ⟨_, _, named⟩ => nomatch named⟩
  | step before name event hypothesis =>
      have coherent := before.row_reachable.reachable.coherent
      exact hypothesis.move coherent (step_move coherent name event).1
  | edit _ edit _ held edited hypothesis =>
      exact ⟨DatabaseFile.edit_fits hypothesis.committed held edited, hypothesis.pending⟩

inductive Sees (Name : Type) [DecidableEq Name] : Store → Database → Prop
  | open {fleet : Fleet Name} (reachable : fleet.EngineReachable) {name : Name} {handle : Handle}
      (named : fleet.handles name = some handle) (opened : handle.connection ≠ .closed) :
      Sees Name ⟨handle, fleet.file⟩ (fleet.seen name)

theorem Sees.visible {store : Store} {contents : Database} (sees : Sees Name store contents) :
    (∀ table, store.view table = .ok contents) ∧ contents.Sound ∧ contents.Fits := by
  obtain ⟨reachable, named, opened⟩ := sees
  rename_i fleet name handle
  have coherent := reachable.row_reachable.reachable.coherent
  obtain ⟨visible, sound⟩ := reachable.row_reachable.ready.visible coherent named opened
  refine ⟨visible, sound, ?_⟩
  rcases coherent.outside_or_holds name with outside | ⟨revision, pending, holds⟩
  · rw [outside.seen]
    exact reachable.fits.committed
  · rw [holds.seen]
    exact reachable.fits.pending holds

theorem Sees.dumped {store : Store} {contents : Database} (sees : Sees Name store contents) :
    store.dump = .ok contents.dumped ∧
      Dump.decoder.run contents.dumped.text = .ok contents.dumped := by
  obtain ⟨visible, sound, fits⟩ := sees.visible
  exact ⟨Store.dump_eq (visible Schema.liveTable), Dump.decoder_run (fits.dumped sound)⟩

/-- The dump of an open store lists all that the store sees, also what it has not committed, and is
read back from its text. So stores whose dumps have the same text see the same tables. -/
theorem dump_complete {store : Store} {contents : Database} (sees : Sees Name store contents) :
    ∃ dump, store.dump = .ok dump ∧ dump.Lists contents ∧
      Dump.decoder.run dump.text = .ok dump ∧
        ∀ other otherContents otherDump, Sees Name other otherContents →
          other.dump = .ok otherDump → otherDump.text = dump.text →
            otherContents.live = contents.live ∧ otherContents.history = contents.history := by
  obtain ⟨dumped, read⟩ := sees.dumped
  refine ⟨contents.dumped, dumped, contents.dumped_lists, read, ?_⟩
  intro other otherContents otherDump seesOther dumpedOther sameText
  obtain ⟨itsDump, readOther⟩ := seesOther.dumped
  obtain rfl : otherContents.dumped = otherDump := by
    rw [itsDump] at dumpedOther
    exact Except.ok.inj dumpedOther
  have same : otherContents.dumped = contents.dumped := by
    rw [sameText, read] at readOther
    exact (Except.ok.inj readOther).symm
  exact otherContents.dumped_lists.same_tables (same ▸ contents.dumped_lists)

/-- A store that has a scope open in which it has stored a null. Somebody else has recorded a key
with a quotation mark and a line break, whose data are no document, and that a key was removed. -/
def malformedRows : Fleet Nat :=
  let opened := (ofFile .fresh).run [(0, .connect .memory false)]
  let contents : Database :=
    { live := (∅ : Table String String).insert "a\"\n" "\\"
      hooks := (∅ : Table Int HookRow).insert 7 ⟨"upgrade", "today"⟩
      history := (∅ : Table (Int × String) (Option String)).insert (7, "mode") none
      sequence := 7 }
  { opened with file.contents := contents }.run
    [(0, .perform (.enter (.scope ⟨"install", "today"⟩))), (0, .perform (.ask (.set "b" .null)))]

theorem malformed_rows_reachable : malformedRows.EngineReachable := by
  have opened := EngineReachable.fresh.step (0 : Nat) (.connect .memory false)
  have hooked := opened.edit (.hook 7 ⟨"upgrade", "today"⟩) rfl
    (fun _ _ same => by cases same; exact ⟨by decide, by decide⟩) rfl
  have removed := hooked.edit (.history "mode" 7 none) rfl nofun rfl
  have malformed := removed.edit (.live "a\"\n" "\\") rfl nofun rfl
  exact (malformed.step 0 (.perform (.enter (.scope ⟨"install", "today"⟩)))).step 0
    (.perform (.ask (.set "b" .null)))

theorem malformed_rows_dumped :
    ∃ dump, Store.dump ⟨⟨.memory, false, .writing (malformedRows.seen 0), some 8⟩,
      malformedRows.file⟩ = .ok dump ∧
        dump.live = [⟨"a\"\n", "\\"⟩, ⟨"b", "null"⟩] ∧
          dump.revisions = [⟨7, "mode", none⟩, ⟨8, "b", some "null"⟩] ∧
            Dump.decoder.run dump.text = .ok dump := by
  have sees : Sees Nat ⟨⟨.memory, false, .writing (malformedRows.seen 0), some 8⟩,
      malformedRows.file⟩ (malformedRows.seen 0) := .open malformed_rows_reachable rfl nofun
  obtain ⟨dump, dumped, _, read, _⟩ := dump_complete sees
  refine ⟨dump, dumped, ?_, ?_, read⟩
  · cases dumped
    rfl
  · cases dumped
    rfl

end Fleet

end UnitState
