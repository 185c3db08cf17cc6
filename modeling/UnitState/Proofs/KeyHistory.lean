import UnitState.Proofs.SoundContents

/-!
# The history of a key

The rows of one key are a table of their own, by revision. From this table the text of the key
can be read off as of any revision: it is what the last row up to that revision recorded. If
every change of a live text was recorded, the last row of a key holds its live text.
-/

set_option autoImplicit false

namespace UnitState

namespace Table

theorem get_last_entries_iff {Value : Type} {table : Table Int Value} {key : Int}
    {value : Value} :
    table.entries.getLast? = some (key, value) ↔
      table.get? key = some value ∧ ∀ other, table.contains other = true → other ≤ key := by
  have increasing : table.entries.Pairwise fun left right => left.1 < right.1 :=
    table.increasing.imp fun order => of_decide_eq_true order
  constructor
  · intro last
    obtain ⟨earlier, shape⟩ := List.getLast?_eq_some_iff.1 last
    constructor
    · apply get?_eq_some_iff.2
      rw [shape]
      exact List.mem_concat_self
    · intro other known
      obtain ⟨found, bound⟩ := Option.isSome_iff_exists.1 known
      have member := get?_eq_some_iff.1 bound
      rw [shape] at increasing member
      rcases List.mem_append.1 member with early | final
      · have order := (List.pairwise_append.1 increasing).2.2 _ early (key, value)
          (List.mem_singleton_self _)
        exact Int.le_of_lt order
      · cases List.mem_singleton.1 final
        exact Int.le_refl key
  · intro greatest
    obtain ⟨found, bound⟩ := greatest
    have member := get?_eq_some_iff.1 found
    cases last : table.entries.getLast? with
    | none =>
        rw [List.getLast?_eq_none_iff.1 last] at member
        cases member
    | some binding =>
        obtain ⟨earlier, shape⟩ := List.getLast?_eq_some_iff.1 last
        have lastFound : table.get? binding.1 = some binding.2 := by
          apply get?_eq_some_iff.2
          rw [shape]
          exact List.mem_concat_self
        have notLater := bound binding.1 (by simp [contains, lastFound])
        rw [shape] at increasing member
        rcases List.mem_append.1 member with early | final
        · have order := (List.pairwise_append.1 increasing).2.2 _ early binding
            (List.mem_singleton_self _)
          omega
        · rw [List.mem_singleton.1 final]

end Table

namespace Database

def recordsOf (database : Database) (key : String) : Table Int (Option String) where
  entries := database.history.entries.filterMap fun entry =>
    if entry.1.2 = key then some (entry.1.1, entry.2) else none
  increasing := by
    apply List.pairwise_filterMap.2
    apply database.history.increasing.imp
    intro left right order leftRow leftShape rightRow rightShape
    split at leftShape
    · split at rightShape
      · rename_i leftKey rightKey
        cases leftShape
        cases rightShape
        -- of two rows of one key the one that comes first has the lesser revision
        simpa [KeyOrder.before, leftKey, rightKey] using order
      · cases rightShape
    · cases leftShape

theorem get?_records_of (database : Database) (key : String) (revision : Int) :
    (database.recordsOf key).get? revision = database.history.get? (revision, key) := by
  apply Option.ext
  intro data
  rw [Table.get?_eq_some_iff, Table.get?_eq_some_iff, recordsOf, List.mem_filterMap]
  constructor
  · intro kept
    obtain ⟨⟨⟨number, other⟩, found⟩, member, shape⟩ := kept
    split at shape
    · rename_i same
      cases shape
      exact same ▸ member
    · cases shape
  · intro member
    exact ⟨_, member, if_pos rfl⟩

def rowAsOf (database : Database) (bound : Int) (key : String) : Option (Int × Option String) :=
  ((database.recordsOf key).filter fun revision _ => revision ≤ bound).entries.getLast?

theorem row_as_of_iff {database : Database} {bound revision : Int} {key : String}
    {data : Option String} :
    database.rowAsOf bound key = some (revision, data) ↔
      database.history.get? (revision, key) = some data ∧ revision ≤ bound ∧
        ∀ other, other ≤ bound → database.history.contains (other, key) = true →
          other ≤ revision := by
  have kept : ∀ other, ((database.recordsOf key).filter fun revision _ => revision ≤ bound).get?
      other = (database.history.get? (other, key)).filter fun _ => other ≤ bound := by
    intro other
    rw [Table.get?_filter, get?_records_of]
  rw [rowAsOf, Table.get_last_entries_iff, kept, Option.filter_eq_some_iff, and_assoc]
  simp only [decide_eq_true_eq, Table.contains, kept]
  constructor
  · intro greatest
    obtain ⟨found, within, last⟩ := greatest
    refine ⟨found, within, fun other otherWithin known => last other ?_⟩
    simpa [otherWithin] using known
  · intro greatest
    obtain ⟨found, within, last⟩ := greatest
    refine ⟨found, within, fun other known => ?_⟩
    obtain ⟨row, row_known⟩ := Option.isSome_iff_exists.1 known
    obtain ⟨row_found, row_within⟩ := Option.filter_eq_some_iff.1 row_known
    apply last other (by simpa using row_within)
    rw [row_found]
    rfl

/-- The text of a key as of a revision: nothing if the key has no row by then, or if its last
row by then tells that it was removed. -/
def textAsOf (database : Database) (bound : Int) (key : String) : Option String :=
  (database.rowAsOf bound key).bind (·.2)

def lastText (database : Database) (key : String) : Option String :=
  (database.recordsOf key).entries.getLast?.bind (·.2)

/-- The text as of a revision is decided by the rows up to this revision. -/
theorem text_as_of_congr {database other : Database} {bound : Int} {key : String}
    (same : ∀ revision, revision ≤ bound →
      database.history.get? (revision, key) = other.history.get? (revision, key)) :
    database.textAsOf bound key = other.textAsOf bound key := by
  have tables : (database.recordsOf key).filter (fun revision _ => revision ≤ bound) =
      (other.recordsOf key).filter fun revision _ => revision ≤ bound := by
    apply Table.ext_get?
    intro revision
    rw [Table.get?_filter, Table.get?_filter, get?_records_of, get?_records_of]
    by_cases within : revision ≤ bound
    · rw [same revision within]
    · simp only [within, decide_false]
      cases database.history.get? (revision, key) <;>
        cases other.history.get? (revision, key) <;> rfl
  rw [textAsOf, textAsOf, rowAsOf, rowAsOf, tables]

theorem text_as_of_recorded {database : Database} {bound : Int} {key : String}
    {data : Option String} (recorded : database.history.get? (bound, key) = some data) :
    database.textAsOf bound key = data := by
  have last : database.rowAsOf bound key = some (bound, data) :=
    row_as_of_iff.2 ⟨recorded, Int.le_refl bound, fun _ within _ => within⟩
  rw [textAsOf, last, Option.bind_some]

theorem Sound.text_as_of_sequence {database : Database} (sound : database.Sound)
    (key : String) : database.textAsOf database.sequence key = database.lastText key := by
  have all : (database.recordsOf key).filter (fun revision _ => revision ≤ database.sequence) =
      database.recordsOf key := by
    apply Table.ext_get?
    intro revision
    rw [Table.get?_filter, get?_records_of]
    cases found : database.history.get? (revision, key) with
    | none => rfl
    | some data =>
        have bound := sound.bounded revision (sound.recorded revision key data found)
        simp [bound]
  rw [textAsOf, rowAsOf, lastText, all]

/-- Whether the last row of every key holds its live text. -/
def Mirrored (database : Database) : Prop :=
  ∀ key, database.live.get? key = database.textAsOf database.sequence key

theorem empty_mirrored : Mirrored empty := fun _ => rfl

theorem Mirrored.revised {contents : Database} (mirrored : contents.Mirrored)
    (sound : contents.Sound) (row : HookRow) : (contents.revised row).Mirrored := by
  intro key
  have extended : (contents.revised row).Opened (contents.sequence + 1) := sound.revised row
  rw [extended.sound.text_as_of_sequence]
  have before := mirrored key
  rw [sound.text_as_of_sequence] at before
  exact before

/-- In a scope a write leaves the last row of its key with the new text. -/
theorem Mirrored.assign {pending : Database} {revision : Int} (mirrored : pending.Mirrored)
    (latest : pending.sequence = revision) (write : Write) :
    (Database.assign (some revision) pending write).Mirrored := by
  intro key
  rw [sequence_assign, latest]
  by_cases present : pending.live.get? write.key = write.data
  · rw [assign_present pending (some revision) present, ← latest]
    exact mirrored key
  · by_cases same : key = write.key
    · rw [same, live_assign, Table.get?_change_self]
      have recorded := history_assign_changed pending revision present
      exact (text_as_of_recorded recorded).symm
    · rw [live_assign, Table.get?_change_of_ne _ _ same, mirrored key, latest]
      apply text_as_of_congr
      intro other _
      symm
      apply history_assign_of_ne
      intro equal
      exact same (congrArg Prod.snd equal)

theorem Mirrored.assign_all {pending : Database} {revision : Int} (mirrored : pending.Mirrored)
    (latest : pending.sequence = revision) (writes : List Write) :
    (pending.assignAll (some revision) writes).Mirrored := by
  induction writes generalizing pending with
  | nil => exact mirrored
  | cons write later hypothesis =>
      rw [assign_all_cons]
      apply hypothesis
      · exact mirrored.assign latest write
      · rw [sequence_assign, latest]

end Database

theorem Entry.opening_mirrored {entry : Entry} {contents : Database} {opening : Opening}
    (mirrored : contents.Mirrored) (sound : contents.Sound)
    (success : entry.opening contents = .ok opening) : opening.pending.Mirrored := by
  obtain ⟨number, pending⟩ := Entry.opening_ok success
  rw [pending, number]
  exact (mirrored.revised sound entry.row).assign_all rfl (entry.writes contents.live)

end UnitState
