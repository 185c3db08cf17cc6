import UnitState.Proofs.Entry
import UnitState.Store.Edit

/-!
# Sound contents

What holds of all contents that stores and edits from outside can leave: the numbers in use
bound the hooks, and a history row has the hook of its revision. Inside a scope the revision
is the latest of all. So a new scope finds no rows under its number, and what it records is
accepted.
-/

set_option autoImplicit false

namespace UnitState

/-- Every revision with a hook is in the range of the numbers in use, and every history row
has the hook of its revision. -/
structure Database.Sound (database : Database) : Prop where
  bounded : ∀ revision, database.hooks.contains revision = true → revision ≤ database.sequence
  recorded : ∀ revision key data, database.history.get? (revision, key) = some data →
    database.hooks.contains revision = true

/-- Contents of a scope with this revision, which is the latest of all. -/
structure Database.Opened (revision : Int) (pending : Database) : Prop where
  sound : pending.Sound
  latest : pending.sequence = revision
  known : pending.hooks.contains revision = true

namespace Database

theorem empty_sound : Sound empty where
  bounded _ known := nomatch known
  recorded _ _ _ found := nomatch found

theorem Sound.assign_all_none {contents : Database} (sound : contents.Sound)
    (writes : List Write) : (contents.assignAll none writes).Sound where
  bounded revision known := by
    rw [hooks_assign_all] at known
    rw [sequence_assign_all]
    exact sound.bounded revision known
  recorded revision key data found := by
    rw [history_assign_all_unrecorded] at found
    rw [hooks_assign_all]
    exact sound.recorded revision key data found

theorem Opened.assign_all {pending : Database} {revision : Int}
    (opened : pending.Opened revision) (writes : List Write) :
    (pending.assignAll (some revision) writes).Opened revision where
  sound := {
    bounded := fun other known => by
      rw [hooks_assign_all] at known
      rw [sequence_assign_all]
      exact opened.sound.bounded other known
    recorded := fun other key data found => by
      rw [hooks_assign_all]
      by_cases same : other = revision
      · rw [same]
        exact opened.known
      · rw [history_assign_all_other pending same] at found
        exact opened.sound.recorded other key data found }
  latest := by rw [sequence_assign_all, opened.latest]
  known := by rw [hooks_assign_all, opened.known]

theorem Sound.revised {contents : Database} (sound : contents.Sound) (row : HookRow) :
    (contents.revised row).Opened (contents.sequence + 1) where
  sound := {
    bounded := fun other known => by
      simp only [Database.revised, Table.contains_insert, Bool.or_eq_true,
        decide_eq_true_eq] at known ⊢
      rcases known with latest | earlier
      · exact Int.le_of_eq latest
      · have bound := sound.bounded other earlier
        omega
    recorded := fun other key data found => by
      simp only [Database.revised, Table.contains_insert,
        sound.recorded other key data found, Bool.or_true] }
  latest := rfl
  known := contents.revised_known row

theorem Sound.set_live {contents : Database} (sound : contents.Sound) (key text : String) :
    (contents.setLive key text).Sound := ⟨sound.bounded, sound.recorded⟩

theorem Sound.record {contents later : Database} (sound : contents.Sound) {revision : Int}
    {key : String} {data : Option String} (success : contents.record revision key data = .ok later) :
    later.Sound := by
  unfold Database.record at success
  split at success
  · rename_i known
    cases success
    refine ⟨sound.bounded, fun other otherKey otherData found => ?_⟩
    by_cases same : (other, otherKey) = (revision, key)
    · rw [(Prod.mk.inj same).1]
      exact known
    · rw [Table.get?_insert_of_ne _ _ same] at found
      exact sound.recorded other otherKey otherData found
  · cases success

theorem Sound.add_hook {contents later : Database} (sound : contents.Sound) {revision : Int}
    {row : HookRow} (success : contents.addHook revision row = some later) : later.Sound := by
  unfold addHook at success
  split at success
  · cases success
  · cases success
    refine ⟨fun other known => ?_, fun other key data found => ?_⟩
    · simp only [Table.contains_insert, Bool.or_eq_true, decide_eq_true_eq] at known
      simp only
      rcases known with same | earlier
      · omega
      · have bound := sound.bounded other earlier
        omega
    · simp only [Table.contains_insert, sound.recorded other key data found, Bool.or_true]

end Database

theorem Entry.opening_opened {entry : Entry} {contents : Database} {opening : Opening}
    (sound : contents.Sound) (success : entry.opening contents = .ok opening) :
    opening.pending.Opened opening.revision := by
  obtain ⟨number, pending⟩ := Entry.opening_ok success
  rw [pending, number]
  exact (sound.revised entry.row).assign_all (entry.writes contents.live)

theorem DatabaseFile.edit_sound {file later : DatabaseFile} {edit : Edit}
    (sound : file.contents.Sound) (success : file.edit edit = some later) :
    later.contents.Sound ∧ later.locked = file.locked ∧ file.locked = false := by
  unfold DatabaseFile.edit at success
  split at success
  · cases success
  · rename_i allowed
    have unlocked : file.locked = false := by
      simp only [Bool.or_eq_true, not_or, Bool.not_eq_true] at allowed
      exact allowed.1
    cases edit with
    | live key text =>
        cases success
        exact ⟨sound.set_live key text, rfl, unlocked⟩
    | history key revision data =>
        simp only at success
        split at success
        · rename_i recorded
          cases success
          exact ⟨sound.record recorded, rfl, unlocked⟩
        · cases success
    | hook revision row =>
        obtain ⟨contents, added, rfl⟩ := Option.map_eq_some_iff.1 success
        exact ⟨sound.add_hook added, rfl, unlocked⟩
    | version version =>
        cases success
        exact ⟨sound, rfl, unlocked⟩

/-- A file on which nobody has a store open: its contents are sound, and its tables were
created before the version of the schema was recorded. -/
structure DatabaseFile.Settled (file : DatabaseFile) : Prop where
  sound : file.contents.Sound
  tables : file.version = Schema.currentVersion → file.hasTables = true
  unlocked : file.locked = false

theorem DatabaseFile.fresh_settled : fresh.Settled where
  sound := Database.empty_sound
  tables current := by cases current
  unlocked := rfl

end UnitState
