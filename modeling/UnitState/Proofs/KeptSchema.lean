import UnitState.Proofs.OpeningFrame
import UnitState.Proofs.Operation

/-!
# The schema under operations

An operation on a store changes the contents of the store's file, or its lock, and nothing else:
the tables stay, and so does the version that is recorded for them, in whatever condition the
store is. An edit of rows from outside leaves them alone as well.
-/

set_option autoImplicit false

namespace UnitState

structure Store.SameSchema (before after : Store) : Prop where
  version : after.file.version = before.file.version
  hasTables : after.file.hasTables = before.file.hasTables

namespace Store

theorem SameSchema.refl (store : Store) : SameSchema store store := ⟨rfl, rfl⟩

theorem SameSchema.trans {first second third : Store} (early : SameSchema first second)
    (late : SameSchema second third) : SameSchema first third :=
  ⟨late.version.trans early.version, late.hasTables.trans early.hasTables⟩

/-- Whatever comes of it, the action leaves the schema as it is. -/
abbrev Spares {Result : Type} (action : Action Result) : Prop := action.Leads SameSchema

namespace Spares

variable {Result Other : Type}

theorem bind {first : Action Result} {next : Result → Action Other} (heads : Spares first)
    (tails : ∀ result, Spares (next result)) : Spares (first >>= next) :=
  Attempt.Leads.bind SameSchema.trans heads tails

theorem pure (result : Result) : Spares (pure result : Action Result) := SameSchema.refl

theorem fail (error : StoreError) : Spares (Attempt.fail error : Action Result) := SameSchema.refl

theorem inspect (look : Store → Except StoreError Result) : Spares (Attempt.inspect look) :=
  SameSchema.refl

theorem of_except (result : Except StoreError Result) :
    Spares (Attempt.ofExcept result : Action Result) := SameSchema.refl

theorem map {action : Action Result} (spares : Spares action) (change : Result → Other) :
    Spares (change <$> action) := by
  intro store
  rw [Attempt.map_run]
  exact spares store

theorem for_each {Item : Type} {action : Item → Action Unit}
    (spares : ∀ item, Spares (action item)) (items : List Item) :
    Spares (Attempt.forEach action items) := by
  induction items with
  | nil => exact .pure ()
  | cons head tail hypothesis => exact .bind (spares head) fun _ => hypothesis

end Spares

theorem statement_spares (edit : Database → Except EngineFault Database) :
    Spares (statement edit) := by
  intro store
  unfold statement
  split
  · exact .refl store
  · split
    · exact .refl store
    · split
      · exact .refl store
      · split <;> exact ⟨rfl, rfl⟩
  · split <;> exact ⟨rfl, rfl⟩

theorem record_spares (key : String) (data : Option String) : Spares (record key data) := by
  intro store
  unfold record
  split
  · exact .refl store
  · exact statement_spares _ store

theorem set_text_spares (key text : String) : Spares (setText key text) := by
  refine .bind (.inspect _) fun stored => ?_
  split
  · exact .pure ()
  · exact .bind (statement_spares _) fun _ => record_spares key _

theorem set_datum_spares (key : String) (datum : Datum) : Spares (setDatum key datum) := by
  unfold setDatum
  split
  · exact set_text_spares _ _
  · exact .fail _

theorem update_spares (mapping : Json.Object) (stem : String) : Spares (update mapping stem) :=
  .for_each (fun _ => set_text_spares _ _) _

theorem unset_spares (key : String) : Spares (unset key) := by
  refine .bind (.inspect _) fun stored => .bind (statement_spares _) fun _ => ?_
  cases stored with
  | some text => exact .bind (record_spares key _) fun _ => .pure true
  | none => exact .pure false

theorem unset_all_spares (keys : List String) : Spares (unsetAll keys) := by
  induction keys with
  | nil => exact .pure 0
  | cons key later hypothesis =>
      exact .bind (unset_spares key) fun _ => .bind hypothesis fun _ => .pure _

theorem unset_range_spares (names : Option (List String)) (stem : String) :
    Spares (unsetRange names stem) := by
  cases names with
  | some names => exact unset_all_spares _
  | none => exact .bind (.inspect _) fun _ => unset_all_spares _

theorem flush_spares (save : Bool) : Spares (flush save) := by
  intro store
  unfold flush
  split <;> exact ⟨rfl, rfl⟩

theorem close_spares : Spares close := .bind (flush_spares false) fun _ _ => ⟨rfl, rfl⟩

theorem begin_scope_spares (row : HookRow) : Spares (beginScope row) := by
  intro store
  unfold beginScope
  split
  · exact .refl store
  · split
    · exact .refl store
    · exact .refl store
    · split
      · exact .refl store
      · split
        · exact .refl store
        · split
          · exact .refl store
          · split <;> exact ⟨rfl, rfl⟩

theorem record_charm_spares (file : Except FileFault String) : Spares (recordCharm file) := by
  refine .bind (.of_except _) fun revision => .bind (.inspect _) fun stored => ?_
  dsimp only
  split
  · exact .pure ()
  · exact set_text_spares _ _

theorem snapshot_spares (current : Json.Object) (stem : String) :
    Spares (snapshot current stem) := by
  refine .bind (.inspect _) fun found => ?_
  cases found with
  | none => exact .pure ∅
  | some deltas =>
      exact .bind (unset_range_spares _ stem) fun _ =>
        .bind (update_spares current stem) fun _ => .pure deltas

theorem record_invocation_spares (invocation : Invocation)
    (revisionFile : Option (Except FileFault String)) :
    Spares (recordInvocation invocation revisionFile) := by
  have rest := (snapshot_spares invocation.config configStem).bind fun config =>
    (snapshot_spares invocation.relations relationsStem).bind fun relations =>
      (set_text_spares "env"
          (Json.Value.ofObject (invocation.environment.map fun _ text => .string text)).storedText).bind
        fun _ => (set_text_spares "unit" (textOrNull invocation.unit).storedText).bind
          fun _ => (set_text_spares "relid" (textOrNull invocation.relationId).storedText).bind
            fun _ => Spares.pure (HookChanges.mk config relations)
  cases revisionFile with
  | some file => exact .bind (record_charm_spares file) fun _ => rest
  | none => exact rest

theorem enter_spares (entry : Entry) : Spares (enter entry) := by
  intro store
  have opened := begin_scope_spares entry.row store
  unfold enter
  split
  · rename_i later began
    rw [began] at opened
    exact opened
  · rename_i revision later began
    rw [began] at opened
    have kept : Spares entry.bookkeeping := by
      cases entry with
      | scope row => exact .pure _
      | hook row invocation revisionFile => exact record_invocation_spares _ _
    have recorded := opened.trans (kept later)
    split
    · rename_i ran
      rw [ran] at recorded
      exact recorded
    · rename_i ran
      rw [ran] at recorded
      exact recorded.trans (flush_spares false _)

end Store

open Store

theorem Request.answer_spares (request : Request) : Spares request.answer := by
  cases request with
  | set key value => exact .bind (set_text_spares key _) fun _ => .pure _
  | setDatum key datum => exact (set_datum_spares key datum).map _
  | update mapping stem => exact (update_spares mapping stem).map _
  | unset key => exact (unset_spares key).map _
  | unsetRange names stem => exact (unset_range_spares names stem).map _
  | flush save => exact (flush_spares save).map _
  | close => exact close_spares.map _
  | get | getRaw | getOr | getAs | getRecord | getRange | delta | getHistory | dump | describe =>
      intro store
      rw [look_keeps rfl store]
      exact .refl store

theorem Operation.action_spares (operation : Operation) : Spares operation.action := by
  cases operation with
  | ask request => exact request.answer_spares.map _
  | enter entry => exact (enter_spares entry).map _
  | leave ending =>
      refine Spares.map ?_ _
      cases ending with
      | commit => exact flush_spares true
      | rollback | drop => exact flush_spares false
      | detach => exact .pure ()

theorem DatabaseFile.edit_rows {file later : DatabaseFile} {edit : Edit}
    (rows : edit.needsTables = true) (success : file.edit edit = some later) :
    later.version = file.version ∧ later.hasTables = file.hasTables := by
  unfold DatabaseFile.edit at success
  split at success
  · cases success
  · cases edit with
    | live key text =>
        cases success
        exact ⟨rfl, rfl⟩
    | history key revision data =>
        simp only at success
        split at success
        · cases success
          exact ⟨rfl, rfl⟩
        · cases success
    | hook revision row =>
        obtain ⟨contents, _, rfl⟩ := Option.map_eq_some_iff.1 success
        exact ⟨rfl, rfl⟩
    | version version => cases rows

end UnitState
