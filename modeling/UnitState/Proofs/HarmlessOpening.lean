import UnitState.Proofs.HostFleet
import UnitState.Proofs.OpeningFrame

/-!
# What an opening does to databases

Opening a store changes no row of any database that exists. All that can happen to one is that
its tables are created and the version of its schema is recorded, if none was recorded before.
A version that is not the current one is left as it is, and refused.
-/

set_option autoImplicit false

namespace UnitState

namespace DatabaseFile

/-- A file whose schema has been brought up to date, or needed not to be. -/
structure Upgraded (before after : DatabaseFile) : Prop where
  contents : after.contents = before.contents
  locked : after.locked = before.locked
  versioned : before.version ≠ 0 → after = before

theorem Upgraded.refl (file : DatabaseFile) : Upgraded file file := ⟨rfl, rfl, fun _ => rfl⟩

theorem Upgraded.trans {first second third : DatabaseFile} (early : Upgraded first second)
    (late : Upgraded second third) : Upgraded first third where
  contents := late.contents.trans early.contents
  locked := late.locked.trans early.locked
  versioned versioned := by
    have same := early.versioned versioned
    subst same
    exact late.versioned versioned

theorem migrate_upgraded (readOnly : Bool) (file : DatabaseFile) :
    Upgraded file (migrate readOnly file).2 := by
  unfold migrate
  dsimp only
  split
  · exact .refl file
  · split
    · exact .refl file
    · rename_i unversioned
      split
      · exact .refl file
      · split
        · exact .refl file
        · exact ⟨rfl, rfl, fun versioned => absurd versioned unversioned⟩

end DatabaseFile

namespace Store

variable {location : Location} {readOnly : Bool} {file : DatabaseFile}

theorem connect_upgraded {store : Store} (connects : connect location readOnly file = .ok store) :
    file.Upgraded store.file := by
  have upgraded := DatabaseFile.migrate_upgraded readOnly file
  unfold connect at connects
  split at connects
  · rename_i later migrated
    rw [migrated] at upgraded
    cases connects
    exact upgraded
  · cases connects

theorem connect_current (current : file.version = Schema.currentVersion) :
    connect location readOnly file = .ok ⟨.ofLocation location readOnly, file⟩ := by
  simp only [connect, DatabaseFile.migrate, current, if_true]

theorem connect_too_new (other : file.version ≠ Schema.currentVersion)
    (versioned : file.version ≠ 0) :
    connect location readOnly file = .error (.schema .tooNew) := by
  simp only [connect, DatabaseFile.migrate, if_neg other, if_pos versioned]

end Store

namespace Host

theorem known_put {host : Host} {other : Int} (known : host.databases.contains other = true)
    (number : Int) (file : DatabaseFile) :
    (host.putDatabase number file).databases.contains other = true := by
  rw [putDatabase, Table.contains_insert, known, Bool.or_true]

/-- No row of a database has changed; at most its schema has been brought up to date. -/
def SameRows (before after : Host) : Prop :=
  ∀ number, before.databases.contains number = true →
    after.databases.contains number = true ∧
      (before.database number).Upgraded (after.database number)

namespace SameRows

theorem of_databases {before after : Host} (same : after.databases = before.databases) :
    SameRows before after := by
  intro number known
  rw [same, database_eq same]
  exact ⟨known, .refl _⟩

theorem trans {first second third : Host} (early : SameRows first second)
    (late : SameRows second third) : SameRows first third := by
  intro number known
  obtain ⟨still, upgraded⟩ := early number known
  obtain ⟨lasts, further⟩ := late number still
  exact ⟨lasts, upgraded.trans further⟩

theorem put (host : Host) {number : Int} {file : DatabaseFile}
    (upgraded : host.databases.contains number = true →
      (host.database number).Upgraded file) : SameRows host (host.putDatabase number file) := by
  intro other known
  refine ⟨known_put known number file, ?_⟩
  by_cases same : other = number
  · subst same
    rw [database_put_self]
    exact upgraded known
  · rw [database_put_of_ne host file same]
    exact .refl _

theorem put_new (host : Host) {number : Int} (unused : host.databases.contains number = false)
    (file : DatabaseFile) : SameRows host (host.putDatabase number file) :=
  put host fun known => absurd (unused.symm.trans known) Bool.false_ne_true

end SameRows

theorem connect_same_rows (location : Location) (time : TimeSource) (readOnly : Bool)
    (number : Int) (host : Host) :
    SameRows host (connect location time readOnly number host).2 := by
  unfold connect
  dsimp only
  split
  · exact .of_databases rfl
  · rename_i connects
    exact .put host fun _ => Store.connect_upgraded connects

theorem connect_memory_same_rows {host : Host}
    (unused : host.databases.contains host.freshNumber = false) (location : Location)
    (time : TimeSource) (readOnly : Bool) (contents : DatabaseFile) :
    SameRows host (connectMemory location time readOnly contents host).2 :=
  (SameRows.put_new host unused contents).trans (connect_same_rows _ _ _ _ _)

theorem put_in_file_databases (place : Files.Place) (number : Int) (database : DatabaseFile)
    (host : Host) : (host.putInFile place number database).databases =
      (host.putDatabase number database).databases := by
  unfold putInFile
  dsimp only
  split <;> rfl

theorem database_unused {host : Host} {number : Int}
    (unused : host.databases.contains number = false) : host.database number = .fresh := by
  have none : host.databases.get? number = none := by
    simpa only [Table.contains, Option.isSome_eq_false_iff, Option.isNone_iff_eq_none] using unused
  unfold database
  rw [none]
  rfl

theorem start_log_databases (place : Files.Place) (found : Option Int) (readOnly lockless : Bool)
    (host : Host) :
    (startLog place found readOnly lockless host).2.databases = host.databases ∨
      (startLog place found readOnly lockless host).2.databases =
        (host.putDatabase (found.getD host.freshNumber)
          (if found.isSome then host.database (found.getD host.freshNumber) else .fresh)).databases := by
  have journaled := (journal_change_besides place host).only.databases
  unfold startLog
  dsimp only
  split
  · split
    · exact .inr rfl
    · exact .inr (put_in_file_databases _ _ _ _)
  · split
    · exact .inl rfl
    · split
      · exact .inl rfl
      · split
        · rename_i ran
          rw [ran] at journaled
          exact .inl journaled
        · rename_i later ran
          rw [ran] at journaled
          right
          dsimp only at journaled ⊢
          rw [put_in_file_databases, putDatabase, putDatabase, journaled]

theorem start_log_database {host : Host}
    (unused : host.databases.contains host.freshNumber = false) (place : Files.Place)
    (found : Option Int) (readOnly lockless : Bool) (other : Int) :
    (startLog place found readOnly lockless host).2.database other = host.database other := by
  rcases start_log_databases place found readOnly lockless host with same | put
  · exact database_eq same other
  · rw [database_eq put]
    by_cases its : other = found.getD host.freshNumber
    · subst its
      rw [database_put_self]
      cases found with
      | none => exact (database_unused unused).symm
      | some number => rfl
    · exact database_put_of_ne host _ its

theorem start_log_same_rows {host : Host}
    (unused : host.databases.contains host.freshNumber = false) (place : Files.Place)
    (found : Option Int) (readOnly lockless : Bool) :
    SameRows host (startLog place found readOnly lockless host).2 := by
  rcases start_log_databases place found readOnly lockless host with same | put
  · exact .of_databases same
  · refine SameRows.trans (.put host fun known => ?_) (.of_databases put)
    cases found with
    | none => exact absurd (unused.symm.trans known) Bool.false_ne_true
    | some number => exact .refl _

theorem connect_file_same_rows {host : Host}
    (unused : host.databases.contains host.freshNumber = false) (location : Location)
    (time : TimeSource) (place : Files.Place) (readOnly lockless : Bool) :
    SameRows host (connectFile location time place readOnly lockless host).2 := by
  unfold connectFile
  refine Attempt.after_bind (fun error later ran => ?_) fun found later ran => ?_
  · exact .of_databases ((reach_besides place readOnly lockless).map_error _ |>.of_run ran).only.databases
  · have reached := ((reach_besides place readOnly lockless).map_error _ |>.of_run ran).only.databases
    have stillUnused : later.databases.contains later.freshNumber = false := by
      unfold freshNumber
      rw [reached]
      exact unused
    have started := (SameRows.of_databases reached).trans
      (start_log_same_rows stillUnused place found readOnly lockless)
    refine Attempt.after_bind (fun error last ran => ?_) fun number last ran => ?_
    all_goals
      have stands : (startLog place found readOnly lockless later).2 = last :=
        congrArg Prod.snd ran
      rw [stands] at started
    · exact started
    · split
      · exact started.trans (connect_same_rows _ _ _ _ _)
      · refine Attempt.after_bind (fun error final ran => ?_) fun _ final ran => ?_
        all_goals
          have logged := ((open_log_besides place).map_error _ |>.of_run ran).only.databases
          have opened := started.trans (.of_databases logged)
        · exact opened
        · have connected := opened.trans (connect_same_rows location time readOnly number final)
          cases connects : connect location time readOnly number final with
          | mk answer after =>
              rw [connects] at connected
              cases answer with
              | ok result => simpa only [connects] using connected
              | error error =>
                  simpa only [connects] using
                    connected.trans (.of_databases (databases_retire place number readOnly after))

theorem connect_to_same_rows {host : Host}
    (unused : host.databases.contains host.freshNumber = false) (location : Location)
    (time : TimeSource) (contact : Contact) :
    SameRows host (connectTo location time contact host).2 := by
  unfold connectTo
  cases contact.target with
  | memory sharedAs =>
      refine Attempt.after_bind (fun _ later ran => ?_) fun shared later ran => ?_
      · cases ran
      · obtain rfl : host = later := congrArg Prod.snd ran
        cases shared with
        | none =>
            have connected := connect_memory_same_rows unused location time contact.readOnly .fresh
            refine Attempt.after_bind (fun _ _ ran => ?_) fun _ _ ran => ?_
            all_goals
              rw [ran] at connected
              exact connected
        | some number =>
            have connected := connect_same_rows location time contact.readOnly number host
            refine Attempt.after_bind (fun _ _ ran => ?_) fun _ _ ran => ?_
            all_goals
              rw [ran] at connected
              exact connected
  | file place lockless => exact connect_file_same_rows unused _ _ _ _ _
  | frozen place =>
      refine Attempt.after_bind (fun _ later ran => ?_) fun contents later ran => ?_
      · obtain rfl : host = later := congrArg Prod.snd ran
        exact .of_databases rfl
      · obtain rfl : host = later := congrArg Prod.snd ran
        exact connect_memory_same_rows unused _ _ _ _

/-- Opening a store changes no row of a database that exists, whatever comes of the opening. -/
theorem open_with_same_rows {host : Host}
    (unused : host.databases.contains host.freshNumber = false) (settings : Settings)
    (time : TimeSource) (sharing : Bool) :
    SameRows host (openWith settings time sharing host).2 := by
  unfold openWith
  split
  · exact connect_memory_same_rows unused _ _ _ _
  · split
    · exact .of_databases rfl
    · rename_i path _ _ files _
      have contacted := (contact_files_only path { host with files := files }).databases
      split
      · rename_i ran
        rw [ran] at contacted
        exact .of_databases contacted
      · rename_i contact later ran
        rw [ran] at contacted
        have stillUnused : later.databases.contains later.freshNumber = false := by
          unfold freshNumber
          rw [contacted]
          exact unused
        split
        · exact .of_databases contacted
        · exact (SameRows.of_databases contacted).trans
            (connect_to_same_rows stillUnused settings.location time _)

end Host

end UnitState
