import UnitState.Host.Scope
import UnitState.Proofs.StandingDatabases

/-!
# What an opening leaves alone

Whether it succeeds or not, opening a store changes files and databases and nothing else: the
stores that are open, the shared one among them, the clock and the environment stay as they are.
Until its log is started, nothing changes but the files beside the one that is opened.
-/

set_option autoImplicit false

namespace UnitState

theorem Attempt.after_bind {State Error Result Other : Type} {property : State → Prop}
    {first : Attempt State Error Result} {next : Result → Attempt State Error Other} {state : State}
    (failed : ∀ error later, first state = (.error error, later) → property later)
    (succeeded : ∀ result later, first state = (.ok result, later) →
      property (next result later).2) :
    property ((first >>= next) state).2 := by
  cases ran : first state with
  | mk answer later =>
      cases answer with
      | error error =>
          rw [Attempt.bind_error ran]
          exact failed error later ran
      | ok result =>
          rw [Attempt.bind_ok ran]
          exact succeeded result later ran

/-- Whatever comes of an attempt, the state afterwards is related to the one before. -/
def Attempt.Leads {State Error Result : Type} (relation : State → State → Prop)
    (attempt : Attempt State Error Result) : Prop :=
  ∀ state, relation state (attempt state).2

namespace Attempt.Leads

variable {State Error Fault Result Other : Type} {relation : State → State → Prop}

theorem of_run {attempt : Attempt State Error Result} (leads : attempt.Leads relation)
    {before after : State} {answer : Except Error Result} (ran : attempt before = (answer, after)) :
    relation before after := by
  have led := leads before
  rw [ran] at led
  exact led

theorem bind {first : Attempt State Error Result} {next : Result → Attempt State Error Other}
    (transitive : ∀ {first second third}, relation first second → relation second third →
      relation first third)
    (heads : first.Leads relation) (tails : ∀ result, (next result).Leads relation) :
    (first >>= next).Leads relation := fun _ =>
  Attempt.after_bind (fun _ _ ran => heads.of_run ran) fun result _ ran =>
    transitive (heads.of_run ran) (tails result _)

theorem map_error {attempt : Attempt State Error Result} (leads : attempt.Leads relation)
    (wrap : Error → Fault) : (attempt.mapError wrap).Leads relation := leads

end Attempt.Leads

namespace Host

structure SameStores (before after : Host) : Prop where
  program : after.program = before.program
  environment : after.environment = before.environment
  clock : after.clock = before.clock
  stores : after.stores = before.stores
  inScope : after.inScope = before.inScope
  slot : after.slot = before.slot

namespace SameStores

theorem refl (host : Host) : SameStores host host := ⟨rfl, rfl, rfl, rfl, rfl, rfl⟩

theorem trans {first second third : Host} (early : SameStores first second)
    (late : SameStores second third) : SameStores first third where
  program := late.program.trans early.program
  environment := late.environment.trans early.environment
  clock := late.clock.trans early.clock
  stores := late.stores.trans early.stores
  inScope := late.inScope.trans early.inScope
  slot := late.slot.trans early.slot

theorem of_parts (host : Host) (files : Files) (databases kept : Table Int DatabaseFile) :
    SameStores host { host with files := files, databases := databases, kept := kept } :=
  ⟨rfl, rfl, rfl, rfl, rfl, rfl⟩

end SameStores

def FilesOnly (before after : Host) : Prop := ∃ files, after = { before with files := files }

namespace FilesOnly

variable {before after : Host}

theorem refl (host : Host) : FilesOnly host host := ⟨host.files, rfl⟩

theorem trans {first second third : Host} (early : FilesOnly first second)
    (late : FilesOnly second third) : FilesOnly first third := by
  obtain ⟨_, rfl⟩ := early
  obtain ⟨files, rfl⟩ := late
  exact ⟨files, rfl⟩

theorem databases (only : FilesOnly before after) : after.databases = before.databases := by
  obtain ⟨_, rfl⟩ := only
  rfl

theorem kept (only : FilesOnly before after) : after.kept = before.kept := by
  obtain ⟨_, rfl⟩ := only
  rfl

theorem stores (only : FilesOnly before after) : SameStores before after := by
  obtain ⟨_, rfl⟩ := only
  exact .of_parts before _ _ _

end FilesOnly

structure BesideOnly (place : Files.Place) (before after : Host) : Prop where
  only : FilesOnly before after
  directories : before.files.SameDirectories after.files
  stood : after.files.StoodBefore before.files
  node : after.files.node? place = before.files.node? place

namespace BesideOnly

variable {place : Files.Place}

theorem refl (host : Host) : BesideOnly place host host :=
  ⟨.refl host, .refl host.files, .refl host.files, rfl⟩

theorem trans {first second third : Host} (early : BesideOnly place first second)
    (late : BesideOnly place second third) : BesideOnly place first third :=
  ⟨early.only.trans late.only, early.directories.trans late.directories,
    late.stood.trans early.stood, late.node.trans early.node⟩

theorem of_files (host : Host) {files : Files} (directories : host.files.SameDirectories files)
    (stood : files.StoodBefore host.files)
    (node : files.node? place = host.files.node? place) :
    BesideOnly place host { host with files := files } := ⟨⟨files, rfl⟩, directories, stood, node⟩

theorem holding {before after : Host} (beside : BesideOnly place before after) :
    after.holding place = before.holding place := by
  unfold Host.holding
  rw [beside.node]

end BesideOnly

abbrev Besides {Error Result : Type} (place : Files.Place) (work : Attempt Host Error Result) :
    Prop := work.Leads (BesideOnly place)

namespace Besides

variable {Error Result Other : Type} {place : Files.Place}

theorem bind {first : Attempt Host Error Result} {next : Result → Attempt Host Error Other}
    (heads : Besides place first) (tails : ∀ result, Besides place (next result)) :
    Besides place (first >>= next) := Attempt.Leads.bind BesideOnly.trans heads tails

theorem pure (result : Result) :
    Besides place (pure result : Attempt Host Error Result) := BesideOnly.refl

theorem fail (error : Error) :
    Besides place (Attempt.fail error : Attempt Host Error Result) := BesideOnly.refl

theorem inspect (look : Host → Except Error Result) : Besides place (Attempt.inspect look) :=
  BesideOnly.refl

end Besides

section Besides

variable (place : Files.Place)

theorem discard_elsewhere (suffix : String) (host : Host) {other : Files.Place}
    (apart : Files.key other ≠ Files.key (Files.beside place suffix)) :
    (discardBeside place suffix host).2.files.node? other = host.files.node? other :=
  Files.node_discard_of_ne host.files _ apart

theorem ensure_elsewhere (suffix : String) (head : List UInt8) (host : Host) {other : Files.Place}
    (apart : Files.key other ≠ Files.key (Files.beside place suffix)) :
    (ensureBeside place suffix head host).2.files.node? other = host.files.node? other := by
  unfold ensureBeside
  dsimp only
  split
  · rfl
  · split
    · rfl
    · exact Files.node_put_of_ne host.files _ _ apart
  · rfl

theorem discard_besides {suffix : String} (longer : suffix ≠ "") :
    Besides place (discardBeside place suffix) := fun host =>
  .of_files host (.discard host.files _) (.discard host.files _)
    (discard_elsewhere place suffix host (Files.key_beside_ne place longer))

theorem ensure_besides {suffix : String} (longer : suffix ≠ "") (head : List UInt8) :
    Besides place (ensureBeside place suffix head) := by
  intro host
  have node := ensure_elsewhere place suffix head host (Files.key_beside_ne place longer)
  unfold ensureBeside at node ⊢
  dsimp only at node ⊢
  split at node
  · exact .refl host
  · rename_i missing _
    split at node
    · rename_i long
      rw [if_pos long]
      exact .refl host
    · rename_i fits
      rw [if_neg fits]
      refine .of_files host (.put host.files ?_ _ _) (.put_bytes host.files _ _ head) node
      intro mode stands
      rw [missing] at stands
      cases stands
  · exact .refl host

theorem open_log_besides : Besides place (openLog place) :=
  .bind (ensure_besides place (by decide) _) fun _ => ensure_besides place (by decide) _

theorem journal_change_besides : Besides place (journalChange place) :=
  .bind (ensure_besides place (by decide) _) fun _ => discard_besides place (by decide)

theorem settle_journal_besides (readOnly : Bool) :
    Besides place (settleJournal place readOnly) := by
  intro host
  have longer : journalSuffix ≠ "" := by decide
  have discarded := discard_besides place longer host
  unfold settleJournal
  dsimp only
  split
  case h_4 => split <;> first | exact .refl host | exact discarded
  case h_7 => split <;> first | exact .refl host | exact discarded
  case h_8 =>
    split
    · exact .refl host
    · split <;> first | exact .refl host | exact discarded
  all_goals exact .refl host

theorem settle_log_besides (lockless : Bool) : Besides place (settleLog place lockless) := by
  intro host
  have longer : logSuffix ≠ "" := by decide
  have discarded := discard_besides place longer host
  unfold settleLog
  split
  case h_4 => exact discarded
  case h_6 =>
    split
    · exact .refl host
    · split <;> first | exact .refl host | exact discarded
  all_goals exact .refl host

theorem reach_besides (readOnly lockless : Bool) :
    Besides place (reach place readOnly lockless) := by
  refine .bind (settle_journal_besides place _) fun _ =>
    .bind (settle_log_besides place _) fun _ => .bind (.inspect _) fun found => ?_
  cases found with
  | nothing => exact .pure _
  | other => exact .fail _
  | database number =>
      refine .bind (.inspect _) fun logged => ?_
      cases logged with
      | false => exact .pure _
      | true =>
          cases lockless with
          | true => exact .fail _
          | false => exact .bind (open_log_besides place) fun _ => .pure _

end Besides

abbrev Aside {Error Result : Type} (work : Attempt Host Error Result) : Prop :=
  work.Leads SameStores

namespace Aside

variable {Error Result Other : Type}

theorem bind {first : Attempt Host Error Result} {next : Result → Attempt Host Error Other}
    (heads : Aside first) (tails : ∀ result, Aside (next result)) : Aside (first >>= next) :=
  Attempt.Leads.bind SameStores.trans heads tails

theorem pure (result : Result) : Aside (pure result : Attempt Host Error Result) :=
  SameStores.refl

theorem inspect (look : Host → Except Error Result) : Aside (Attempt.inspect look) :=
  SameStores.refl

theorem of_besides {place : Files.Place} {work : Attempt Host Error Result}
    (besides : Besides place work) : Aside work := fun host => (besides host).only.stores

end Aside

theorem retire_aside (place : Files.Place) (number : Int) (readOnly : Bool) (host : Host) :
    SameStores host (host.retire place number readOnly) := by
  unfold retire
  split
  · split
    · exact .refl host
    · exact .of_parts host _ _ _
  · exact .refl host

theorem retire_store_aside (opened : OpenStore) (host : Host) :
    SameStores host (host.retireStore opened) := by
  unfold retireStore
  split
  · exact retire_aside _ _ _ host
  · exact .refl host

theorem put_in_file_aside (place : Files.Place) (number : Int) (database : DatabaseFile)
    (host : Host) : SameStores host (host.putInFile place number database) := by
  unfold putInFile
  dsimp only
  split <;> exact .of_parts host _ _ _

theorem start_log_aside (place : Files.Place) (found : Option Int) (readOnly lockless : Bool) :
    Aside (startLog place found readOnly lockless) := by
  intro host
  have journaled := (journal_change_besides place host).only.stores
  unfold startLog
  dsimp only
  split
  · split
    · exact .of_parts host _ _ _
    · exact put_in_file_aside _ _ _ host
  · split
    · exact .refl host
    · split
      · exact .refl host
      · split
        · rename_i ran
          rw [ran] at journaled
          exact journaled
        · rename_i later ran
          rw [ran] at journaled
          have placed := journaled.trans (put_in_file_aside place (found.getD host.freshNumber)
            (if found.isSome then host.database (found.getD host.freshNumber) else .fresh) later)
          exact placed.trans (.of_parts _ _ _ _)

theorem connect_aside (location : Location) (time : TimeSource) (readOnly : Bool)
    (number : Int) : Aside (connect location time readOnly number) := by
  intro host
  unfold connect
  dsimp only
  split
  · exact .refl host
  · exact .of_parts host _ _ _

theorem connect_memory_aside (location : Location) (time : TimeSource) (readOnly : Bool)
    (contents : DatabaseFile) : Aside (connectMemory location time readOnly contents) := fun host =>
  SameStores.trans (.of_parts host host.files
    (host.databases.insert host.freshNumber contents) host.kept)
    (connect_aside location time readOnly host.freshNumber _)

theorem connect_file_aside (location : Location) (time : TimeSource) (place : Files.Place)
    (readOnly lockless : Bool) : Aside (connectFile location time place readOnly lockless) := by
  refine .bind (.of_besides (reach_besides place readOnly lockless)) fun found =>
    .bind (start_log_aside place found readOnly lockless) fun number => ?_
  split
  · exact connect_aside _ _ _ _
  · refine .bind (.of_besides (open_log_besides place)) fun _ => ?_
    intro host
    have connected := connect_aside location time readOnly number host
    dsimp only
    split
    · rename_i ran
      rw [ran] at connected
      exact connected
    · rename_i ran
      rw [ran] at connected
      exact connected.trans (retire_aside _ _ _ _)

theorem connect_to_aside (location : Location) (time : TimeSource) (contact : Contact) :
    Aside (connectTo location time contact) := by
  unfold connectTo
  split
  · refine .bind (.inspect _) fun shared => ?_
    cases shared with
    | some number => exact .bind (connect_aside _ _ _ _) fun _ => .pure _
    | none => exact .bind (connect_memory_aside _ _ _ _) fun _ => .pure _
  · exact connect_file_aside _ _ _ _ _
  · exact .bind (.inspect _) fun contents => connect_memory_aside _ _ _ _

theorem contact_files_only (path : String) : (contact path).Leads FilesOnly := by
  refine Attempt.Leads.bind FilesOnly.trans (fun host => .refl host) fun address => ?_
  split
  · exact fun host => .refl host
  · intro host
    unfold contactFile
    split
    · exact .refl host
    · dsimp only
      split
      · exact .refl host
      · split
        · exact ⟨_, rfl⟩
        · exact .refl host
      · exact .refl host

theorem open_with_aside (settings : Settings) (time : TimeSource) (sharing : Bool)
    (host : Host) : SameStores host (openWith settings time sharing host).2 := by
  unfold openWith
  split
  · exact connect_memory_aside _ _ _ _ host
  · split
    · exact .refl host
    · rename_i path _ _ files _
      have prepared : SameStores host { host with files := files } :=
        .of_parts host files host.databases host.kept
      have contacted := prepared.trans (contact_files_only path { host with files := files }).stores
      split
      · rename_i ran
        rw [ran] at contacted
        exact contacted
      · rename_i ran
        rw [ran] at contacted
        split
        · exact contacted
        · exact contacted.trans (connect_to_aside _ _ _ _)

theorem open_from_aside (source : StoreSource) (host : Host) :
    SameStores host (openFrom source host).2 := by
  unfold openFrom
  split
  · exact .refl host
  · exact open_with_aside _ _ _ host

end Host

end UnitState
