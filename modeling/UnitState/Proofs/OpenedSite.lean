import UnitState.Proofs.Coherence
import UnitState.Proofs.FileSite

/-!
# What an opening that succeeds leaves

A store that has been opened on a file has made a site of it: whatever stood beside the file is
settled, the log is started, and the schema of the database is up to date. This is read off the
opening stage by stage, each of which has to have succeeded.
-/

set_option autoImplicit false

namespace UnitState

namespace Files

/-- What preparing a file does: it is written with what it held, or created empty. -/
structure Prepared (files : Files) (path : String) (later : Files) (target : Place)
    (content : Content) : Prop where
  located : files.locateForWriting path = .ok target
  refills : files.Refills target content
  written : later = files.put target (.file ownerOnly content)

theorem prepare_inv {files later : Files} {path : String}
    (prepares : files.prepare path = .ok later) :
    ∃ target content, files.Prepared path later target content := by
  unfold prepare at prepares
  cases located : files.locateForWriting path with
  | error fault =>
      rw [located] at prepares
      cases prepares
  | ok target =>
      rw [located] at prepares
      simp only [bind, Except.bind] at prepares
      split at prepares
      · cases prepares
      · rename_i former content found
        cases prepares
        exact ⟨target, content, located, .inl ⟨former, found⟩, rfl⟩
      · rename_i found
        cases prepares
        exact ⟨target, .bytes [], located, .inr ⟨found, rfl⟩, rfl⟩

namespace Prepared

variable {files later : Files} {path : String} {target place : Place} {content : Content}

theorem directories (prepared : files.Prepared path later target content) :
    files.SameDirectories later := by
  rw [prepared.written]
  exact .put files prepared.refills.free ownerOnly content

theorem database_before (prepared : files.Prepared path later target content) {mode : Nat}
    {number : Int} (holds : later.node? place = some (.file mode (.database number))) :
    ∃ former, files.node? place = some (.file former (.database number)) := by
  rw [prepared.written] at holds
  by_cases same : key place = key target
  · rw [node_put_of_key files target _ same] at holds
    have found : files.node? place = files.node? target := congrArg files.nodes.get? same
    rcases prepared.refills with ⟨former, stands⟩ | ⟨_, empty⟩
    · cases holds
      exact ⟨former, found.trans stands⟩
    · rw [empty] at holds
      cases holds
  · rw [node_put_of_ne files target _ same] at holds
    exact ⟨mode, holds⟩

end Prepared

theorem nonempty_of_engine_locate {files : Files} {path : String} {place : Place}
    (located : files.engineLocate? path = some place) : place ≠ [] := by
  rintro rfl
  unfold engineLocate? at located
  obtain ⟨found, _, rest⟩ := Option.bind_eq_some_iff.1 located
  dsimp only at rest
  split at rest
  · cases rest
  · rename_i allowed
    cases rest
    simp at allowed

theorem root_of_walk {files : Files} {place reached : Place} (somewhere : place ≠ [])
    (walked : files.walk [] place = .ok reached) :
    ∃ mode, files.node? [] = some (.directory mode) := by
  cases place with
  | nil => exact absurd rfl somewhere
  | cons name later =>
      obtain ⟨mode, _, found, _⟩ := walk_cons_ok_iff.1 walked
      exact ⟨mode, found⟩

end Files

namespace Host

variable {host later : Host} {path : String} {address : Address} {place : Files.Place}

/-- What a contact with a file finds, or has created. -/
structure Contacted (host : Host) (address : Address) (contact : Contact) (later : Host)
    (place : Files.Place) : Prop where
  target : contact = ⟨.file place false, decide (address.access = .read)⟩
  located : host.files.engineLocate? address.name = some place
  walked : ∃ reached, host.files.walk [] place = .ok reached
  stands : later = host ∧ (∃ mode content, host.files.node? place = some (.file mode content)) ∨
    host.files.node? place = none ∧
      later = { host with files := host.files.put place (.file Files.ordinary (.bytes [])) }

theorem contact_inv {contact : Contact} (means : Address.ofPath path = .ok address)
    (file : address.MeansFile) (contacts : Host.contact path host = (.ok contact, later)) :
    ∃ place, host.Contacted address contact later place := by
  have meant : (Attempt.ofExcept (Address.ofPath path)).mapError EngineFault.address host =
      (.ok address, host) := by
    rw [means]
    rfl
  have named : address.name.isEmpty = false := by simp [file.named]
  unfold Host.contact at contacts
  rw [Attempt.bind_ok meant] at contacts
  simp only [file.stored, named, Bool.or_self, Bool.false_eq_true, if_false] at contacts
  unfold contactFile at contacts
  split at contacts
  · cases contacts
  · rename_i place located
    simp only [file.changing, file.logging, Bool.false_eq_true, if_false] at contacts
    split at contacts
    · rename_i reached mode content walked found
      cases contacts
      exact ⟨place, rfl, located, ⟨reached, walked⟩, .inl ⟨rfl, mode, content, found⟩⟩
    · rename_i reached walked found
      split at contacts
      · cases contacts
        exact ⟨place, rfl, located, ⟨reached, walked⟩, .inr ⟨found, rfl⟩⟩
      · cases contacts
    · cases contacts

namespace Contacted

variable {contact : Contact}

theorem only (contacted : host.Contacted address contact later place) : FilesOnly host later := by
  rcases contacted.stands with ⟨rfl, _⟩ | ⟨_, rfl⟩
  · exact .refl _
  · exact ⟨_, rfl⟩

theorem directories (contacted : host.Contacted address contact later place) :
    host.files.SameDirectories later.files := by
  rcases contacted.stands with ⟨rfl, _⟩ | ⟨missing, rfl⟩
  · exact .refl _
  · refine .put host.files (fun mode found => ?_) _ _
    rw [missing] at found
    cases found

theorem file (contacted : host.Contacted address contact later place) :
    ∃ mode content, later.files.node? place = some (.file mode content) := by
  rcases contacted.stands with ⟨rfl, found⟩ | ⟨_, rfl⟩
  · exact found
  · exact ⟨_, _, Files.node_put_self host.files place _⟩

theorem database_before (contacted : host.Contacted address contact later place) {mode : Nat}
    {number : Int} (holds : later.files.node? place = some (.file mode (.database number))) :
    host.files.node? place = some (.file mode (.database number)) := by
  rcases contacted.stands with ⟨rfl, _⟩ | ⟨_, rfl⟩
  · exact holds
  · rw [Files.node_put_self] at holds
    cases holds

end Contacted

theorem settle_journal_inv {readOnly : Bool} {number : Int}
    (holding : host.holding place = .database number)
    (settles : settleJournal place readOnly host = (.ok (), later)) :
    Files.JournalQuiet (later.files.node? (Files.beside place journalSuffix)) := by
  have cleared : ∀ {mode content},
      host.files.node? (Files.beside place journalSuffix) = some (.file mode content) →
        discardBeside place journalSuffix host = (.ok (), later) →
          Files.JournalQuiet (later.files.node? (Files.beside place journalSuffix)) := by
    intro mode content found discards
    cases discards
    dsimp only
    rw [Files.node_discard_self host.files _ found]
    trivial
  unfold settleJournal at settles
  dsimp only at settles
  rw [holding] at settles
  cases found : host.files.node? (Files.beside place journalSuffix) with
  | none =>
      rw [found] at settles
      cases settles
      rw [found]
      trivial
  | some node =>
      rw [found] at settles
      cases node with
      | directory mode => cases settles
      | file mode content =>
          split at settles
          case h_2 same =>
            cases same
            cases settles
            rw [found]
            trivial
          case h_6 same _ =>
            cases same
            cases settles
            rw [found]
            trivial
          case h_8 =>
            split at settles
            · cases settles
            · split at settles
              · cases settles
              · exact cleared found settles
          case h_1 impossible => cases impossible
          case h_3 impossible => cases impossible
          case h_4 impossible => cases impossible
          case h_5 => cases settles
          case h_7 impossible => cases impossible

theorem settle_log_journal (place : Files.Place) (lockless : Bool) (host : Host) :
    (settleLog place lockless host).2.files.node? (Files.beside place journalSuffix) =
      host.files.node? (Files.beside place journalSuffix) := by
  have apart : Files.key (Files.beside place journalSuffix) ≠
      Files.key (Files.beside place logSuffix) := Files.key_beside_ne_beside place (by decide)
  have discarded := discard_elsewhere place logSuffix host apart
  unfold settleLog
  split
  case h_4 => exact discarded
  case h_6 =>
    split
    · rfl
    · split <;> first | rfl | exact discarded
  all_goals rfl

/-- A database that is found was in the file before, and its journal is quiet. -/
theorem reach_inv {readOnly lockless : Bool} {number : Int}
    (reaches : reach place readOnly lockless host = (.ok (some number), later)) :
    host.holding place = .database number ∧
      Files.JournalQuiet (later.files.node? (Files.beside place journalSuffix)) := by
  unfold reach at reaches
  obtain ⟨_, settled, settles, reaches⟩ := Attempt.of_bind_ok reaches
  obtain ⟨_, cleared, clears, reaches⟩ := Attempt.of_bind_ok reaches
  have beside := ((settle_journal_besides place readOnly).of_run settles).trans
    ((settle_log_besides place lockless).of_run clears)
  have journal := settle_log_journal place lockless settled
  rw [clears] at journal
  obtain ⟨holding, same, looks, reaches⟩ := Attempt.of_bind_ok reaches
  cases looks
  rw [beside.holding] at reaches
  cases found : host.holding place with
  | nothing =>
      rw [found] at reaches
      cases reaches
  | other =>
      rw [found] at reaches
      cases reaches
  | database stored =>
      rw [found] at reaches
      have quiet := settle_journal_inv found settles
      rw [← journal] at quiet
      obtain ⟨logged, same, looks, reaches⟩ := Attempt.of_bind_ok reaches
      cases looks
      cases kept : cleared.isLogged stored with
      | false =>
          rw [kept] at reaches
          cases reaches
          exact ⟨rfl, quiet⟩
      | true =>
          rw [kept] at reaches
          cases lockless with
          | true => cases reaches
          | false =>
              obtain ⟨_, opened, opens, reaches⟩ := Attempt.of_bind_ok reaches
              cases reaches
              have still := open_log_journal place cleared
              rw [opens] at still
              exact ⟨rfl, still ▸ quiet⟩

theorem holding_database {number : Int} (holding : host.holding place = .database number) :
    ∃ mode, host.files.node? place = some (.file mode (.database number)) := by
  unfold Host.holding at holding
  split at holding
  · rename_i mode stored found
    cases holding
    exact ⟨mode, found⟩
  · cases holding
  · cases holding

structure Started (host : Host) (place : Files.Place) (number : Int) (later : Host) : Prop where
  directories : host.files.SameDirectories later.files
  holds : ∃ mode, later.files.node? place = some (.file mode (.database number))
  journal : Files.JournalQuiet (later.files.node? (Files.beside place journalSuffix))
  logged : later.isLogged number = true

theorem start_log_inv {readOnly : Bool} {found : Option Int} {number : Int}
    (file : ∃ mode content, host.files.node? place = some (.file mode content))
    (reached : ∀ stored, found = some stored → host.holding place = .database stored ∧
      Files.JournalQuiet (host.files.node? (Files.beside place journalSuffix)))
    (starts : startLog place found readOnly false host = (.ok number, later)) :
    number = found.getD host.freshNumber ∧ Started host place number later := by
  unfold startLog at starts
  simp only [Bool.false_eq_true, if_false] at starts
  split at starts
  · rename_i logged
    cases starts
    cases found with
    | none => cases logged
    | some stored =>
        obtain ⟨holding, quiet⟩ := reached stored rfl
        exact ⟨rfl, .refl host.files, holding_database holding, quiet, logged⟩
  · split at starts
    · cases starts
    · split at starts
      · cases starts
      · rename_i between changes
        cases starts
        have beside := (journal_change_besides place).of_run changes
        obtain ⟨mode, content, stands⟩ := file
        rw [← beside.node] at stands
        have cleared := journal_change_clears changes
        have apart : Files.key (Files.beside place journalSuffix) ≠ Files.key place :=
          (Files.key_beside_ne place (by decide)).symm
        have put := files_put_in_file stands (found.getD host.freshNumber)
        refine ⟨rfl, ?_, ?_, ?_, ?_⟩
        · refine beside.directories.trans ?_
          dsimp only
          rw [put]
          refine .put between.files (fun other found => ?_) _ _
          rw [stands] at found
          cases found
        · dsimp only
          rw [put]
          exact ⟨mode, Files.node_put_self between.files place _⟩
        · dsimp only
          rw [put, Files.node_put_of_ne between.files place _ apart, cleared]
          trivial
        · simp [isLogged]

theorem connect_inv {location : Location} {time : TimeSource} {readOnly : Bool} {number : Int}
    {result : Opened} (connects : connect location time readOnly number host = (.ok result, later)) :
    result.1 = ⟨.ofLocation location readOnly, number, none, none, time⟩ ∧
      (later.database number).version = Schema.currentVersion ∧
        later.files = host.files ∧ later.kept = host.kept := by
  unfold connect at connects
  dsimp only at connects
  split at connects
  · cases connects
  · rename_i store connected
    cases connects
    obtain ⟨handle, _, _, current, _⟩ := Fleet.connect_ok connected
    refine ⟨by rw [handle], ?_, rfl, rfl⟩
    rw [database_put_self]
    exact current

theorem connect_database {location : Location} {time : TimeSource} {readOnly : Bool} {number : Int}
    {result : Opened} (connects : connect location time readOnly number host = (.ok result, later)) :
    (host.database number).Upgraded (later.database number) ∧
      ((later.database number).hasTables = true ∨
        later.database number = host.database number) ∧
      ∀ other, other ≠ number → later.database other = host.database other := by
  unfold connect at connects
  dsimp only at connects
  split at connects
  · cases connects
  · rename_i store connected
    cases connects
    obtain ⟨_, _, _, _, tables⟩ := Fleet.connect_ok connected
    rw [database_put_self]
    exact ⟨Store.connect_upgraded connected, tables, fun other different =>
      database_put_of_ne host store.file different⟩

/-- The stages of a connection with a file that has come about. -/
structure Stages (location : Location) (time : TimeSource) (place : Files.Place) (readOnly : Bool)
    (host : Host) (result : Opened) (later : Host) where
  found : Option Int
  number : Int
  reached : Host
  started : Host
  ready : Host
  connected : OpenStore
  reaches : reach place readOnly false host = (.ok found, reached)
  starts : startLog place found readOnly false reached = (.ok number, started)
  opens : openLog place started = (.ok (), ready)
  connects : connect location time readOnly number ready = (.ok (connected, result.2), later)
  result_eq : result.1 = { connected with logged := some place }

theorem map_error_ok {State Error Fault Result : Type} {wrap : Error → Fault}
    {attempt : Attempt State Error Result} {state later : State} {result : Result}
    (success : attempt.mapError wrap state = (.ok result, later)) :
    attempt state = (.ok result, later) := by
  cases ran : attempt state with
  | mk answer last =>
      simp only [Attempt.mapError, ran] at success
      cases answer with
      | error error => cases success
      | ok _ =>
          cases success
          rfl

theorem connect_file_inv {location : Location} {time : TimeSource} {readOnly : Bool}
    {result : Opened} (success : connectFile location time place readOnly false host =
      (.ok result, later)) : Nonempty (Stages location time place readOnly host result later) := by
  unfold connectFile at success
  obtain ⟨found, reached, reaches, success⟩ := Attempt.of_bind_ok success
  obtain ⟨number, started, starts, success⟩ := Attempt.of_bind_ok success
  obtain ⟨_, ready, opens, success⟩ := Attempt.of_bind_ok success
  cases connects : connect location time readOnly number ready with
  | mk answer last =>
      simp only [connects] at success
      cases answer with
      | error error => cases success
      | ok connected =>
          cases success
          exact ⟨⟨found, number, reached, started, ready, connected.1, map_error_ok reaches,
            map_error_ok starts, map_error_ok opens, connects, rfl⟩⟩

namespace Stages

variable {location : Location} {time : TimeSource} {readOnly : Bool} {result : Opened}

theorem opened_eq (stages : Stages location time place readOnly host result later) :
    result.1 = ⟨.ofLocation location readOnly, stages.number, some place, none, time⟩ := by
  have connected : stages.connected =
      ⟨.ofLocation location readOnly, stages.number, none, none, time⟩ :=
    (connect_inv stages.connects).1
  rw [stages.result_eq, connected]

theorem log_started (stages : Stages location time place readOnly host result later)
    (file : ∃ mode content, host.files.node? place = some (.file mode content)) :
    stages.number = stages.found.getD stages.reached.freshNumber ∧
      Started stages.reached place stages.number stages.started := by
  have reached := (reach_besides place readOnly false).of_run stages.reaches
  refine start_log_inv (reached.node ▸ file) (fun stored found => ?_) stages.starts
  obtain ⟨holding, quiet⟩ := reach_inv (found ▸ stages.reaches)
  exact ⟨reached.holding.trans holding, quiet⟩

theorem origin (stages : Stages location time place readOnly host result later)
    (file : ∃ mode content, host.files.node? place = some (.file mode content)) :
    stages.number = host.freshNumber ∨
      ∃ mode, host.files.node? place = some (.file mode (.database stages.number)) := by
  have reached := (reach_besides place readOnly false).of_run stages.reaches
  have numbered := (stages.log_started file).1
  cases found : stages.found with
  | none =>
      left
      rw [numbered, found]
      unfold freshNumber
      rw [reached.only.databases]
      rfl
  | some stored =>
      right
      rw [numbered, found]
      exact holding_database (reach_inv (found ▸ stages.reaches)).1

/-- A connection that has come about leaves a site, of a path that led to the file before. -/
theorem site (stages : Stages location time place readOnly host result later)
    (file : ∃ mode content, host.files.node? place = some (.file mode content))
    {target : Files.Place} (prepared : host.files.locateForWriting path = .ok target)
    (free : ∀ mode, host.files.node? target ≠ some (.directory mode))
    (located : host.files.engineLocate? address.name = some place)
    (steady : host.files.Steady (Files.start address.name) (Path.names address.name))
    (walked : ∃ reached, host.files.walk [] place = .ok reached) :
    later.files.Site path address place stages.number ∧ later.isLogged stages.number = true := by
  have reached := (reach_besides place readOnly false).of_run stages.reaches
  have started := (stages.log_started file).2
  have opened := (open_log_besides place).of_run stages.opens
  have journal := open_log_journal place stages.started
  rw [stages.opens] at journal
  obtain ⟨_, between, logs, indexes⟩ := Attempt.of_bind_ok stages.opens
  obtain ⟨logMode, log, logStands⟩ := ensure_stands logs
  obtain ⟨indexMode, index, indexStands⟩ := ensure_stands indexes
  have apart : Files.key (Files.beside place logSuffix) ≠
      Files.key (Files.beside place indexSuffix) := Files.key_beside_ne_beside place (by decide)
  have logStill := ensure_elsewhere place indexSuffix indexHead between apart
  rw [indexes] at logStill
  have same : host.files.SameDirectories stages.ready.files :=
    (reached.directories.trans started.directories).trans opened.directories
  have ready : stages.ready.files.Site path address place stages.number := by
    obtain ⟨walkedTo, walked⟩ := walked
    constructor
    · exact ⟨target, same.locate_for_writing_ok prepared, same.free free⟩
    · exact (same.engine_locate steady).trans located
    · exact same.steady steady
    · exact ⟨walkedTo, same.walk_ok walked⟩
    · rw [opened.node]
      exact started.holds
    · rw [journal]
      exact started.journal
    · rw [logStill, logStands]
      exact fun _ => nofun
    · rw [indexStands]
      exact fun _ => nofun
  have logged : stages.ready.isLogged stages.number = true := by
    rw [← started.logged]
    unfold isLogged
    rw [opened.only.kept]
  obtain ⟨_, _, files, kept⟩ := connect_inv stages.connects
  constructor
  · rw [files]
    exact ready
  · unfold isLogged
    rw [kept]
    exact logged

end Stages

structure OpenedSite (host : Host) (path : String) (address : Address) (place : Files.Place)
    (time : TimeSource) (opened : OpenStore) (later : Host) (number : Int) : Prop where
  site : later.files.Site path address place number
  logged : later.isLogged number = true
  current : (later.database number).version = Schema.currentVersion
  opened_eq : opened =
    ⟨.ofLocation (.file path) (decide (address.access = .read)), number, some place, none, time⟩
  /-- The database is a new one, or it was in the file before. -/
  origin : number = host.freshNumber ∨
    ∃ mode, host.files.node? place = some (.file mode (.database number))

/-- Whether nothing that an opening creates can change where an address leads. A path that is no
more than the name of a file has a way that the program has to go first. -/
def Lasting (files : Files) (path : String) (address : Address) : Prop :=
  address.name = path ∨ files.Steady (Files.start address.name) (Path.names address.name)

/-- The way of an opening that has come about: the file is prepared, the engine is put in contact
with it, and a connection is made. -/
structure Way (host : Host) (path : String) (address : Address) (place : Files.Place)
    (time : TimeSource) (result : Opened) (later : Host) where
  files : Files
  target : Files.Place
  content : Content
  contact : Contact
  between : Host
  prepared : host.files.Prepared path files target content
  contacted : Contacted { host with files := files } address contact between place
  stages : Stages (.file path) time place (decide (address.access = .read)) between result later

theorem open_with_inv {busy : Nat} {time : TimeSource} {sharing : Bool} {result : Opened}
    (means : Address.ofPath path = .ok address) (file : address.MeansFile)
    (opens : openWith ⟨.file path, busy⟩ time sharing host = (.returned result, later)) :
    busy ≤ greatestBusyMilliseconds ∧
      ∃ place, Nonempty (Way host path address place time result later) := by
  unfold openWith at opens
  simp only at opens
  split at opens
  · cases opens
  rename_i files prepares
  obtain ⟨target, content, prepared⟩ := Files.prepare_inv prepares
  split at opens
  · cases opens
  rename_i contact between contacts
  split at opens
  · cases opens
  rename_i waits
  obtain ⟨place, contacted⟩ := contact_inv means file contacts
  have alone : (if sharing then contact else contact.alone) = contact := by
    rw [contacted.target]
    cases sharing <;> rfl
  rw [alone, contacted.target] at opens
  refine ⟨Nat.le_of_not_lt waits, place, ?_⟩
  cases connects : connectTo (.file path) time ⟨.file place false, decide (address.access = .read)⟩
    between with
  | mk answer last =>
      rw [connects] at opens
      cases answer with
      | error error => cases opens
      | ok opened =>
          cases opens
          obtain ⟨stages⟩ := connect_file_inv connects
          exact ⟨⟨files, target, content, contact, between, prepared, contacted, stages⟩⟩

namespace Way

variable {reached : Files.Place} {time : TimeSource} {result : Opened}
  (way : Way host path address reached time result later)

include way

theorem steady (lasting : Lasting host.files path address) :
    way.files.Steady (Files.start address.name) (Path.names address.name) := by
  rcases lasting with plain | steady
  · obtain ⟨_, walked⟩ := way.contacted.walked
    have somewhere := Files.nonempty_of_engine_locate way.contacted.located
    obtain ⟨_, root⟩ := Files.root_of_walk somewhere walked
    rw [plain]
    exact Files.steady_of_located root
      (way.prepared.directories.locate_for_writing_ok way.prepared.located)
  · exact way.prepared.directories.steady steady

theorem located (lasting : Lasting host.files path address) :
    host.files.engineLocate? address.name = some reached := by
  have led : way.files.engineLocate? address.name = some reached := way.contacted.located
  rw [way.prepared.directories.symm.engine_locate (way.steady lasting), led]

theorem place_eq (lasting : Lasting host.files path address)
    (found : host.files.engineLocate? address.name = some place) : reached = place :=
  Option.some.inj ((way.located lasting).symm.trans found)

theorem ready_database (unused : host.databases.contains host.freshNumber = false) (other : Int) :
    way.stages.ready.database other = host.database other := by
  have contacted := way.contacted.only.databases
  have begun := ((reach_besides _ _ _).of_run way.stages.reaches).only.databases.trans contacted
  have stillUnused :
      way.stages.reached.databases.contains way.stages.reached.freshNumber = false := by
    unfold freshNumber
    rw [begun]
    exact unused
  have started : way.stages.started.database other = way.stages.reached.database other := by
    rw [← start_log_database stillUnused reached way.stages.found
      (decide (address.access = .read)) false other, way.stages.starts]
  have opened := ((open_log_besides _).of_run way.stages.opens).only.databases
  exact (database_eq opened other).trans (started.trans (database_eq begun other))

theorem opened_site (lasting : Lasting host.files path address) :
    OpenedSite host path address reached time result.1 later way.stages.number := by
  have steady := way.steady lasting
  have locates := way.prepared.directories.locate_for_writing_ok way.prepared.located
  have directories := way.prepared.directories.trans way.contacted.directories
  obtain ⟨_, walked⟩ := way.contacted.walked
  obtain ⟨site, logged⟩ := way.stages.site way.contacted.file
    (way.contacted.directories.locate_for_writing_ok locates)
    (directories.free way.prepared.refills.free)
    ((way.contacted.directories.engine_locate steady).trans way.contacted.located)
    (way.contacted.directories.steady steady)
    ⟨_, way.contacted.directories.walk_ok walked⟩
  refine ⟨site, logged, (connect_inv way.stages.connects).2.1, way.stages.opened_eq, ?_⟩
  rcases way.stages.origin way.contacted.file with new | ⟨mode, stands⟩
  · left
    rw [new]
    unfold freshNumber
    rw [way.contacted.only.databases]
  · right
    exact way.prepared.database_before (way.contacted.database_before stands)

end Way

theorem opened_site {busy : Nat} {time : TimeSource} {sharing : Bool} {result : Opened}
    (means : Address.ofPath path = .ok address) (file : address.MeansFile)
    (lasting : Lasting host.files path address)
    (located : host.files.engineLocate? address.name = some place)
    (opens : openWith ⟨.file path, busy⟩ time sharing host = (.returned result, later)) :
    ∃ number, OpenedSite host path address place time result.1 later number := by
  obtain ⟨_, reached, ⟨way⟩⟩ := open_with_inv means file opens
  obtain rfl := way.place_eq lasting located
  exact ⟨_, way.opened_site lasting⟩

end Host

end UnitState
