import UnitState.Proofs.HarmlessOpening

/-!
# The site of a file

A site is a path together with the database in the file that the path leads to, and with what
stands beside that file. Files beside it that a connection is not refused for do not hinder the
next one either. On a site an opening comes down to connecting to the database in the file.
-/

set_option autoImplicit false

namespace UnitState

/-- An address at which the engine keeps a database in a file, together with its log. -/
structure Address.MeansFile (address : Address) : Prop where
  stored : address.isInMemory = false
  named : address.name ≠ ""
  changing : address.frozen = false
  logging : address.isLockless = false

theorem Address.plain_means_file {name : String} (named : name ≠ "")
    (stored : name ≠ memoryName) : (plain name).MeansFile where
  stored := by simp [isInMemory, plain, stored]
  named := named
  changing := rfl
  logging := rfl

theorem Address.of_path_plain {path : String}
    (unaddressed : ¬['f', 'i', 'l', 'e', ':'] <+: path.toList) :
    ofPath path = .ok (plain path) := by
  unfold ofPath
  split
  · rename_i tail shape
    exact absurd ⟨'/' :: '/' :: tail, shape.symm⟩ unaddressed
  · rename_i tail _ shape
    exact absurd ⟨tail, shape.symm⟩ unaddressed
  · rfl

namespace Files

/-- What may stand in the place of a journal while the database beside it is in order: nothing,
an empty file, or one that starts with a zero byte. -/
def JournalQuiet : Option Node → Prop
  | none | some (.file _ (.bytes [])) | some (.file _ (.bytes (0 :: _))) => True
  | _ => False

theorem JournalQuiet.with_mode {mode : Nat} {content : Content}
    (quiet : JournalQuiet (some (.file mode content))) (other : Nat) :
    JournalQuiet (some (.file other content)) := by
  unfold JournalQuiet at quiet ⊢
  split at quiet
  · rename_i impossible
    cases impossible
  · rename_i same
    cases same
    trivial
  · rename_i same
    cases same
    trivial
  · exact quiet.elim

theorem JournalQuiet.free {node : Option Node} (quiet : JournalQuiet node) (mode : Nat) :
    node ≠ some (.directory mode) := by
  rintro rfl
  exact quiet

def HasRoom (place : Place) (suffix : String) : Prop :=
  ((beside place suffix).getLast?.getD "").utf8ByteSize ≤ longestName

instance (place : Place) (suffix : String) : Decidable (HasRoom place suffix) :=
  inferInstanceAs (Decidable (_ ≤ _))

/-- Whether a file that is put somewhere with this content holds what stood there before, or is
created empty. -/
def Refills (files : Files) (spot : Place) (content : Content) : Prop :=
  (∃ mode, files.node? spot = some (.file mode content)) ∨
    files.node? spot = none ∧ content = .bytes []

theorem Refills.free {files : Files} {spot : Place} {content : Content}
    (refills : files.Refills spot content) (mode : Nat) :
    files.node? spot ≠ some (.directory mode) := by
  intro found
  rcases refills with ⟨former, stands⟩ | ⟨missing, _⟩
  · rw [stands] at found
    cases found
  · rw [missing] at found
    cases found

/-- A path leads, both for the program and for the engine, to where it can be opened, and for
the engine to a file with the database of this number. -/
structure Site (files : Files) (path : String) (address : Address) (place : Place) (number : Int) :
    Prop where
  prepared : ∃ target, files.locateForWriting path = .ok target ∧
    ∀ mode, files.node? target ≠ some (.directory mode)
  located : files.engineLocate? address.name = some place
  steady : files.Steady (start address.name) (Path.names address.name)
  walked : ∃ reached, files.walk [] place = .ok reached
  holds : ∃ mode, files.node? place = some (.file mode (.database number))
  journal : JournalQuiet (files.node? (beside place Host.journalSuffix))
  log : ∀ mode, files.node? (beside place Host.logSuffix) ≠ some (.directory mode)
  index : ∀ mode, files.node? (beside place Host.indexSuffix) ≠ some (.directory mode)

namespace Site

variable {files : Files} {path : String} {address : Address} {place : Place} {number : Int}

theorem changed (site : files.Site path address place number) {later : Files}
    (same : files.SameDirectories later)
    (holds : ∃ mode, later.node? place = some (.file mode (.database number)))
    (journal : JournalQuiet (later.node? (beside place Host.journalSuffix))) :
    later.Site path address place number where
  prepared := by
    obtain ⟨target, located, free⟩ := site.prepared
    exact ⟨target, same.locate_for_writing_ok located, same.free free⟩
  located := (same.engine_locate site.steady).trans site.located
  steady := same.steady site.steady
  walked := by
    obtain ⟨reached, walked⟩ := site.walked
    exact ⟨reached, same.walk_ok walked⟩
  holds := holds
  journal := journal
  log := same.free site.log
  index := same.free site.index

/-- A file that is written with what it holds, or is created empty, is nothing to a site. -/
theorem put (site : files.Site path address place number) {spot : Place} (mode : Nat)
    {content : Content} (refills : files.Refills spot content) :
    (files.put spot (.file mode content)).Site path address place number := by
  refine site.changed (.put files refills.free mode content) ?_ ?_
  · by_cases same : key place = key spot
    · obtain ⟨former, holds⟩ := site.holds
      have found : files.node? place = files.node? spot := congrArg files.nodes.get? same
      rw [found] at holds
      rw [node_put_of_key files spot _ same]
      rcases refills with ⟨other, stands⟩ | ⟨missing, _⟩
      · rw [stands] at holds
        cases holds
        exact ⟨mode, rfl⟩
      · rw [missing] at holds
        cases holds
    · rw [node_put_of_ne files spot _ same]
      exact site.holds
  · by_cases same : key (beside place Host.journalSuffix) = key spot
    · have quiet := site.journal
      have found : files.node? (beside place Host.journalSuffix) = files.node? spot :=
        congrArg files.nodes.get? same
      rw [found] at quiet
      rw [node_put_of_key files spot _ same]
      rcases refills with ⟨other, stands⟩ | ⟨_, rfl⟩
      · rw [stands] at quiet
        exact quiet.with_mode mode
      · trivial
    · rw [node_put_of_ne files spot _ same]
      exact site.journal

theorem prepare_ok (site : files.Site path address place number) :
    ∃ prepared, files.prepare path = .ok prepared ∧
      prepared.Site path address place number := by
  obtain ⟨target, located, free⟩ := site.prepared
  unfold prepare
  rw [located]
  cases found : files.node? target with
  | none =>
      refine ⟨files.put target (.file ownerOnly (.bytes [])), ?_, site.put ownerOnly (.inr ⟨found, rfl⟩)⟩
      simp only [bind, Except.bind, found]
  | some node =>
      cases node with
      | directory mode => exact absurd found (free mode)
      | file mode content =>
          refine ⟨files.put target (.file ownerOnly content), ?_,
            site.put ownerOnly (.inl ⟨mode, found⟩)⟩
          simp only [bind, Except.bind, found]

end Site

end Files

namespace Host

section Beside

variable {place : Files.Place} {suffix : String} {host : Host}

theorem ensure_ok (head : List UInt8)
    (stands : ∃ mode content, host.files.node? place = some (.file mode content))
    (free : ∀ mode, host.files.node? (Files.beside place suffix) ≠ some (.directory mode))
    (room : Files.HasRoom place suffix) :
    ∃ later, ensureBeside place suffix head host = (.ok (), later) := by
  obtain ⟨mode, content, stands⟩ := stands
  unfold ensureBeside
  dsimp only
  rw [stands]
  cases found : host.files.node? (Files.beside place suffix) with
  | none => exact ⟨_, if_neg (Nat.not_lt.2 room)⟩
  | some node =>
      cases node with
      | directory mode => exact absurd found (free mode)
      | file mode content => exact ⟨host, rfl⟩

theorem ensure_stands {head : List UInt8} {later : Host}
    (ensured : ensureBeside place suffix head host = (.ok (), later)) :
    ∃ mode content,
      later.files.node? (Files.beside place suffix) = some (.file mode content) := by
  unfold ensureBeside at ensured
  dsimp only at ensured
  split at ensured
  · rename_i mode content found
    cases ensured
    exact ⟨mode, content, found⟩
  · split at ensured
    · cases ensured
    · cases ensured
      exact ⟨_, _, Files.node_put_self host.files _ _⟩
  · cases ensured

theorem journal_change_ok
    (stands : ∃ mode content, host.files.node? place = some (.file mode content))
    (free : ∀ mode, host.files.node? (Files.beside place journalSuffix) ≠ some (.directory mode))
    (room : Files.HasRoom place journalSuffix) :
    ∃ later, journalChange place host = (.ok (), later) := by
  obtain ⟨later, ensured⟩ := ensure_ok [] stands free room
  exact ⟨_, Attempt.bind_ok ensured⟩

theorem journal_change_clears {later : Host} (changed : journalChange place host = (.ok (), later)) :
    later.files.node? (Files.beside place journalSuffix) = none := by
  obtain ⟨_, between, ensured, discarded⟩ := Attempt.of_bind_ok changed
  obtain ⟨mode, content, stands⟩ := ensure_stands ensured
  cases discarded
  exact Files.node_discard_self between.files _ stands

theorem open_log_journal (place : Files.Place) (host : Host) :
    (openLog place host).2.files.node? (Files.beside place journalSuffix) =
      host.files.node? (Files.beside place journalSuffix) := by
  have apart : ∀ {suffix : String}, journalSuffix ≠ suffix →
      Files.key (Files.beside place journalSuffix) ≠ Files.key (Files.beside place suffix) :=
    Files.key_beside_ne_beside place
  have keeps : (openLog place).Leads fun before after =>
      after.files.node? (Files.beside place journalSuffix) =
        before.files.node? (Files.beside place journalSuffix) :=
    .bind (fun early late => late.trans early)
      (fun before => ensure_elsewhere place logSuffix logHead before (apart (by decide)))
      fun _ before => ensure_elsewhere place indexSuffix indexHead before (apart (by decide))
  exact keeps host

theorem files_put_in_file {mode : Nat} {content : Content}
    (stands : host.files.node? place = some (.file mode content)) (number : Int)
    (database : DatabaseFile) :
    (host.putInFile place number database).files =
      host.files.put place (.file mode (.database number)) := by
  have same : (host.putDatabase number database).files.node? place =
      some (.file mode content) := stands
  unfold putInFile
  dsimp only
  rw [same]
  rfl

end Beside

section Site

variable {host : Host} {path : String} {address : Address} {place : Files.Place} {number : Int}
  (site : host.files.Site path address place number)

include site

theorem holding_on_site : host.holding place = .database number := by
  obtain ⟨mode, holds⟩ := site.holds
  simp only [holding, holds]

theorem site_of_beside {later : Host} (beside : BesideOnly place host later)
    (journal : Files.JournalQuiet (later.files.node? (Files.beside place journalSuffix))) :
    later.files.Site path address place number := by
  refine site.changed beside.directories ?_ journal
  rw [beside.node]
  exact site.holds

theorem contact_on_site (means : Address.ofPath path = .ok address) (file : address.MeansFile) :
    contact path host = (.ok ⟨.file place false, decide (address.access = .read)⟩, host) := by
  have meant : (Attempt.ofExcept (Address.ofPath path)).mapError EngineFault.address host =
      (.ok address, host) := by
    rw [means]
    rfl
  obtain ⟨reached, walked⟩ := site.walked
  obtain ⟨mode, holds⟩ := site.holds
  unfold contact
  rw [Attempt.bind_ok meant]
  have named : address.name.isEmpty = false := by simp [file.named]
  simp only [file.stored, named, Bool.or_self, Bool.false_eq_true, if_false, contactFile,
    site.located, walked, holds, file.changing, file.logging]

theorem settle_journal_on_site (readOnly : Bool) :
    settleJournal place readOnly host = (.ok (), host) := by
  have quiet := site.journal
  unfold settleJournal
  unfold Files.JournalQuiet at quiet
  dsimp only
  rw [holding_on_site site]
  split at quiet
  · rename_i found
    rw [found]
  · rename_i found
    rw [found]
  · rename_i found
    rw [found]
    rfl
  · exact quiet.elim

theorem settle_log_on_site : settleLog place false host = (.ok (), host) := by
  unfold settleLog
  rw [holding_on_site site]
  cases found : host.files.node? (Files.beside place logSuffix) with
  | none => rfl
  | some node =>
      cases node with
      | directory mode => exact absurd found (site.log mode)
      | file mode content =>
          cases content with
          | database other => rfl
          | bytes bytes => cases bytes <;> rfl

theorem open_log_on_site (logRoom : Files.HasRoom place logSuffix)
    (indexRoom : Files.HasRoom place indexSuffix) :
    ∃ later, openLog place host = (.ok (), later) ∧
      later.files.Site path address place number := by
  have stands : ∃ mode content, host.files.node? place = some (.file mode content) := by
    obtain ⟨mode, holds⟩ := site.holds
    exact ⟨mode, _, holds⟩
  obtain ⟨between, ensured⟩ := ensure_ok logHead stands site.log logRoom
  have first : BesideOnly place host between := (ensure_besides place (by decide) _).of_run ensured
  obtain ⟨later, completed⟩ := ensure_ok indexHead (first.node ▸ stands)
    (first.directories.free site.index) indexRoom
  have opened : openLog place host = (.ok (), later) := (Attempt.bind_ok ensured).trans completed
  have journal := open_log_journal place host
  rw [opened] at journal
  refine ⟨later, opened, site_of_beside site ((open_log_besides place).of_run opened) ?_⟩
  rw [journal]
  exact site.journal

theorem reach_on_site (readOnly : Bool) (logRoom : Files.HasRoom place logSuffix)
    (indexRoom : Files.HasRoom place indexSuffix) :
    ∃ later, reach place readOnly false host = (.ok (some number), later) ∧
      later.files.Site path address place number := by
  have settled : reach place readOnly false host =
      (do
        if ← Attempt.inspect fun host => .ok (host.isLogged number) then openLog place
        return some number : EngineWork (Option Int)) host := by
    unfold reach
    rw [Attempt.bind_ok (settle_journal_on_site site readOnly),
      Attempt.bind_ok (settle_log_on_site site), Attempt.inspect_bind]
    simp only [holding_on_site site]
    rfl
  rw [settled, Attempt.inspect_bind]
  cases logged : host.isLogged number with
  | false => exact ⟨host, rfl, site⟩
  | true =>
      obtain ⟨later, opened, still⟩ := open_log_on_site site logRoom indexRoom
      exact ⟨later, Attempt.bind_ok opened, still⟩

theorem put_in_file_on_site (database : DatabaseFile) :
    (host.putInFile place number database).files.Site path address place number := by
  obtain ⟨mode, holds⟩ := site.holds
  rw [files_put_in_file holds]
  exact site.put mode (.inl ⟨mode, holds⟩)

/-- A connection that ends takes the log and its index away, at most. -/
theorem retire_on_site (readOnly : Bool) :
    (host.retire place number readOnly).files.Site path address place number := by
  obtain ⟨mode, holds⟩ := site.holds
  simp only [retire, holds]
  split
  · exact site
  · have logApart : Files.key place ≠ Files.key (Files.beside place logSuffix) :=
      Files.key_beside_ne place (by decide)
    have indexApart : Files.key place ≠ Files.key (Files.beside place indexSuffix) :=
      Files.key_beside_ne place (by decide)
    refine site.changed ((Files.SameDirectories.discard _ _).trans (.discard _ _)) ?_ ?_
    · rw [Files.node_discard_of_ne _ _ indexApart, Files.node_discard_of_ne _ _ logApart]
      exact ⟨mode, holds⟩
    · rw [Files.node_discard_of_ne _ _ (Files.key_beside_ne_beside place (by decide)),
        Files.node_discard_of_ne _ _ (Files.key_beside_ne_beside place (by decide))]
      exact site.journal

end Site

theorem logged_retire {host : Host} {number : Int} (logged : host.isLogged number = true)
    (place : Files.Place) (retired : Int) (readOnly : Bool) :
    (host.retire place retired readOnly).isLogged number = true := by
  unfold retire
  split
  · split
    · exact logged
    · by_cases same : number = retired
      · simp [isLogged, same]
      · simpa only [isLogged, Table.get?_insert_of_ne _ _ same] using logged
  · exact logged

/-- A host in which the log of a site is started, and else nothing has changed. -/
structure Readied (path : String) (address : Address) (place : Files.Place) (number : Int)
    (before after : Host) : Prop where
  stores : SameStores before after
  site : after.files.Site path address place number
  databases : ∀ other, after.database other = before.database other
  logged : after.isLogged number = true

section Site

variable {host : Host} {path : String} {address : Address} {place : Files.Place} {number : Int}

theorem Readied.further {before : Host} (readied : Readied path address place number before host)
    {later : Host} (only : FilesOnly host later) (site : later.files.Site path address place number) :
    Readied path address place number before later where
  stores := readied.stores.trans only.stores
  site := site
  databases other := by
    rw [← readied.databases other]
    exact database_eq only.databases other
  logged := by
    rw [← readied.logged]
    unfold isLogged
    rw [only.kept]

variable (site : host.files.Site path address place number)

include site

theorem start_log_on_site (readOnly : Bool)
    (startable : host.isLogged number = true ∨
      readOnly = false ∧ Files.HasRoom place journalSuffix) :
    ∃ later, startLog place (some number) readOnly false host = (.ok number, later) ∧
      Readied path address place number host later := by
  cases logged : host.isLogged number with
  | true =>
      refine ⟨host, ?_, .refl host, site, fun _ => rfl, logged⟩
      simp only [startLog, Option.getD_some, Option.any_some, logged, Bool.false_eq_true, if_false,
        if_true]
  | false =>
      obtain ⟨rfl, room⟩ := startable.resolve_left (by simp [logged])
      obtain ⟨mode, holds⟩ := site.holds
      obtain ⟨later, changed⟩ := journal_change_ok ⟨mode, _, holds⟩ site.journal.free room
      have beside := (journal_change_besides place).of_run changed
      have still : later.files.Site path address place number := by
        refine site_of_beside site beside ?_
        rw [journal_change_clears changed]
        trivial
      refine ⟨{ later.putInFile place number (host.database number) with
        kept := later.kept.insert number (host.database number) }, ?_, ?_⟩
      · simp only [startLog, Option.getD_some, Option.any_some, Option.isSome_some, logged,
          Bool.false_eq_true, if_false, if_true, changed]
      · constructor
        · exact (beside.only.stores.trans (put_in_file_aside place number _ later)).trans
            (.of_parts _ _ _ _)
        · exact put_in_file_on_site still _
        · intro other
          refine (database_eq (put_in_file_databases place number _ later) other).trans ?_
          by_cases own : other = number
          · rw [own, database_put_self]
          · rw [database_put_of_ne later _ own]
            exact database_eq beside.only.databases other
        · simp [isLogged]

/-- Connecting to the file of a site comes down to connecting to its database. -/
theorem connect_file_on_site (location : Location) (time : TimeSource) {readOnly : Bool}
    (startable : host.isLogged number = true ∨
      readOnly = false ∧ Files.HasRoom place journalSuffix)
    (logRoom : Files.HasRoom place logSuffix) (indexRoom : Files.HasRoom place indexSuffix) :
    ∃ ready, Readied path address place number host ready ∧
      connectFile location time place readOnly false host =
        match connect location time readOnly number ready with
        | (.ok (opened, changed), later) =>
            (.ok ({ opened with logged := some place }, changed), later)
        | (.error error, later) => (.error error, later.retire place number readOnly) := by
  obtain ⟨reached, reaches, reachedSite⟩ := reach_on_site site readOnly logRoom indexRoom
  have reachedOnly := ((reach_besides place readOnly false).of_run reaches).only
  have reachedLogged : reached.isLogged number = host.isLogged number := by
    unfold isLogged
    rw [reachedOnly.kept]
  obtain ⟨started, starts, readied⟩ :=
    start_log_on_site reachedSite readOnly (reachedLogged ▸ startable)
  obtain ⟨ready, opens, readySite⟩ := open_log_on_site readied.site logRoom indexRoom
  have readyOnly := ((open_log_besides place).of_run opens).only
  have further := readied.further readyOnly readySite
  refine ⟨ready, ?_, ?_⟩
  · exact {
      further with
      stores := reachedOnly.stores.trans further.stores
      databases := fun other => by
        rw [further.databases other]
        exact database_eq reachedOnly.databases other }
  · have reachedRun : (reach place readOnly false).mapError StoreError.engine host =
        (.ok (some number), reached) := by
      simp only [Attempt.mapError, reaches, Except.mapError]
    have startedRun : (startLog place (some number) readOnly false).mapError StoreError.engine
        reached = (.ok number, started) := by
      simp only [Attempt.mapError, starts, Except.mapError]
    have openedRun : ((openLog place).mapError fun fault =>
        StoreError.schema (.failed .readVersion fault)) started = (.ok (), ready) := by
      simp only [Attempt.mapError, opens, Except.mapError]
    unfold connectFile
    rw [Attempt.bind_ok reachedRun, Attempt.bind_ok startedRun]
    exact Attempt.bind_ok openedRun

theorem open_on_site (means : Address.ofPath path = .ok address) (file : address.MeansFile)
    (time : TimeSource) (sharing : Bool) {busy : Nat} (waits : busy ≤ greatestBusyMilliseconds)
    (startable : host.isLogged number = true ∨
      address.access ≠ .read ∧ Files.HasRoom place journalSuffix)
    (logRoom : Files.HasRoom place logSuffix) (indexRoom : Files.HasRoom place indexSuffix) :
    ∃ ready, Readied path address place number host ready ∧
      openWith ⟨.file path, busy⟩ time sharing host =
        match connect (.file path) time (decide (address.access = .read)) number ready with
        | (.ok (opened, changed), later) =>
            (.returned ({ opened with logged := some place }, changed), later)
        | (.error error, later) =>
            (.failed error, later.retire place number (decide (address.access = .read))) := by
  obtain ⟨prepared, prepares, preparedSite⟩ := site.prepare_ok
  have preparedSite : ({ host with files := prepared } : Host).files.Site path address place
      number := preparedSite
  have contacts := contact_on_site preparedSite means file
  have alone : (if sharing then (⟨.file place false, decide (address.access = .read)⟩ : Contact)
      else Contact.alone ⟨.file place false, decide (address.access = .read)⟩) =
        ⟨.file place false, decide (address.access = .read)⟩ := by
    cases sharing <;> rfl
  have writes : host.isLogged number = true ∨
      decide (address.access = .read) = false ∧ Files.HasRoom place journalSuffix :=
    startable.imp_right fun writable => ⟨decide_eq_false writable.1, writable.2⟩
  obtain ⟨ready, readied, connects⟩ := connect_file_on_site preparedSite (.file path) time writes logRoom indexRoom
  refine ⟨ready, { readied with stores := (SameStores.of_parts host _ _ _).trans readied.stores }, ?_⟩
  unfold openWith
  simp only [prepares, contacts, if_neg (Nat.not_lt.2 waits), alone, connectTo, connects]
  cases connect (.file path) time (decide (address.access = .read)) number ready with
  | mk answer later => cases answer <;> rfl

end Site

end Host

end UnitState
