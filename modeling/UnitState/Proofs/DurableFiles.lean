import UnitState.Proofs.Visits

/-!
# Stores on files are durable

What the stores on a file commit is there for every store that is opened on the path of the file
later, as long as the engine takes the path for the name of a file with a log. Opening changes no
row of any database, and a database of a version to come is refused. A path that means a database
in memory to the engine is opened as one all the same, and nothing that is committed there lasts.
-/

set_option autoImplicit false

namespace UnitState.Host

/-- What is promised of a database in a file once a store has been opened on its path. -/
structure Durable (path : String) (address : Address) (number : Int) (first : Host) : Prop where
  /-- Only what its stores do changes the database. -/
  runs : ∀ {events last}, Visits path address number first events last →
    last.fleet number = (first.fleet number).run events
  /-- A store that is closed or lost leaves the committed contents as they are. -/
  ends : ∀ events name, ∀ ending ∈ [Fleet.Event.drop, .perform (.ask .close)],
    ((first.fleet number).run (events ++ [(name, ending)])).file.contents =
      ((first.fleet number).run events).file.contents
  /-- At any time another store can be opened on the path, and it finds what is committed. -/
  reopens : ∀ {events last}, Visits path address number first events last →
    ∀ {name source busy time}, last.settingsOf source = .ok (⟨.file path, busy⟩, time) →
      last.isInUse name = false → last.store? name = none → busy ≤ greatestBusyMilliseconds →
        ∃ later, Task.openUnder name source last = (.returned (.opened path), later) ∧
          later.fleet number = ((first.fleet number).run events).put name
            (some (.ofLocation (.file path) (decide (address.access = .read))))
            ((first.fleet number).run events).file

theorem file_contents_close (handle : Handle) (file : DatabaseFile) :
    (Store.close ⟨handle, file⟩).2.file.contents = file.contents := by
  rw [file_close]
  split <;> rfl

theorem end_contents (fleet : Fleet String) (name : String) {ending : Fleet.Event}
    (ends : ending ∈ [Fleet.Event.drop, .perform (.ask .close)]) :
    (fleet.step name ending).2.file.contents = fleet.file.contents := by
  have shape : ending = .drop ∨ ending = .perform (.ask .close) := by simpa using ends
  cases named : fleet.handles name with
  | none =>
      rcases shape with rfl | rfl
      · simp only [Fleet.step, named]
      · simp only [Fleet.step, named]
  | some handle =>
      have closed := file_contents_close handle fleet.file
      rcases shape with rfl | rfl
      · simp only [Fleet.step, named, Fleet.file_put]
        exact closed
      · simp only [Fleet.step, named, Fleet.file_put, Operation.action, Request.answer,
          Attempt.map_run]
        exact closed

/-- A host on which a file can be opened. -/
structure Orderly (host : Host) (place : Files.Place) : Prop where
  /-- The number that the next database gets is not in use. -/
  fresh : ∀ name opened, host.store? name = some opened → opened.database ≠ host.freshNumber
  /-- The stores that are open on the database in the file keep their logs beside it. -/
  logs : ∀ name opened mode, host.store? name = some opened →
    host.files.node? place = some (.file mode (.database opened.database)) →
      opened.logged = none ∨ opened.logged = some place
  logRoom : Files.HasRoom place logSuffix
  indexRoom : Files.HasRoom place indexSuffix

theorem durable_of_ready {path : String} {address : Address} {place : Files.Place} {number : Int}
    {first : Host} (means : Address.ofPath path = .ok address) (file : address.MeansFile)
    (logRoom : Files.HasRoom place logSuffix) (indexRoom : Files.HasRoom place indexSuffix)
    (ready : first.Ready path address place number) : Durable path address number first where
  runs visits := (visits.run means file logRoom indexRoom ready).2
  ends events name ending ends := by
    rw [Fleet.run_append, Fleet.run_cons, Fleet.run_nil]
    exact end_contents _ name ends
  reopens visits name source busy time asks free vacant waits := by
    obtain ⟨still, ran⟩ := visits.run means file logRoom indexRoom ready
    obtain ⟨later, opens, _, left⟩ :=
      still.opens means file logRoom indexRoom free vacant waits asks
    exact ⟨later, opens, ran ▸ left⟩

/-- A store that has been opened under a name that nobody else had makes a site ready. -/
theorem ready_of_opened {path : String} {address : Address} {place : Files.Place}
    {host first : Host} {name : String} {source : StoreSource} {busy : Nat} {time : TimeSource}
    {reply : TaskReply} (asks : host.settingsOf source = .ok (⟨.file path, busy⟩, time))
    (means : Address.ofPath path = .ok address) (file : address.MeansFile)
    (lasting : Lasting host.files path address)
    (located : host.files.engineLocate? address.name = some place) (orderly : host.Orderly place)
    (vacant : host.store? name = none)
    (opens : Task.openUnder name source host = (.returned reply, first)) :
    ∃ number, first.Ready path address place number ∧
      first.store? name =
        some ⟨.ofLocation (.file path) (decide (address.access = .read)), number, some place, none,
          time⟩ ∧
      (number = host.freshNumber ∨
        ∃ mode, host.files.node? place = some (.file mode (.database number))) := by
  cases free : host.isInUse name with
  | true =>
      simp only [Task.openUnder, free, if_true] at opens
      cases opens
  | false =>
      have released := release_name_vacant free vacant
      simp only [Task.openUnder, free, Bool.false_eq_true, if_false, released, openFrom,
        asks] at opens
      cases ran : openWith ⟨.file path, busy⟩ time true host with
      | mk ending later =>
          rw [ran] at opens
          cases ending with
          | failed error => cases opens
          | crashed => cases opens
          | returned result =>
              cases opens
              obtain ⟨number, opened⟩ := opened_site means file lasting located ran
              have stores := open_with_aside ⟨.file path, busy⟩ time true host
              rw [ran] at stores
              have ready : later.Ready path address place number := by
                refine ⟨opened.site, opened.logged, opened.current, fun other found named its => ?_⟩
                rw [store_eq stores.stores stores.slot] at named
                rcases opened.origin with new | ⟨mode, stands⟩
                · exact absurd (its.trans new) (orderly.fresh other found named)
                · exact orderly.logs other found mode named (its ▸ stands)
              refine ⟨number, ready.put_store name (.inr (congrArg OpenStore.logged opened.opened_eq)),
                ?_, opened.origin⟩
              rw [store_put_self, opened.opened_eq]

theorem newer_refused {path : String} {address : Address} {place : Files.Place} {number : Int}
    {host : Host} {busy : Nat} (means : Address.ofPath path = .ok address) (file : address.MeansFile)
    (site : host.files.Site path address place number)
    (startable : host.isLogged number = true ∨
      address.access ≠ .read ∧ Files.HasRoom place journalSuffix)
    (logRoom : Files.HasRoom place logSuffix) (indexRoom : Files.HasRoom place indexSuffix)
    (waits : busy ≤ greatestBusyMilliseconds)
    (newer : Schema.currentVersion < (host.database number).version) (time : TimeSource)
    (sharing : Bool) :
    ∃ later, openWith ⟨.file path, busy⟩ time sharing host = (.failed (.schema .tooNew), later) ∧
      later.database number = host.database number := by
  obtain ⟨begun, readied, runs⟩ :=
    open_on_site site means file time sharing waits startable logRoom indexRoom
  have same := readied.databases number
  have connects : connect (.file path) time (decide (address.access = .read)) number begun =
      (.error (.schema .tooNew), begun) := by
    have tooNew := @Store.connect_too_new (.file path) (decide (address.access = .read))
      (begun.database number) (by rw [same]; exact Int.ne_of_gt newer)
      (by rw [same]; unfold Schema.currentVersion at newer; omega)
    simp only [connect, tooNew]
  rw [connects] at runs
  exact ⟨_, runs, (database_eq (databases_retire _ _ _ begun) number).trans same⟩

/-- Stores on a file are durable; opening one changes no row, and refuses a later schema. Every
path is the name of a file in this sense but for the name of a database in memory and, maybe,
an address. -/
theorem file_stores_durable (path : String) (host : Host) :
    (¬['f', 'i', 'l', 'e', ':'] <+: path.toList → path ≠ "" → path ≠ Address.memoryName →
      Address.ofPath path = .ok (.plain path) ∧ (Address.plain path).MeansFile ∧
        Lasting host.files path (.plain path)) ∧
    (∀ {address : Address} {place : Files.Place} {first : Host} {name : String}
      {source : StoreSource} {busy : Nat} {time : TimeSource} {reply : TaskReply},
      host.settingsOf source = .ok (⟨.file path, busy⟩, time) →
      Address.ofPath path = .ok address → address.MeansFile →
      Lasting host.files path address → host.files.engineLocate? address.name = some place →
      host.Orderly place → host.store? name = none →
      Task.openUnder name source host = (.returned reply, first) →
        ∃ number, first.store? name =
            some ⟨.ofLocation (.file path) (decide (address.access = .read)), number, some place,
              none, time⟩ ∧
          (number = host.freshNumber ∨
            ∃ mode, host.files.node? place = some (.file mode (.database number))) ∧
          Durable path address number first) ∧
    (host.databases.contains host.freshNumber = false →
      ∀ (settings : Settings) (time : TimeSource) (sharing : Bool),
        SameRows host (openWith settings time sharing host).2) ∧
    (∀ {address : Address} {place : Files.Place} {number : Int} {busy : Nat}
      (time : TimeSource) (sharing : Bool),
      Address.ofPath path = .ok address → address.MeansFile →
      host.files.Site path address place number →
      (host.isLogged number = true ∨
        address.access ≠ .read ∧ Files.HasRoom place journalSuffix) →
      Files.HasRoom place logSuffix → Files.HasRoom place indexSuffix →
      busy ≤ greatestBusyMilliseconds →
      Schema.currentVersion < (host.database number).version →
        ∃ later, openWith ⟨.file path, busy⟩ time sharing host =
            (.failed (.schema .tooNew), later) ∧
          later.database number = host.database number) := by
  refine ⟨?_, ?_, ?_, ?_⟩
  · intro unaddressed named stored
    exact ⟨Address.of_path_plain unaddressed, Address.plain_means_file named stored, .inl rfl⟩
  · intro address place first name source busy time reply asks means file lasting located orderly
      vacant opens
    obtain ⟨number, ready, named, origin⟩ :=
      ready_of_opened asks means file lasting located orderly vacant opens
    exact ⟨number, named, origin,
      durable_of_ready means file orderly.logRoom orderly.indexRoom ready⟩
  · intro unused settings time sharing
    exact open_with_same_rows unused settings time sharing
  · intro address place number busy time sharing means file site startable logRoom indexRoom
      waits newer
    exact newer_refused means file site startable logRoom indexRoom waits newer time sharing

def outdated : Host :=
  { Host.initial "agent" ⟨1714564800, 0⟩ with
    files := Files.initial.put ["work", "later.db"] (.file Files.ordinary (.database 0))
    databases := (∅ : Table Int DatabaseFile).insert 0 { DatabaseFile.fresh with version := 2 } }

theorem outdated_site :
    outdated.files.Site "later.db" (.plain "later.db") ["work", "later.db"] 0 where
  prepared := ⟨["work", "later.db"], by decide +kernel, fun mode => by
    have stands : outdated.files.node? ["work", "later.db"] =
        some (.file Files.ordinary (.database 0)) := by decide +kernel
    rw [stands]
    nofun⟩
  located := by decide +kernel
  steady := ⟨⟨["work", "later.db"], by decide +kernel⟩, trivial⟩
  walked := ⟨["work", "later.db"], by decide +kernel⟩
  holds := ⟨Files.ordinary, by decide +kernel⟩
  journal := by
    have none : outdated.files.node? (Files.beside ["work", "later.db"] journalSuffix) = none := by
      decide +kernel
    rw [none]
    trivial
  log mode := by
    have none : outdated.files.node? (Files.beside ["work", "later.db"] logSuffix) = none := by
      decide +kernel
    rw [none]
    nofun
  index mode := by
    have none : outdated.files.node? (Files.beside ["work", "later.db"] indexSuffix) = none := by
      decide +kernel
    rw [none]
    nofun

/-- A new file in an empty host, and a file of a later version in another one. -/
theorem new_file_durable :
    let host := Host.initial "agent" ⟨1714564800, 0⟩
    let settings : Settings := ⟨.file "state.db", 0⟩
    let place := ["work", "state.db"]
    let opened : OpenStore :=
      ⟨.ofLocation (.file "state.db") false, 0, some place, none, .hostClock⟩
    (∃ first, Task.openUnder "store" (.settings settings .hostClock) host =
        (.returned (.opened "state.db"), first) ∧ first.store? "store" = some opened ∧
      Durable "state.db" (.plain "state.db") 0 first) ∧
    SameRows host (openWith settings .hostClock true host).2 ∧
    ∃ later, openWith ⟨.file "later.db", 0⟩ .hostClock true outdated =
        (.failed (.schema .tooNew), later) ∧
      later.database 0 = outdated.database 0 := by
  intro host settings place opened
  have named : Address.ofPath "state.db" = .ok (.plain "state.db") ∧
      (Address.plain "state.db").MeansFile ∧ Lasting host.files "state.db" (.plain "state.db") :=
    (file_stores_durable "state.db" host).1 (by decide) (by decide) (by decide)
  have laterNamed : Address.ofPath "later.db" = .ok (.plain "later.db") ∧
      (Address.plain "later.db").MeansFile ∧
        Lasting outdated.files "later.db" (.plain "later.db") :=
    (file_stores_durable "later.db" outdated).1 (by decide) (by decide) (by decide)
  have located : host.files.engineLocate? (Address.plain "state.db").name = some place := by
    decide +kernel
  have vacant : ∀ name, host.store? name = none := by
    intro name
    simp [host, store?, Host.initial, Slot.empty]
  have orderly : host.Orderly place := by
    refine ⟨fun name found named => ?_, fun name found mode named => ?_, by decide, by decide⟩
    all_goals
      rw [vacant name] at named
      cases named
  have returned : (openWith settings .hostClock true host).1 = .returned (opened, true) := by
    decide +kernel
  have opens : Task.openUnder "store" (.settings settings .hostClock) host =
      (.returned (.opened "state.db"),
        (openWith settings .hostClock true host).2.putStore "store" opened) := by
    have whole : openWith settings .hostClock true host =
        (.returned (opened, true), (openWith settings .hostClock true host).2) :=
      Prod.ext returned rfl
    have free : host.isInUse "store" = false := rfl
    have released : host.releaseName "store" = host := rfl
    simp only [Task.openUnder, free, Bool.false_eq_true, if_false, released, openFrom, settingsOf]
    rw [whole]
    rfl
  obtain ⟨number, stored, _, durable⟩ :=
    (file_stores_durable "state.db" host).2.1 rfl named.1 named.2.1 named.2.2 located orderly
      (vacant "store") opens
  rw [store_put_self] at stored
  have new : 0 = number := congrArg OpenStore.database (Option.some.inj stored)
  subst new
  refine ⟨⟨_, opens, store_put_self _ _ _, durable⟩,
    (file_stores_durable "state.db" host).2.2.1 rfl settings .hostClock true, ?_⟩
  exact (file_stores_durable "later.db" outdated).2.2.2 .hostClock true laterNamed.1
    laterNamed.2.1 outdated_site (.inr ⟨Access.noConfusion, by decide⟩) (by decide) (by decide)
    (by decide) (by decide +kernel)

/-- A path that means a database in memory to the engine is taken for a file all the same, and
what is committed there is gone with the store. -/
theorem memory_name_forgets :
    let settings : Settings := ⟨.file Address.memoryName, 0⟩
    let host := Host.initial "agent" ⟨1714564800, 0⟩
    let first := (Task.openUnder "store" (.settings settings .hostClock) host).2
    let written := (on "store" (Operation.ask (.set "mode" (.bool true))).action first).2
    let closed := written.releaseName "store"
    let reopened := (Task.openUnder "store" (.settings settings .hostClock) closed).2
    let finds (host : Host) := (host.store? "store").map fun opened =>
      Store.getRaw ⟨opened.handle, host.database opened.database⟩ "mode"
    settings.location.isMemory = false ∧ finds written = some (.ok (some "true")) ∧
      finds reopened = some (.ok none) := by
  decide +kernel

end UnitState.Host
