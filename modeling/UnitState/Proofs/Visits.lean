import UnitState.Proofs.KeptSchema
import UnitState.Proofs.OpenedSite
import UnitState.Scenario.Run

/-!
# Visits to a database in a file

While stores come and go on a site, and whatever is done with them, the site stays ready for the
next one. All that happens to the database meanwhile is what the fleet of its stores does to
it, and a store that is opened later finds what the fleet has committed.
-/

set_option autoImplicit false

namespace UnitState.Host

def unnamed (host : Host) (name : String) : Host :=
  { host with stores := host.stores.erase name }

section Release

variable {host : Host} {name : String} {opened : OpenStore}

theorem stores_of_store (free : host.isInUse name = false) :
    host.store? name = host.stores.get? name := by
  unfold store?
  split
  · rename_i shared
    simp [isInUse, shared] at free
  · rfl

theorem store_unnamed_self (free : host.isInUse name = false) :
    (host.unnamed name).store? name = none := by
  have stillFree : (host.unnamed name).isInUse name = false := free
  rw [stores_of_store stillFree]
  exact Table.get?_erase_self host.stores name

theorem store_unnamed_of_ne {other : String} (different : other ≠ name) :
    (host.unnamed name).store? other = host.store? other := by
  unfold store? unnamed
  rw [Table.get?_erase_of_ne host.stores different]

theorem release_name_vacant (free : host.isInUse name = false) (vacant : host.store? name = none) :
    host.releaseName name = host := by
  rw [stores_of_store free] at vacant
  simp only [releaseName, vacant]

theorem release_eq (opened : OpenStore) (host : Host) :
    release opened host =
      if opened.handle.isClosed then host
      else
        (host.putDatabase opened.database
          (Store.close ⟨opened.handle, host.database opened.database⟩).2.file).retireStore
            { opened with
              handle := (Store.close ⟨opened.handle, host.database opened.database⟩).2.handle } := by
  unfold release act
  rfl

theorem fleet_release_name (free : host.isInUse name = false)
    (named : host.store? name = some opened) :
    (host.releaseName name).fleet opened.database =
      ((host.fleet opened.database).step name .drop).2 := by
  have listed : host.stores.get? name = some opened := (stores_of_store free).symm.trans named
  have handle : (host.fleet opened.database).handles name = some opened.handle := by
    simp only [fleet, named, if_true]
  have stepped : ((host.fleet opened.database).step name .drop).2 =
      (host.fleet opened.database).put name none
        (Store.close ⟨opened.handle, host.database opened.database⟩).2.file := by
    simp only [Fleet.step, handle]
    rfl
  have handles : ∀ file, (((host.unnamed name).putDatabase opened.database file).fleet
      opened.database) = (host.fleet opened.database).put name none file := by
    intro file
    have without : (((host.unnamed name).putDatabase opened.database file).fleet
        opened.database).handles = ((host.fleet opened.database).put name none file).handles := by
      funext other
      have found : ((host.unnamed name).putDatabase opened.database file).store? other =
          (host.unnamed name).store? other := rfl
      by_cases same : other = name
      · subst same
        rw [Fleet.handles_put_self]
        simp only [fleet, found, store_unnamed_self free]
      · rw [Fleet.handles_put_of_ne _ _ _ _ same]
        simp only [fleet, found, store_unnamed_of_ne same]
    exact congrArg₂ Fleet.mk without (database_put_self _ _ _)
  have released : host.releaseName name = release opened (host.unnamed name) := by
    simp only [releaseName, listed]
    rfl
  rw [released, stepped, release_eq]
  cases closed : opened.handle.isClosed with
  | true =>
      have connection : opened.handle.connection = .closed := of_decide_eq_true closed
      rw [if_pos rfl, file_close, connection, ← handles (host.database opened.database)]
      refine congrArg₂ Fleet.mk rfl ?_
      rw [database_put_self]
      rfl
  | false =>
      rw [if_neg Bool.false_ne_true, fleet_retire_store]
      exact handles _

end Release

theorem store_eq {before after : Host} (stores : after.stores = before.stores)
    (slot : after.slot = before.slot) (name : String) : after.store? name = before.store? name := by
  unfold store?
  rw [slot, stores]

theorem fleet_eq {before after : Host} (stores : after.stores = before.stores)
    (slot : after.slot = before.slot) {number : Int}
    (database : after.database number = before.database number) :
    after.fleet number = before.fleet number := by
  refine congrArg₂ Fleet.mk ?_ database
  funext name
  rw [store_eq stores slot]

/-- A site whose log is started and whose database has the current schema. Whatever store is on
the database keeps a log beside the file, or none. -/
structure Ready (host : Host) (path : String) (address : Address) (place : Files.Place)
    (number : Int) : Prop where
  site : host.files.Site path address place number
  logged : host.isLogged number = true
  current : (host.database number).version = Schema.currentVersion
  aligned : ∀ name opened, host.store? name = some opened → opened.database = number →
    opened.logged = none ∨ opened.logged = some place

namespace Ready

variable {host : Host} {path : String} {address : Address} {place : Files.Place} {number : Int}

/-- The database may change as long as its schema does not, and stores may come and go that
keep their logs beside the file. -/
theorem changed (ready : host.Ready path address place number) {later : Host}
    (files : later.files = host.files) (kept : later.kept = host.kept)
    (version : (later.database number).version = (host.database number).version)
    (aligned : ∀ name opened, later.store? name = some opened → opened.database = number →
      opened.logged = none ∨ opened.logged = some place) :
    later.Ready path address place number where
  site := files ▸ ready.site
  logged := by
    unfold isLogged
    rw [kept]
    exact ready.logged
  current := version.trans ready.current
  aligned := aligned

theorem retire_store (ready : host.Ready path address place number) {opened : OpenStore}
    (its : opened.database = number)
    (logs : opened.logged = none ∨ opened.logged = some place) :
    (host.retireStore opened).Ready path address place number := by
  have stores := retire_store_aside opened host
  have databases := databases_retire_store opened host
  refine ⟨?_, ?_, ?_, fun name other named => ready.aligned name other
    (store_eq stores.stores stores.slot name ▸ named)⟩
  · rcases logs with none | log
    · simp only [retireStore, none]
      exact ready.site
    · simp only [retireStore, log, its]
      exact retire_on_site ready.site opened.handle.readOnly
  · unfold retireStore
    split
    · exact logged_retire ready.logged _ _ _
    · exact ready.logged
  · rw [database_eq databases]
    exact ready.current

theorem put_store (ready : host.Ready path address place number) (name : String)
    {opened : OpenStore} (logs : opened.logged = none ∨ opened.logged = some place) :
    (host.putStore name opened).Ready path address place number := by
  have files : (host.putStore name opened).files = host.files := by
    unfold putStore
    split <;> rfl
  have kept : (host.putStore name opened).kept = host.kept := by
    unfold putStore
    split <;> rfl
  refine ready.changed files kept (by rw [database_put_store]) fun other found named => ?_
  by_cases same : other = name
  · subst same
    rw [store_put_self] at named
    cases named
    exact fun _ => logs
  · rw [store_put_of_ne _ _ same] at named
    exact ready.aligned other found named

theorem leave (ready : host.Ready path address place number) (name : String) {opened : OpenStore}
    (its : opened.database = number)
    (logs : opened.logged = none ∨ opened.logged = some place) (handle : Handle)
    {file : DatabaseFile} (version : file.version = (host.database number).version) :
    (host.leave name opened handle file).Ready path address place number := by
  have written : (host.putDatabase opened.database file).Ready path address place number := by
    refine ready.changed rfl rfl ?_ ready.aligned
    rw [its, database_put_self]
    exact version
  exact written.put_store name logs

theorem perform (ready : host.Ready path address place number) {name : String}
    {opened : OpenStore} (named : host.store? name = some opened) (its : opened.database = number)
    (operation : Operation) :
    (on name operation.action host).2.Ready path address place number := by
  have logs := ready.aligned name opened named its
  have version := (operation.action_spares ⟨opened.handle, host.database opened.database⟩).version
  have left := ready.leave name its logs
    (operation.action ⟨opened.handle, host.database opened.database⟩).2.handle
    (version.trans (by rw [its]))
  unfold on act
  simp only [named]
  split
  · exact left.retire_store its logs
  · exact left

theorem unnamed (ready : host.Ready path address place number) {name : String}
    (free : host.isInUse name = false) :
    (host.unnamed name).Ready path address place number := by
  refine ready.changed rfl rfl rfl fun other found named => ?_
  by_cases same : other = name
  · subst same
    rw [store_unnamed_self free] at named
    cases named
  · rw [store_unnamed_of_ne same] at named
    exact ready.aligned other found named

theorem drop (ready : host.Ready path address place number) {name : String} {opened : OpenStore}
    (free : host.isInUse name = false) (named : host.store? name = some opened)
    (its : opened.database = number) :
    (host.releaseName name).Ready path address place number := by
  have listed : host.stores.get? name = some opened := (stores_of_store free).symm.trans named
  have released : host.releaseName name = release opened (host.unnamed name) := by
    simp only [releaseName, listed]
    rfl
  have logs := ready.aligned name opened named its
  have without := ready.unnamed free
  have version := (Store.close_spares ⟨opened.handle, host.database opened.database⟩).version
  rw [released, release_eq]
  split
  · exact without
  · have closed : ((host.unnamed name).putDatabase opened.database
        (Store.close ⟨opened.handle, host.database opened.database⟩).2.file).Ready
          path address place number := by
      refine without.changed rfl rfl ?_ without.aligned
      rw [its, database_put_self]
      rw [its] at version
      exact version
    exact closed.retire_store its logs

section Opening

variable (means : Address.ofPath path = .ok address) (file : address.MeansFile)

include means file

/-- The engine does not take a waiting time that is too long; the file is prepared by then. -/
theorem crashes (ready : host.Ready path address place number) {name : String}
    (free : host.isInUse name = false) (vacant : host.store? name = none) {busy : Nat}
    (waits : ¬busy ≤ greatestBusyMilliseconds) {source : StoreSource} {time : TimeSource}
    (asks : host.settingsOf source = .ok (⟨.file path, busy⟩, time)) :
    ∃ files, Task.openUnder name source host = (.crashed, { host with files := files }) ∧
      Ready { host with files := files } path address place number := by
  obtain ⟨files, prepares, site⟩ := ready.site.prepare_ok
  have site : ({ host with files := files } : Host).files.Site path address place number := site
  have contacts := contact_on_site site means file
  have released := release_name_vacant free vacant
  refine ⟨files, ?_, ⟨site, ready.logged, ready.current, ready.aligned⟩⟩
  simp only [Task.openUnder, free, Bool.false_eq_true, if_false, released, openFrom, asks,
    openWith, prepares, contacts, if_pos (Nat.lt_of_not_le waits)]

variable (logRoom : Files.HasRoom place logSuffix) (indexRoom : Files.HasRoom place indexSuffix)

include logRoom indexRoom

theorem opens (ready : host.Ready path address place number) {name : String}
    (free : host.isInUse name = false) (vacant : host.store? name = none) {busy : Nat}
    (waits : busy ≤ greatestBusyMilliseconds) {source : StoreSource} {time : TimeSource}
    (asks : host.settingsOf source = .ok (⟨.file path, busy⟩, time)) :
    ∃ later, Task.openUnder name source host = (.returned (.opened path), later) ∧
      later.Ready path address place number ∧
      later.fleet number = (host.fleet number).put name
        (some (.ofLocation (.file path) (decide (address.access = .read))))
        (host.fleet number).file := by
  obtain ⟨begun, readied, runs⟩ := open_on_site ready.site means file time true waits
    (.inl ready.logged) logRoom indexRoom
  have same := readied.databases number
  have current : (begun.database number).version = Schema.currentVersion := same ▸ ready.current
  have connects : connect (.file path) time (decide (address.access = .read)) number begun =
      (.ok (⟨.ofLocation (.file path) (decide (address.access = .read)), number, none, none, time⟩,
        false), begun.putDatabase number (begun.database number)) := by
    simp only [connect, Store.connect_current current, ne_eq, not_true_eq_false, decide_false]
  let opened : OpenStore :=
    ⟨.ofLocation (.file path) (decide (address.access = .read)), number, some place, none, time⟩
  have readyBegun : begun.Ready path address place number :=
    ⟨readied.site, readied.logged, current, fun other found named =>
      ready.aligned other found
        (store_eq readied.stores.stores readied.stores.slot other ▸ named)⟩
  refine ⟨begun.leave name opened opened.handle (begun.database number), ?_,
    readyBegun.leave name rfl (.inr rfl) opened.handle rfl, ?_⟩
  · have released := release_name_vacant free vacant
    simp only [Task.openUnder, free, Bool.false_eq_true, if_false, released, openFrom, asks, runs,
      connects]
    rfl
  · rw [← fleet_eq readied.stores.stores readied.stores.slot same]
    exact fleet_leave begun name opened opened.handle (begun.database number)

/-- What comes of opening a store under a name without one: a store of the fleet, or nothing. -/
theorem opening (ready : host.Ready path address place number) {name : String}
    (vacant : host.store? name = none) {source : StoreSource} {busy : Nat} {time : TimeSource}
    (asks : host.settingsOf source = .ok (⟨.file path, busy⟩, time)) :
    let opening := Task.openUnder name source host
    opening.2.Ready path address place number ∧
      ((∃ reply, opening.1 = .returned reply) ∧ opening.2.fleet number =
          ((host.fleet number).step name
            (.connect (.file path) (decide (address.access = .read)))).2 ∨
        (∀ reply, opening.1 ≠ .returned reply) ∧ opening.2.fleet number = host.fleet number) := by
  cases free : host.isInUse name with
  | true =>
      have refused : Task.openUnder name source host =
          (.failed (.rejected .storeInUse), host) := by
        simp only [Task.openUnder, free, if_true]
      simp only [refused]
      exact ⟨ready, .inr ⟨fun _ same => (by cases same), trivial⟩⟩
  | false =>
      by_cases waits : busy ≤ greatestBusyMilliseconds
      · obtain ⟨later, opened, readyLater, left⟩ :=
          ready.opens means file logRoom indexRoom free vacant waits asks
        have unnamed : (host.fleet number).handles name = none := by
          simp only [fleet, vacant]
        have current : (host.fleet number).file.version = Schema.currentVersion := ready.current
        simp only [opened]
        refine ⟨readyLater, .inl ⟨⟨_, rfl⟩, ?_⟩⟩
        rw [left]
        simp only [Fleet.step, unnamed, Store.connect_current current]
      · obtain ⟨files, crashed, readyLater⟩ :=
          ready.crashes means file free vacant waits asks
        simp only [crashed]
        exact ⟨readyLater, .inr ⟨fun _ same => (by cases same), rfl⟩⟩

end Opening

end Ready

structure SameData (before after : Host) : Prop where
  files : after.files = before.files
  databases : after.databases = before.databases
  kept : after.kept = before.kept
  stores : after.stores = before.stores
  slot : after.slot = before.slot

/-- What happens on a host with a database in a file, told as what happens to the stores of the
database: stores are opened on its path, worked with and given up, in any order and under any
names, and what is no matter of data changes at will. -/
inductive Visits (path : String) (address : Address) (number : Int) :
    Host → List (String × Fleet.Event) → Host → Prop
  | refl (host : Host) : Visits path address number host [] host
  | opened {host last : Host} {name : String} {source : StoreSource} {busy : Nat}
      {time : TimeSource} {reply : TaskReply} {events : List (String × Fleet.Event)}
      (asks : host.settingsOf source = .ok (⟨.file path, busy⟩, time))
      (vacant : host.store? name = none)
      (returned : (Task.openUnder name source host).1 = .returned reply)
      (onward : Visits path address number (Task.openUnder name source host).2 events last) :
      Visits path address number host
        ((name, .connect (.file path) (decide (address.access = .read))) :: events) last
  /-- No store is opened: the name is in use, or the waiting time is too long. -/
  | refused {host last : Host} {name : String} {source : StoreSource} {busy : Nat}
      {time : TimeSource} {events : List (String × Fleet.Event)}
      (asks : host.settingsOf source = .ok (⟨.file path, busy⟩, time))
      (vacant : host.store? name = none)
      (unreturned : ∀ reply, (Task.openUnder name source host).1 ≠ .returned reply)
      (onward : Visits path address number (Task.openUnder name source host).2 events last) :
      Visits path address number host events last
  | performed {host last : Host} {name : String} {opened : OpenStore} {operation : Operation}
      {events : List (String × Fleet.Event)} (named : host.store? name = some opened)
      (its : opened.database = number)
      (onward : Visits path address number (on name operation.action host).2 events last) :
      Visits path address number host ((name, .perform operation) :: events) last
  | dropped {host last : Host} {name : String} {opened : OpenStore}
      {events : List (String × Fleet.Event)} (free : host.isInUse name = false)
      (named : host.store? name = some opened) (its : opened.database = number)
      (onward : Visits path address number (host.releaseName name) events last) :
      Visits path address number host ((name, .drop) :: events) last
  | aside {host later last : Host} {events : List (String × Fleet.Event)}
      (same : SameData host later) (onward : Visits path address number later events last) :
      Visits path address number host events last

/-- After any visits a site is ready, and the database is what its fleet has made of it. -/
theorem Visits.run {path : String} {address : Address} {place : Files.Place} {number : Int}
    (means : Address.ofPath path = .ok address) (file : address.MeansFile)
    (logRoom : Files.HasRoom place logSuffix) (indexRoom : Files.HasRoom place indexSuffix)
    {first last : Host} {events : List (String × Fleet.Event)}
    (visits : Visits path address number first events last)
    (ready : first.Ready path address place number) :
    last.Ready path address place number ∧
      last.fleet number = (first.fleet number).run events := by
  induction visits with
  | refl host => exact ⟨ready, rfl⟩
  | opened asks vacant returned onward hypothesis =>
      obtain ⟨readyLater, ⟨_, step⟩ | ⟨refused, _⟩⟩ :=
        ready.opening means file logRoom indexRoom vacant asks
      · rw [Fleet.run_cons, ← step]
        exact hypothesis readyLater
      · exact absurd returned (refused _)
  | refused asks vacant unreturned onward hypothesis =>
      obtain ⟨readyLater, ⟨⟨reply, returned⟩, _⟩ | ⟨_, still⟩⟩ :=
        ready.opening means file logRoom indexRoom vacant asks
      · exact absurd returned (unreturned reply)
      · rw [← still]
        exact hypothesis readyLater
  | @performed host last name opened operation events named its onward hypothesis =>
      have steps := (on_steps host named operation).2.1
      rw [its] at steps
      rw [Fleet.run_cons, ← steps]
      exact hypothesis (ready.perform named its operation)
  | dropped free named its onward hypothesis =>
      have steps := fleet_release_name free named
      rw [its] at steps
      rw [Fleet.run_cons, ← steps]
      exact hypothesis (ready.drop free named its)
  | aside same onward hypothesis =>
      have stored := database_eq same.databases
      have still : (Host.Ready _ path address place number) :=
        ready.changed same.files same.kept (congrArg DatabaseFile.version (stored number))
          fun name opened named =>
            ready.aligned name opened (store_eq same.stores same.slot name ▸ named)
      rw [← fleet_eq same.stores same.slot (stored number)]
      exact hypothesis still

end UnitState.Host
