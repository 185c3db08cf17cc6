import UnitState.Proofs.CommandRuns
import UnitState.Proofs.Visits

/-!
# Calls of the program

A call opens a store, runs its command and gives the store up. Whatever the words of a call are,
no hook and no history row comes of it, and rows change only if it succeeds and is there to
change them. On a path that the engine takes for the name of a file, the code that a call ends
with follows from its words, the live row and the lock, and what one call has set is what the
next one prints. A path that means a database in memory to the engine is opened as one, and the
next call finds nothing.
-/

set_option autoImplicit false

namespace UnitState

open Json

/-! ## Words -/

namespace CommandLine

theorem read_option_database (flagName : Option String) (level : Level) (path : String) :
    readOption flagName level ("--db=" ++ path) =
      (level.setDatabase path).map fun level => (.word, level) := by
  have letters : ("--db=" ++ path).toList = '-' :: '-' :: 'd' :: 'b' :: '=' :: path.toList := by
    rw [String.toList_append]
    rfl
  unfold readOption
  rw [letters]
  simp

theorem is_option_database (path : String) : isOption ("--db=" ++ path) = true := by
  unfold isOption
  rw [String.toList_append]
  rfl

end CommandLine

namespace Command

open CommandLine

def words : Command → List String
  | get key => ["get", "--", key]
  | getRange stem strip => "getrange" :: ((if strip then ["--strip"] else []) ++ ["--", stem])
  | set key text json => "set" :: ((if json then ["--json"] else []) ++ ["--", key, text])
  | unset key => ["unset", "--", key]
  | history key deserialize =>
      "history" :: ((if deserialize then ["--deserialize"] else []) ++ ["--", key])
  | debug => ["debug"]

theorem read_words (command : Command) (level : Level) :
    readCall .word level command.words = .ok ⟨level.database, command⟩ := by
  cases command with
  | get key => rfl
  | unset key => rfl
  | debug => rfl
  | getRange stem strip => cases strip <;> rfl
  | set key text json => cases json <;> rfl
  | history key deserialize => cases deserialize <;> rfl

theorem of_words (command : Command) {path : String} (named : path ≠ "") :
    Call.ofWords (("--db=" ++ path) :: command.words) = .ok ⟨some path, command⟩ := by
  have stands : Level.setDatabase {} path = .ok { ({} : Level) with database := some path } := by
    simp [Level.setDatabase, named]
  have option : readOption none {} ("--db=" ++ path) =
      .ok (.word, { ({} : Level) with database := some path }) := by
    rw [read_option_database, stands]
    rfl
  unfold Call.ofWords readCall
  simp only [is_option_database, if_true, option]
  exact command.read_words _

end Command

/-! ## Openings -/

theorem Handle.Outside.of_location (location : Location) (readOnly : Bool) :
    (Handle.ofLocation location readOnly).Outside where
  revision := rfl
  idle _ := Connection.noConfusion

namespace Host

/-- No hook, no history row and no next revision number of a database has changed. -/
def SameHistory (before after : Host) : Prop :=
  ∀ number, before.databases.contains number = true →
    after.databases.contains number = true ∧
      ∃ live, (after.database number).contents =
        { (before.database number).contents with live := live }

namespace SameHistory

theorem of_rows {before after : Host} (same : SameRows before after) : SameHistory before after := by
  intro number known
  obtain ⟨still, upgraded⟩ := same number known
  exact ⟨still, (before.database number).contents.live, upgraded.contents⟩

theorem trans {first second third : Host} (early : SameHistory first second)
    (late : SameHistory second third) : SameHistory first third := by
  intro number known
  obtain ⟨still, live, changed⟩ := early number known
  obtain ⟨lasts, later, further⟩ := late number still
  exact ⟨lasts, later, by rw [further, changed]⟩

theorem put_live (host : Host) (number : Int) (live : Table String String) :
    SameHistory host (host.putDatabase number { host.database number with
      contents := { (host.database number).contents with live := live } }) := by
  intro other known
  refine ⟨known_put known number _, ?_⟩
  by_cases same : other = number
  · subst same
    rw [database_put_self]
    exact ⟨live, rfl⟩
  · rw [database_put_of_ne host _ same]
    exact ⟨_, rfl⟩

end SameHistory

theorem connect_to_outside {host later : Host} {location : Location} {time : TimeSource}
    {contact : Contact} {result : Opened}
    (connects : connectTo location time contact host = (.ok result, later)) :
    result.1.handle.Outside := by
  have of_connect : ∀ {readOnly number before after} {opened : Opened},
      connect location time readOnly number before = (.ok opened, after) →
        opened.1.handle.Outside := by
    intro readOnly number before after opened connects
    rw [(connect_inv connects).1]
    exact .of_location location readOnly
  obtain ⟨target, readOnly⟩ := contact
  cases target with
  | memory sharedAs =>
      obtain ⟨shared, _, _, connects⟩ := Attempt.of_bind_ok connects
      cases shared with
      | none | some number =>
          obtain ⟨opened, _, connects, given⟩ := Attempt.of_bind_ok connects
          cases given
          have outside : opened.1.handle.Outside := of_connect connects
          exact outside
  | frozen place =>
      obtain ⟨contents, _, _, connects⟩ := Attempt.of_bind_ok connects
      exact of_connect connects
  | file place lockless =>
      obtain ⟨found, _, _, connects⟩ := Attempt.of_bind_ok connects
      obtain ⟨number, started, _, connects⟩ := Attempt.of_bind_ok connects
      cases lockless with
      | true => exact of_connect connects
      | false =>
          obtain ⟨_, ready, _, connects⟩ := Attempt.of_bind_ok connects
          cases ran : connect location time readOnly number ready with
          | mk answer last =>
              simp only [ran] at connects
              cases answer with
              | error error => cases connects
              | ok opened =>
                  cases connects
                  have outside : opened.1.handle.Outside := of_connect ran
                  exact outside

theorem open_with_outside {host later : Host} {settings : Settings} {time : TimeSource}
    {sharing : Bool} {result : Opened}
    (opens : openWith settings time sharing host = (.returned result, later)) :
    result.1.handle.Outside := by
  unfold openWith at opens
  split at opens
  · cases connects : connectMemory .memory time false .fresh host with
    | mk answer last =>
        rw [connects] at opens
        cases answer with
        | error error => cases opens
        | ok opened =>
            cases opens
            rw [(connect_inv connects).1]
            exact .of_location .memory false
  · split at opens
    · cases opens
    · split at opens
      · cases opens
      · rename_i contact between _
        split at opens
        · cases opens
        · cases connects : connectTo settings.location time
              (if sharing then contact else contact.alone) between with
          | mk answer last =>
              simp only [connects] at opens
              cases answer with
              | error error => cases opens
              | ok opened =>
                  cases opens
                  exact connect_to_outside connects

theorem release_outside {opened : OpenStore} (outside : opened.handle.Outside) (host : Host) :
    SameRows host (release opened host) ∧
      ∀ other, (release opened host).database other = host.database other := by
  have file : (Store.close ⟨opened.handle, host.database opened.database⟩).2.file =
      host.database opened.database := by
    rw [file_close]
    split
    · rename_i pending writing
      exact absurd writing (outside.idle pending)
    · rfl
    · rfl
  rw [release_eq, file]
  split
  · exact ⟨.of_databases rfl, fun _ => rfl⟩
  · refine ⟨(SameRows.put host fun _ => .refl _).trans (.of_databases (databases_retire_store _ _)),
      fun other => ?_⟩
    rw [database_eq (databases_retire_store _ _)]
    by_cases its : other = opened.database
    · rw [its, database_put_self]
    · exact database_put_of_ne host _ its

section Call

variable {host : Host} {words : List String} {call : Call}

theorem open_for_same_rows (unused : host.databases.contains host.freshNumber = false)
    (database : Option String) : SameRows host (openFor database host).2 := by
  unfold openFor
  split
  · exact .of_databases rfl
  · exact open_with_same_rows unused _ _ _

theorem open_for_outside {database : Option String} {between : Host} {result : Opened}
    (opens : openFor database host = (.returned result, between)) : result.1.handle.Outside := by
  unfold openFor at opens
  split at opens
  · cases opens
  · exact open_with_outside opens

theorem run_call_opened (reads : Call.ofWords words = .ok call) {between : Host} {result : Opened}
    (opens : openFor call.database host = (.returned result, between)) :
    host.runCall words =
      ({ (call.command.run ⟨result.1.handle, between.database result.1.database⟩).1 with
          logged := result.2 },
        release result.1 (between.putDatabase result.1.database
          (call.command.run ⟨result.1.handle, between.database result.1.database⟩).2.file)) := by
  have handle : (call.command.run ⟨result.1.handle, between.database result.1.database⟩).2.handle =
      result.1.handle := Command.run_handle (open_for_outside opens) call.command
  simp only [runCall, reads, opens, handle]

/-- Either a call is refused, or ends with no more than an attempt to open a store, or its
command is run on a store. -/
theorem call_inv (unused : host.databases.contains host.freshNumber = false)
    (words : List String) :
    SameRows host (host.runCall words).2 ∨
      ∃ call result between, Call.ofWords words = .ok call ∧
        openFor call.database host = (.returned result, between) ∧ SameRows host between := by
  cases reads : Call.ofWords words with
  | error refusal =>
      left
      simp only [runCall, reads]
      cases refusal <;> exact .of_databases rfl
  | ok call =>
      have opened := open_for_same_rows unused call.database
      cases opens : openFor call.database host with
      | mk ending between =>
          rw [opens] at opened
          cases ending with
          | crashed | failed error =>
              left
              simp only [runCall, reads, opens]
              exact opened
          | returned result => exact .inr ⟨call, result, between, rfl, opens, opened⟩

theorem call_same_history (unused : host.databases.contains host.freshNumber = false)
    (words : List String) : SameHistory host (host.runCall words).2 := by
  rcases call_inv unused words with rows | ⟨call, result, between, reads, opens, opened⟩
  · exact .of_rows rows
  · have outside := open_for_outside opens
    rw [run_call_opened reads opens, Command.run_file outside]
    exact (SameHistory.of_rows opened).trans
      ((SameHistory.put_live between _ _).trans (.of_rows (release_outside outside _).1))

theorem call_same_rows (unused : host.databases.contains host.freshNumber = false)
    (harmless : (∀ call, Call.ofWords words = .ok call → call.command.target? = none) ∨
      (host.runCall words).1.exit ≠ 0) : SameRows host (host.runCall words).2 := by
  rcases call_inv unused words with rows | ⟨call, result, between, reads, opens, opened⟩
  · exact rows
  · have outside := open_for_outside opens
    rw [run_call_opened reads opens] at harmless ⊢
    have same := Command.run_harmless outside (harmless.imp_left fun looks => looks call reads)
    rw [same]
    exact opened.trans ((SameRows.put between fun _ => .refl _).trans (release_outside outside _).1)

end Call

/-! ## Calls on a file -/

def runCalls (host : Host) (calls : List (List String)) : Host :=
  calls.foldl (fun host words => (host.runCall words).2) host

def callStore (path : String) (place : Files.Place) (number : Int) : OpenStore :=
  ⟨.ofLocation (.file path) false, number, some place, none, .wallClock⟩

/-- A database in a file, with its tables, on which a call can be made. -/
structure Served (host : Host) (path : String) (address : Address) (place : Files.Place)
    (number : Int) : Prop where
  site : host.files.Site path address place number
  logged : host.isLogged number = true
  current : (host.database number).version = Schema.currentVersion
  hasTables : (host.database number).hasTables = true
  waits : ∃ settings, Settings.resolve host.environment = .ok settings ∧
    settings.busyMilliseconds ≤ greatestBusyMilliseconds

/-- A path that the engine takes for the name of a file, which it may write and beside which
there is room for a log. -/
structure NamesFile (host : Host) (path : String) (address : Address) (place : Files.Place) :
    Prop where
  means : Address.ofPath path = .ok address
  file : address.MeansFile
  writable : address.access ≠ .read
  lasting : Lasting host.files path address
  located : host.files.engineLocate? address.name = some place
  logRoom : Files.HasRoom place logSuffix
  indexRoom : Files.HasRoom place indexSuffix

namespace Served

variable {host : Host} {path : String} {address : Address} {place : Files.Place} {number : Int}

/-- The first call on a file makes it ready for others. Of the rows that were there before,
those of a new database included, none is changed by that. -/
theorem of_opened {between : Host} {result : Opened} (names : host.NamesFile path address place)
    (unused : host.databases.contains host.freshNumber = false)
    (tables : ∀ number, (host.database number).version = Schema.currentVersion →
      (host.database number).hasTables = true)
    (opens : openFor (some path) host = (.returned result, between)) :
    ∃ number, between.Served path address place number ∧
      result.1 = callStore path place number ∧
      (number = host.freshNumber ∨
        ∃ mode, host.files.node? place = some (.file mode (.database number))) ∧
      (host.database number).Upgraded (between.database number) ∧
      ∀ other, other ≠ number → between.database other = host.database other := by
  unfold openFor at opens
  split at opens
  · cases opens
  rename_i settings resolves
  have aside := open_with_aside ⟨.file path, settings.busyMilliseconds⟩ .wallClock false host
  have opens : openWith ⟨.file path, settings.busyMilliseconds⟩ .wallClock false host =
      (.returned result, between) := opens
  rw [opens] at aside
  obtain ⟨waits, reached, ⟨way⟩⟩ := open_with_inv names.means names.file opens
  obtain rfl := way.place_eq names.lasting names.located
  have opened := way.opened_site names.lasting
  obtain ⟨upgraded, tabled, others⟩ := connect_database way.stages.connects
  have ready := way.ready_database unused
  rw [ready] at upgraded tabled
  refine ⟨way.stages.number, ⟨opened.site, opened.logged, opened.current, ?_, settings, ?_, waits⟩,
    ?_, opened.origin, upgraded, fun other different => (others other different).trans (ready other)⟩
  · rcases tabled with tabled | same
    · exact tabled
    -- the schema was up to date before, and its tables with it
    · have current := opened.current
      rw [same] at current ⊢
      exact tables _ current
  · rw [aside.environment]
    exact resolves
  · simp only [opened.opened_eq, callStore, names.writable, decide_false]

theorem opens (served : host.Served path address place number) {first : Host}
    (names : first.NamesFile path address place) :
    ∃ between, openFor (some path) host = (.returned (callStore path place number, false), between) ∧
      between.Served path address place number ∧
      ∀ other, between.database other = host.database other := by
  obtain ⟨settings, resolves, waits⟩ := served.waits
  obtain ⟨begun, readied, runs⟩ := open_on_site served.site names.means names.file .wallClock false
    waits (.inl served.logged) names.logRoom names.indexRoom
  have same := readied.databases number
  have current : (begun.database number).version = Schema.currentVersion := same ▸ served.current
  have connects : connect (.file path) .wallClock (decide (address.access = .read)) number begun =
      (.ok (⟨.ofLocation (.file path) false, number, none, none, .wallClock⟩, false),
        begun.putDatabase number (begun.database number)) := by
    simp only [connect, Store.connect_current current, names.writable, decide_false, ne_eq,
      not_true_eq_false]
  have kept : ∀ other, (begun.putDatabase number (begun.database number)).database other =
      host.database other := by
    intro other
    rw [← readied.databases other]
    by_cases its : other = number
    · rw [its, database_put_self]
    · exact database_put_of_ne begun _ its
  refine ⟨begun.putDatabase number (begun.database number), ?_, ?_, kept⟩
  · unfold openFor
    simp only [resolves]
    rw [connects] at runs
    exact runs
  · refine ⟨readied.site, readied.logged, ?_, ?_, settings, ?_, waits⟩
    · rw [kept]
      exact served.current
    · rw [kept]
      exact served.hasTables
    · have environment : begun.environment = host.environment := readied.stores.environment
      rw [← resolves, ← environment]
      rfl

theorem release (served : host.Served path address place number) {file : DatabaseFile}
    (version : file.version = (host.database number).version)
    (hasTables : file.hasTables = (host.database number).hasTables) :
    let later := Host.release (callStore path place number) (host.putDatabase number file)
    later.Served path address place number ∧ later.database number = file ∧
      ∀ other, other ≠ number → later.database other = host.database other := by
  intro later
  have outside : (callStore path place number).handle.Outside := .of_location _ _
  have databases : ∀ other, later.database other = (host.putDatabase number file).database other :=
    (release_outside outside _).2
  have itself : later.database number = file := (databases number).trans (database_put_self _ _ _)
  obtain ⟨last, ended, files, kept, environment⟩ : ∃ last,
      later = Host.retire place number false last ∧ last.files = host.files ∧
        last.kept = host.kept ∧ last.environment = host.environment :=
    ⟨_, release_eq _ _, rfl, rfl, rfl⟩
  refine ⟨⟨?_, ?_, ?_, ?_, ?_⟩, itself, fun other different => ?_⟩
  · rw [ended]
    exact retire_on_site (files ▸ served.site) false
  · have logged : last.isLogged number = true := by
      unfold isLogged
      rw [kept]
      exact served.logged
    rw [ended]
    exact logged_retire logged place number false
  · rw [itself, version]
    exact served.current
  · rw [itself, hasTables]
    exact served.hasTables
  · rw [ended, (retire_aside place number false last).environment, environment]
    exact served.waits
  · rw [databases]
    exact database_put_of_ne host _ different

theorem view (served : host.Served path address place number) (table : String) :
    Store.view ⟨.ofLocation (.file path) false, host.database number⟩ table =
      .ok (host.database number).contents := by
  simp only [Store.view, Handle.ofLocation, served.hasTables, if_true]

theorem call_opened {between : Host} {logged : Bool} {words : List String} {command : Command}
    (served : between.Served path address place number)
    (reads : Call.ofWords words = .ok ⟨some path, command⟩)
    (opens : openFor (some path) host = (.returned (callStore path place number, logged), between)) :
    let ran := command.run ⟨.ofLocation (.file path) false, between.database number⟩
    (host.runCall words).1 = { ran.1 with logged := logged } ∧
      (host.runCall words).2.Served path address place number ∧
      (host.runCall words).2.database number = ran.2.file ∧
      ∀ other, other ≠ number → (host.runCall words).2.database other = between.database other := by
  intro ran
  have file : ran.2.file = _ := Command.run_file (.of_location _ _) command
  have version : ran.2.file.version = (between.database number).version := by rw [file]
  have hasTables : ran.2.file.hasTables = (between.database number).hasTables := by rw [file]
  obtain ⟨later, itself, others⟩ := served.release version hasTables
  rw [run_call_opened reads opens]
  exact ⟨rfl, later, itself, others⟩

variable {first : Host} (names : first.NamesFile path address place)

include names

theorem call {words : List String} {command : Command}
    (served : host.Served path address place number)
    (reads : Call.ofWords words = .ok ⟨some path, command⟩) :
    let ran := command.run ⟨.ofLocation (.file path) false, host.database number⟩
    (host.runCall words).1 = { ran.1 with logged := false } ∧
      (host.runCall words).2.Served path address place number ∧
      (host.runCall words).2.database number = ran.2.file := by
  obtain ⟨between, opens, ready, same⟩ := served.opens names
  obtain ⟨ended, later, itself, _⟩ := ready.call_opened reads opens
  rw [same] at ended itself
  exact ⟨ended, later, itself⟩

/-- What becomes of the database by calls on the file, one after the other: nothing while another
store has a scope open on it, and else what the words of the calls make of its live rows. -/
theorem run_calls {calls : List (List String × Command)}
    (reads : ∀ call ∈ calls, Call.ofWords call.1 = .ok ⟨some path, call.2⟩)
    (served : host.Served path address place number) :
    (host.runCalls (calls.map (·.1))).Served path address place number ∧
      (host.runCalls (calls.map (·.1))).database number = { host.database number with
        contents := { (host.database number).contents with
          live := if (host.database number).locked then (host.database number).contents.live
            else Command.appliedAll (calls.map (·.2)) (host.database number).contents.live } } := by
  -- every call leaves a served file to the next one, under the same lock
  induction calls generalizing host with
  | nil =>
      refine ⟨served, ?_⟩
      simp only [runCalls, Command.appliedAll, List.map_nil, List.foldl_nil, ite_self]
  | cons call later hypothesis =>
      obtain ⟨_, ready, itself⟩ := served.call names (reads call List.mem_cons_self)
      rw [Command.run_settles (.of_location _ _) (served.view Schema.liveTable) rfl] at itself
      obtain ⟨last, left⟩ :=
        hypothesis (fun other member => reads other (List.mem_cons_of_mem call member)) ready
      refine ⟨last, ?_⟩
      simp only [runCalls, Command.appliedAll, List.map_cons, List.foldl_cons] at left ⊢
      rw [left, itself]
      dsimp only
      split <;> rfl

end Served

/-- What is promised of a call on a file that can be opened, and of the calls after it. -/
structure FileCall (host : Host) (path : String) (place : Files.Place) (words : List String)
    (command : Command) (number : Int) : Prop where
  /-- The database is the one in the file, or a new one. -/
  origin : number = host.freshNumber ∨
    ∃ mode, host.files.node? place = some (.file mode (.database number))
  /-- Of the database, only live rows are changed, and those only if the call succeeds. -/
  contents : ((host.runCall words).2.database number).contents =
    if (host.runCall words).1.exit = 0 then
      { (host.database number).contents with
        live := command.applied (host.database number).contents.live }
    else (host.database number).contents
  others : ∀ other, other ≠ number →
    (host.runCall words).2.database other = host.database other
  set : ∀ {key text json}, command = .set key text json →
    ((host.runCall words).1.exit = 1 ↔ json = true ∧ ∃ fault, Value.parse text = .error fault) ∧
      ((host.runCall words).1.exit = 2 ↔ ∃ value, Command.valueOf text json = .ok value ∧
        (host.database number).contents.live.get? key ≠ some value.storedText ∧
          (host.database number).locked = true) ∧
      ((host.runCall words).1.exit = 0 ∨ (host.runCall words).1.exit = 1 ∨
        (host.runCall words).1.exit = 2)
  unset : ∀ {key}, command = .unset key →
    (host.runCall words).1.exit = if (host.database number).locked then 2 else 0
  /-- A value that a call has set is printed by a later one, whatever calls for other keys have
  come between. -/
  found : ∀ {key text json value}, command = .set key text json →
    (host.runCall words).1.exit = 0 → Command.valueOf text json = .ok value →
    (value.EveryNumber fun number => number.isFloat = true →
      Value.parse (String.ofList number.text) = .ok (.number number)) →
    ∀ {calls : List (List String × Command)},
      (∀ call ∈ calls, Call.ofWords call.1 = .ok ⟨some path, call.2⟩ ∧ call.2.target? ≠ some key) →
    ∀ {getWords}, Call.ofWords getWords = .ok ⟨some path, .get key⟩ →
      (((host.runCall words).2.runCalls (calls.map (·.1))).runCall getWords).1 =
        .printed (value.storedText ++ "\n")

theorem file_call {host : Host} {path : String} {address : Address} {place : Files.Place}
    {words : List String} {command : Command} {between : Host} {result : Opened}
    (names : host.NamesFile path address place)
    (unused : host.databases.contains host.freshNumber = false)
    (tables : ∀ number, (host.database number).version = Schema.currentVersion →
      (host.database number).hasTables = true)
    (reads : Call.ofWords words = .ok ⟨some path, command⟩)
    (opens : openFor (some path) host = (.returned result, between)) :
    ∃ number, host.FileCall path place words command number := by
  obtain ⟨number, served, its, origin, upgraded, others⟩ :=
    Served.of_opened names unused tables opens
  obtain ⟨opened, logged⟩ := result
  obtain rfl : opened = callStore path place number := its
  obtain ⟨ended, ready, itself, still⟩ := served.call_opened reads opens
  have outside : (Handle.ofLocation (.file path) false).Outside := .of_location _ _
  have view := served.view Schema.liveTable
  have exit := congrArg ProgramEnd.exit ended
  dsimp only at exit
  rw [upgraded.contents] at view
  refine ⟨number, origin, ?_, fun other different => (still other different).trans
    (others other different), ?_, ?_, ?_⟩
  · rw [itself, Command.run_leaves outside, exit]
    split
    · simp only [Store.withContents, upgraded.contents]
    · exact upgraded.contents
  · rintro key text json rfl
    rw [exit, ← upgraded.locked]
    exact Command.exit_of_set_iff outside view rfl key text json
  · rintro key rfl
    rw [exit, Command.exit_of_unset outside view, Store.bar_writable rfl, ← upgraded.locked]
    dsimp only
    cases (between.database number).locked <;> rfl
  · rintro key text json value rfl done read floats calls others getWords asks
    have set : ((host.runCall words).2.database number).contents.live.get? key =
        some value.storedText := by
      have written : ((Command.set key text json).run
          ⟨.ofLocation (.file path) false, between.database number⟩).2 = _ :=
        Command.run_leaves outside _
      rw [if_pos (exit ▸ done)] at written
      simp only [itself, written, Store.withContents, Command.applied, read,
        Table.get?_insert_self]
    -- the row stays through the calls between, whether they could write or not
    obtain ⟨last, left⟩ := ready.run_calls names fun call member => (others call member).1
    have kept : (((host.runCall words).2.runCalls
        (calls.map (·.1))).database number).contents.live.get? key = some value.storedText := by
      rw [left, ← set]
      dsimp only
      split
      · rfl
      · refine Command.applied_all_apart (fun command member => ?_) _
        obtain ⟨call, listed, rfl⟩ := List.mem_map.1 member
        exact (others call listed).2
    have raw := Store.get_raw_eq (last.view Schema.liveTable) key
    rw [kept] at raw
    obtain ⟨printed, _, _⟩ := last.call names asks
    rw [printed, Command.run_get raw (Command.parse_stored_value read floats)]
    rfl

theorem names_file_of_plain {host between : Host} {path : String} {result : Opened}
    (unaddressed : ¬['f', 'i', 'l', 'e', ':'] <+: path.toList) (named : path ≠ "")
    (stored : path ≠ Address.memoryName)
    (opens : openFor (some path) host = (.returned result, between)) :
    ∃ place, host.files.engineLocate? path = some place ∧
      (Files.HasRoom place logSuffix → Files.HasRoom place indexSuffix →
        host.NamesFile path (.plain path) place) := by
  have means := Address.of_path_plain unaddressed
  have file := Address.plain_means_file named stored
  unfold openFor at opens
  split at opens
  · cases opens
  · obtain ⟨_, place, ⟨way⟩⟩ := open_with_inv means file opens
    have located : host.files.engineLocate? path = some place := way.located (.inl rfl)
    exact ⟨place, located, fun logRoom indexRoom =>
      ⟨means, file, Access.noConfusion, .inl rfl, located, logRoom, indexRoom⟩⟩

/-- Calls of the program. On any path at all no hook and no history row comes of one, and rows
change only if it succeeds and is there to change them. On a path that names a file a call ends
and does as its words say, and what is set is found again. A call can have any key and any text,
and every path that can be opened names a file but for the name of a database in memory and,
maybe, an address. -/
theorem calls_refine_stores (host : Host)
    (unused : host.databases.contains host.freshNumber = false) (words : List String) :
    SameHistory host (host.runCall words).2 ∧
    ((host.runCall words).1.exit ≠ 0 → SameRows host (host.runCall words).2) ∧
    ((∀ call, Call.ofWords words = .ok call → call.command.target? = none) →
      SameRows host (host.runCall words).2) ∧
    (∀ (command : Command) {path}, path ≠ "" →
      Call.ofWords (("--db=" ++ path) :: command.words) = .ok ⟨some path, command⟩) ∧
    (∀ {path result between}, ¬['f', 'i', 'l', 'e', ':'] <+: path.toList → path ≠ "" →
      path ≠ Address.memoryName → openFor (some path) host = (.returned result, between) →
        ∃ place, host.files.engineLocate? path = some place ∧
          (Files.HasRoom place logSuffix → Files.HasRoom place indexSuffix →
            host.NamesFile path (.plain path) place)) ∧
    (∀ {path address place command result between}, host.NamesFile path address place →
      (∀ number, (host.database number).version = Schema.currentVersion →
        (host.database number).hasTables = true) →
      Call.ofWords words = .ok ⟨some path, command⟩ →
      openFor (some path) host = (.returned result, between) →
        ∃ number, host.FileCall path place words command number) :=
  ⟨call_same_history unused words, fun fails => call_same_rows unused (.inr fails),
    fun looks => call_same_rows unused (.inl looks), fun command _ named => command.of_words named,
    fun unaddressed named stored opens => names_file_of_plain unaddressed named stored opens,
    fun names tables reads opens => file_call names unused tables reads opens⟩

/-- A float is set on a new file, and found after a call for another key. -/
theorem float_set_and_found :
    let host := Host.initial "agent" ⟨1714564800, 0⟩
    let words := ["--db", "state.db", "set", "--json", "ratio", "1.5"]
    let between := [["unset", "mode", "--db=state.db"]]
    SameHistory host (host.runCall words).2 ∧
      host.FileCall "state.db" ["work", "state.db"] words (.set "ratio" "1.5" true) 0 ∧
      (((host.runCall words).2.runCalls between).runCall ["get", "--db", "state.db", "ratio"]).1 =
        .printed "1.5\n" := by
  intro host words between
  let value : Value := .number (.float ⟨false, 4609434218613702656, by decide⟩)
  let unset : List String × Command := (["unset", "mode", "--db=state.db"], .unset "mode")
  have reads : Call.ofWords words = .ok ⟨some "state.db", .set "ratio" "1.5" true⟩ := by
    decide +kernel
  have asks : Call.ofWords ["get", "--db", "state.db", "ratio"] =
      .ok ⟨some "state.db", .get "ratio"⟩ := by decide +kernel
  have unsets : ∀ call ∈ [unset], Call.ofWords call.1 = .ok ⟨some "state.db", call.2⟩ ∧
      call.2.target? ≠ some "ratio" := by decide +kernel
  have read : Command.valueOf "1.5" true = .ok value := by decide +kernel
  have floats : value.EveryNumber fun number => number.isFloat = true →
      Value.parse (String.ofList number.text) = .ok (.number number) := fun _ => by decide +kernel
  let opened : OpenStore :=
    ⟨.ofLocation (.file "state.db") false, 0, some ["work", "state.db"], none, .wallClock⟩
  have returned : (openFor (some "state.db") host).1 = .returned (opened, true) := by decide +kernel
  have opens : openFor (some "state.db") host =
      (.returned (opened, true), (openFor (some "state.db") host).2) := Prod.ext returned rfl
  obtain ⟨history, _, _, _, names, calls⟩ := calls_refine_stores host rfl words
  obtain ⟨place, located, named⟩ := names (by decide) (by decide) (by decide) opens
  have leads : host.files.engineLocate? "state.db" = some ["work", "state.db"] := by decide +kernel
  obtain rfl : ["work", "state.db"] = place := Option.some.inj (leads.symm.trans located)
  obtain ⟨number, call⟩ :=
    calls (named (by decide) (by decide)) (fun _ current => by cases current) reads opens
  obtain rfl : number = 0 := by
    rcases call.origin with new | ⟨mode, stands⟩
    · exact new
    · have nothing : host.files.node? ["work", "state.db"] = none := by decide +kernel
      rw [nothing] at stands
      cases stands
  have done : (host.runCall words).1.exit = 0 := by decide +kernel
  have text : value.storedText ++ "\n" = "1.5\n" := by decide +kernel
  have found := call.found rfl done read floats unsets asks
  rw [text] at found
  exact ⟨history, call, found⟩

/-- An address of a database in memory is opened as one: setting a value succeeds, and the next
call does not find it. Through an address that allows reading only, a value is refused although
no other store has a scope open. -/
theorem address_call_forgets :
    let host := Host.initial "agent" ⟨1714564800, 0⟩
    let written := host.runCall ["--db", "file:x?mode=memory", "set", "a", "1"]
    let found := written.2.runCall ["--db", "file:x?mode=memory", "get", "a"]
    let stored := (host.runCall ["--db", "x", "set", "a", "1"]).2
    let refused := stored.runCall ["--db", "file:x?mode=ro", "set", "a", "2"]
    written.1.exit = 0 ∧ found.1.exit = 0 ∧ found.1.output = "null\n" ∧
      found.1.output ≠ (Value.string "1").storedText ++ "\n" ∧
      refused.1.exit = 2 ∧ (stored.database 0).locked = false := by
  decide +kernel

end Host

end UnitState
