import UnitState.Proofs.OpenedSite

/-!
# The numbers of databases

A host gives its databases the numbers from zero on, so the next number is never in use. A database
that stands in a file has a number, and stands in no other file. Whatever becomes of a host, its
numbers stay in order, no database is lost from the count, and none that was counted comes to stand
in another file. What else is to hold of every database is left open here: any property will do that
depends on the schema only and that bringing the schema up to date does not break.
-/

set_option autoImplicit false

namespace UnitState

theorem Table.length_place {Key Value : Type} [KeyOrder Key] (key : Key) (value : Value)
    (bindings : List (Key × Value)) :
    (place key value bindings).length =
      if (find key bindings).isSome then bindings.length else bindings.length + 1 := by
  induction bindings with
  | nil => rfl
  | cons head tail hypothesis =>
      simp only [place, find]
      split
      · rw [List.length_cons, List.length_cons, hypothesis]
        split <;> rfl
      · split <;> rfl

theorem Table.size_insert {Key Value : Type} [KeyOrder Key] (table : Table Key Value) (key : Key)
    (value : Value) :
    (table.insert key value).size = if table.contains key then table.size else table.size + 1 :=
  length_place key value table.entries

/-- A property of databases that depends on the schema only. -/
structure DatabaseFile.Stable (holds : DatabaseFile → Prop) : Prop where
  fresh : holds .fresh
  same : ∀ {before after : DatabaseFile}, after.version = before.version →
    after.hasTables = before.hasTables → holds before → holds after
  migrated : ∀ {before after : DatabaseFile} {readOnly : Bool},
    migrate readOnly before = (.ok (), after) → holds before → holds after

namespace Host

/-- The databases of a host have numbers from zero on, and each stands in one file at most. -/
structure Numbered (holds : DatabaseFile → Prop) (host : Host) : Prop where
  counted : ∀ number, host.databases.contains number = true →
    0 ≤ number ∧ number < host.databases.size
  known : ∀ place mode number, host.files.node? place = some (.file mode (.database number)) →
    host.databases.contains number = true
  alone : ∀ place other mode otherMode number,
    host.files.node? place = some (.file mode (.database number)) →
      host.files.node? other = some (.file otherMode (.database number)) →
        Files.key other = Files.key place
  file : ∀ number, holds (host.database number)
  kept : ∀ number file, host.kept.get? number = some file → holds file

/-- What becomes of a host whose databases are numbered. -/
structure Grown (holds : DatabaseFile → Prop) (before after : Host) : Prop where
  numbered : after.Numbered holds
  known : ∀ number, before.databases.contains number = true →
    after.databases.contains number = true
  stood : ∀ place mode number, before.databases.contains number = true →
    after.files.node? place = some (.file mode (.database number)) →
      ∃ former, before.files.node? place = some (.file former (.database number))

theorem Grown.trans {holds : DatabaseFile → Prop} {first second third : Host}
    (early : Grown holds first second) (late : Grown holds second third) :
    Grown holds first third where
  numbered := late.numbered
  known number known := late.known number (early.known number known)
  stood place mode number known stands := by
    obtain ⟨former, stood⟩ := late.stood place mode number (early.known number known) stands
    exact early.stood place former number known stood

def Grows (holds : DatabaseFile → Prop) (before after : Host) : Prop :=
  before.Numbered holds → Grown holds before after

variable {holds : DatabaseFile → Prop} {host : Host}

theorem Numbered.unused (numbered : host.Numbered holds) :
    host.databases.contains host.freshNumber = false := by
  cases used : host.databases.contains host.freshNumber with
  | false => rfl
  | true =>
      obtain ⟨_, small⟩ := numbered.counted _ used
      exact absurd small (Int.lt_irrefl _)

theorem Numbered.found_or_fresh (numbered : host.Numbered holds)
    (stable : DatabaseFile.Stable holds) (found : Option Int) :
    holds (if found.isSome then host.database (found.getD host.freshNumber) else .fresh) := by
  split
  · exact numbered.file _
  · exact stable.fresh

namespace Grows

theorem refl (host : Host) : Grows holds host host := fun numbered =>
  ⟨numbered, fun _ known => known, fun _ mode _ _ stands => ⟨mode, stands⟩⟩

/-- Files may change, as long as no database comes to stand where none stood. -/
theorem of_files {before after : Host} (databases : after.databases = before.databases)
    (stood : after.files.StoodBefore before.files)
    (kept : ∀ number file, after.kept.get? number = some file →
      before.kept.get? number = some file ∨ file = before.database number) :
    Grows holds before after := by
  intro numbered
  refine ⟨⟨?_, ?_, ?_, ?_, ?_⟩, fun number known => databases ▸ known,
    fun place mode number _ => stood place mode number⟩
  · rw [databases]
    exact numbered.counted
  · intro place mode number stands
    obtain ⟨former, before⟩ := stood place mode number stands
    rw [databases]
    exact numbered.known place former number before
  · intro place other mode otherMode number stands standsOther
    obtain ⟨_, before⟩ := stood place mode number stands
    obtain ⟨_, beforeOther⟩ := stood other otherMode number standsOther
    exact numbered.alone place other _ _ number before beforeOther
  · intro number
    rw [database_eq databases]
    exact numbered.file number
  · intro number file found
    rcases kept number file found with same | rfl
    · exact numbered.kept number file same
    · exact numbered.file number

theorem of_same {before after : Host} (files : after.files = before.files)
    (databases : after.databases = before.databases) (kept : after.kept = before.kept) :
    Grows holds before after :=
  of_files databases (files ▸ .refl _) fun _ _ found => .inl (kept ▸ found)

theorem of_besides {place : Files.Place} {before after : Host}
    (besides : BesideOnly place before after) : Grows holds before after :=
  of_files besides.only.databases besides.stood fun number file found => by
    rw [besides.only.kept] at found
    exact .inl found

end Grows

theorem keep_grows {kept : Table Int DatabaseFile}
    (fine : host.Numbered holds → ∀ number file, kept.get? number = some file → holds file) :
    Grows holds host { host with kept := kept } := fun numbered =>
  ⟨⟨numbered.counted, numbered.known, numbered.alone, numbered.file, fine numbered⟩,
    fun _ known => known, fun _ mode _ _ stands => ⟨mode, stands⟩⟩

def Offered (host : Host) (number : Int) : Prop :=
  host.databases.contains number = true ∨ number = host.freshNumber

theorem database_put (host : Host) (number : Int) (file : DatabaseFile) (other : Int) :
    (host.putDatabase number file).database other =
      if other = number then file else host.database other := by
  split
  · rename_i same
    rw [same, database_put_self]
  · rename_i different
    exact database_put_of_ne host file different

theorem contains_put (host : Host) (number : Int) (file : DatabaseFile) (other : Int) :
    (host.putDatabase number file).databases.contains other = true ↔
      other = number ∨ host.databases.contains other = true := by
  rw [putDatabase, Table.contains_insert, Bool.or_eq_true, decide_eq_true_eq]

theorem Numbered.counted_put (numbered : host.Numbered holds) {number : Int}
    (offered : host.Offered number) (file : DatabaseFile) (other : Int)
    (known : (host.putDatabase number file).databases.contains other = true) :
    0 ≤ other ∧ other < (host.putDatabase number file).databases.size := by
  have size : (host.putDatabase number file).databases.size =
      if host.databases.contains number then host.databases.size
      else host.databases.size + 1 := Table.size_insert _ _ _
  rcases (contains_put host number file other).1 known with rfl | before
  · rcases offered with used | rfl
    · rw [size, if_pos used]
      exact numbered.counted other used
    · rw [size, if_neg (by simp [numbered.unused])]
      unfold freshNumber
      omega
  · have bounds := numbered.counted other before
    rw [size]
    split <;> omega

theorem put_database_grows {number : Int} (offered : host.Offered number) {file : DatabaseFile}
    (fine : holds file) : Grows holds host (host.putDatabase number file) := by
  intro numbered
  refine ⟨⟨numbered.counted_put offered file, ?_, numbered.alone, ?_, numbered.kept⟩,
    fun other known => known_put known number file, fun _ mode _ _ stands => ⟨mode, stands⟩⟩
  · intro place mode other stands
    exact known_put (numbered.known place mode other stands) number file
  · intro other
    rw [database_put]
    split
    · exact fine
    · exact numbered.file other

structure Homed (host : Host) (place : Files.Place) (number : Int) : Prop where
  known : host.databases.contains number = true
  only : ∀ other mode, host.files.node? other = some (.file mode (.database number)) →
    Files.key other = Files.key place

theorem Homed.grown {after : Host} {place : Files.Place} {number : Int}
    (homed : host.Homed place number) (grown : Grown holds host after) :
    after.Homed place number where
  known := grown.known number homed.known
  only other mode stands := by
    obtain ⟨former, stood⟩ := grown.stood other mode number homed.known stands
    exact homed.only other former stood

def FoundOrNext (host : Host) (place : Files.Place) (number : Int) : Prop :=
  (∃ mode, host.files.node? place = some (.file mode (.database number))) ∨
    number = host.freshNumber

namespace FoundOrNext

variable {place : Files.Place} {number : Int}

theorem of_found {found : Option Int}
    (stands : ∀ stored, found = some stored →
      ∃ mode, host.files.node? place = some (.file mode (.database stored))) :
    host.FoundOrNext place (found.getD host.freshNumber) := by
  cases found with
  | none => exact .inr rfl
  | some stored => exact .inl (stands stored rfl)

theorem offered (stands : host.FoundOrNext place number) (numbered : host.Numbered holds) :
    host.Offered number :=
  stands.imp_left fun ⟨mode, found⟩ => numbered.known place mode number found

theorem only (stands : host.FoundOrNext place number) (numbered : host.Numbered holds)
    (other : Files.Place) (mode : Nat)
    (found : host.files.node? other = some (.file mode (.database number))) :
    Files.key other = Files.key place := by
  rcases stands with ⟨its, here⟩ | rfl
  · exact numbered.alone place other its mode number here found
  · have used := numbered.known other mode _ found
    rw [numbered.unused] at used
    cases used

theorem besides {after : Host} (stands : host.FoundOrNext place number)
    (besides : BesideOnly place host after) : after.FoundOrNext place number := by
  unfold FoundOrNext freshNumber
  rw [besides.node, besides.only.databases]
  exact stands

end FoundOrNext

section File

variable {place : Files.Place} {number : Int}

theorem put_database_homed (numbered : host.Numbered holds)
    (stands : host.FoundOrNext place number) (file : DatabaseFile) :
    (host.putDatabase number file).Homed place number :=
  ⟨(contains_put host number file number).2 (.inl rfl), stands.only numbered⟩

/-- Nothing but the database itself is new in the tree. -/
theorem put_in_file_stands {file : DatabaseFile} {other : Files.Place} {mode : Nat} {stored : Int}
    (found : (host.putInFile place number file).files.node? other =
      some (.file mode (.database stored))) :
    (stored = number ∧ Files.key other = Files.key place) ∨
      host.files.node? other = some (.file mode (.database stored)) := by
  unfold putInFile at found
  dsimp only at found
  split at found
  · by_cases same : Files.key other = Files.key place
    · rw [Files.node_put_of_key _ _ _ same] at found
      cases found
      exact .inl ⟨rfl, same⟩
    · rw [Files.node_put_of_ne _ _ _ same] at found
      exact .inr found
  · exact .inr found

theorem put_in_file_kept (place : Files.Place) (number : Int) (file : DatabaseFile) (host : Host) :
    (host.putInFile place number file).kept = host.kept := by
  unfold putInFile
  dsimp only
  split <;> rfl

theorem put_in_file_homed (numbered : host.Numbered holds)
    (stands : host.FoundOrNext place number) (file : DatabaseFile) :
    (host.putInFile place number file).Homed place number := by
  constructor
  · rw [put_in_file_databases]
    exact (contains_put host number file number).2 (.inl rfl)
  · intro other mode found
    rcases put_in_file_stands found with ⟨_, here⟩ | before
    · exact here
    · exact stands.only numbered other mode before

theorem put_in_file_grows (stands : host.FoundOrNext place number) {file : DatabaseFile}
    (fine : holds file) : Grows holds host (host.putInFile place number file) := by
  intro numbered
  have put := put_database_grows (stands.offered numbered) fine numbered
  have homed := put_in_file_homed numbered stands file
  refine ⟨⟨?_, ?_, ?_, ?_, ?_⟩, ?_, ?_⟩
  · rw [put_in_file_databases]
    exact put.numbered.counted
  · intro other mode stored found
    rcases put_in_file_stands found with ⟨rfl, _⟩ | before
    · exact homed.known
    · rw [put_in_file_databases]
      exact put.numbered.known other mode stored before
  · intro first second mode otherMode stored found foundOther
    rcases put_in_file_stands found with ⟨rfl, here⟩ | before
    · exact (homed.only second otherMode foundOther).trans here.symm
    · rcases put_in_file_stands foundOther with ⟨rfl, here⟩ | beforeOther
      · exact here.trans (homed.only first mode found).symm
      · exact numbered.alone first second mode otherMode stored before beforeOther
  · intro other
    rw [database_eq (put_in_file_databases place number file host)]
    exact put.numbered.file other
  · intro other kept found
    rw [put_in_file_kept] at found
    exact numbered.kept other kept found
  · intro other known
    rw [put_in_file_databases]
    exact put.known other known
  · intro other mode stored known found
    rcases put_in_file_stands found with ⟨rfl, here⟩ | before
    · rcases stands with ⟨its, stands⟩ | rfl
      · have same : host.files.node? other = host.files.node? place :=
          congrArg host.files.nodes.get? here
        exact ⟨its, same.trans stands⟩
      · rw [numbered.unused] at known
        cases known
    · exact ⟨mode, before⟩

theorem retire_grows (place : Files.Place) (number : Int) (readOnly : Bool) (host : Host) :
    Grows holds host (host.retire place number readOnly) := by
  unfold retire
  split
  · split
    · exact .refl host
    · refine .of_files rfl ((Files.StoodBefore.discard _ _).trans (.discard _ _)) ?_
      intro other file found
      rcases Table.eq_or_get?_of_insert found with ⟨rfl, rfl⟩ | before
      · exact .inr rfl
      · exact .inl before
  · exact .refl host

theorem retire_store_grows (opened : OpenStore) (host : Host) :
    Grows holds host (host.retireStore opened) := by
  unfold retireStore
  split
  · exact retire_grows _ _ _ host
  · exact .refl host

end File

/-! ## Openings -/

/-- A store whose database is counted, and whose log stands where the database does, if anywhere. -/
structure Seated (host : Host) (opened : OpenStore) : Prop where
  known : host.databases.contains opened.database = true
  logged : ∀ place, opened.logged = some place →
    Files.Proper place ∧ host.Homed place opened.database

theorem Seated.grown {after : Host} {opened : OpenStore} (seated : host.Seated opened)
    (grown : Grown holds host after) : after.Seated opened where
  known := grown.known _ seated.known
  logged place stands :=
    ⟨(seated.logged place stands).1, (seated.logged place stands).2.grown grown⟩

/-- What comes of work on a host whose databases are numbered, and what its result is. -/
structure Yields {Error Result : Type} (holds : DatabaseFile → Prop)
    (fits : Host → Result → Prop) (host : Host) (ran : Except Error Result × Host) : Prop where
  grown : Grown holds host ran.2
  fits : ∀ result, ran.1 = .ok result → fits ran.2 result

namespace Yields

variable {Error Fault Result Other : Type} {fits : Host → Result → Prop}

theorem error {after : Host} (grown : Grown holds host after) (error : Error) :
    Yields holds fits host (.error error, after) := ⟨grown, nofun⟩

theorem ok {after : Host} (grown : Grown holds host after) {result : Result}
    (its : fits after result) :
    Yields holds fits host ((.ok result, after) : Except Error Result × Host) := by
  refine ⟨grown, ?_⟩
  rintro _ ⟨⟩
  exact its

theorem after {between : Host} (grown : Grown holds host between)
    {ran : Except Error Result × Host} (yields : Yields holds fits between ran) :
    Yields holds fits host ran := ⟨grown.trans yields.grown, yields.fits⟩

theorem inspect (numbered : host.Numbered holds) (look : Host → Except Error Result) :
    Yields holds (fun later result => later = host ∧ look host = .ok result) host
      (Attempt.inspect look host) := ⟨Grows.refl host numbered, fun _ looked => ⟨rfl, looked⟩⟩

theorem map_error {work : Attempt Host Error Result} (yields : Yields holds fits host (work host))
    (wrap : Error → Fault) : Yields holds fits host (work.mapError wrap host) := by
  unfold Attempt.mapError
  cases ran : work host with
  | mk answer later =>
      rw [ran] at yields
      cases answer with
      | error error => exact .error yields.grown (wrap error)
      | ok result => exact .ok yields.grown (yields.fits result rfl)

theorem bind {first : Attempt Host Error Result} {next : Result → Attempt Host Error Other}
    {fitsOther : Host → Other → Prop} (heads : Yields holds fits host (first host))
    (tails : ∀ result between, Grown holds host between → fits between result →
      Yields holds fitsOther between (next result between)) :
    Yields holds fitsOther host ((first >>= next) host) := by
  cases ran : first host with
  | mk answer between =>
      rw [ran] at heads
      cases answer with
      | error error =>
          rw [Attempt.bind_error ran]
          exact .error heads.grown error
      | ok result =>
          rw [Attempt.bind_ok ran]
          exact .after heads.grown (tails result between heads.grown (heads.fits result rfl))

end Yields

section Opening

variable {place : Files.Place}

theorem reach_yields (numbered : host.Numbered holds) (place : Files.Place)
    (readOnly lockless : Bool) :
    Yields holds (fun later found => ∀ stored, found = some stored →
      ∃ mode, later.files.node? place = some (.file mode (.database stored))) host
        (reach place readOnly lockless host) := by
  have besides := reach_besides place readOnly lockless host
  refine ⟨Grows.of_besides besides numbered, ?_⟩
  rintro _ reached stored rfl
  rw [besides.node]
  exact holding_database (reach_inv (Prod.ext reached rfl)).1

theorem start_log_yields (stable : DatabaseFile.Stable holds) (numbered : host.Numbered holds)
    {found : Option Int}
    (stands : ∀ stored, found = some stored →
      ∃ mode, host.files.node? place = some (.file mode (.database stored)))
    (readOnly lockless : Bool) :
    Yields holds (Homed · place) host (startLog place found readOnly lockless host) := by
  have here := FoundOrNext.of_found stands
  have fine := numbered.found_or_fresh stable found
  unfold startLog
  dsimp only
  split
  · cases readOnly with
    | true =>
        exact .ok (put_database_grows (here.offered numbered) fine numbered)
          (put_database_homed numbered here _)
    | false =>
        exact .ok (put_in_file_grows here fine numbered) (put_in_file_homed numbered here _)
  · split
    · rename_i logged
      refine .ok (Grows.refl host numbered) ?_
      cases found with
      | none => cases logged
      | some stored =>
          obtain ⟨mode, stored⟩ := stands stored rfl
          exact ⟨numbered.known place mode _ stored, here.only numbered⟩
    · split
      · exact .error (Grows.refl host numbered) _
      · have journaled := journal_change_besides place host
        split
        · rename_i ran
          rw [ran] at journaled
          exact .error (Grows.of_besides journaled numbered) _
        · rename_i between ran
          rw [ran] at journaled
          have settled := Grows.of_besides journaled numbered
          have still := here.besides journaled
          have put := put_in_file_grows still fine settled.numbered
          have homed := put_in_file_homed settled.numbered still
            (if found.isSome then host.database (found.getD host.freshNumber) else .fresh)
          refine .ok (settled.trans (put.trans (keep_grows ?_ put.numbered)))
            ⟨homed.known, homed.only⟩
          intro _ number file kept
          rcases Table.eq_or_get?_of_insert kept with ⟨-, rfl⟩ | before
          · exact fine
          · exact settled.numbered.kept number file before

theorem connect_yields (stable : DatabaseFile.Stable holds) (numbered : host.Numbered holds)
    {number : Int} (known : host.databases.contains number = true) (location : Location)
    (time : TimeSource) (readOnly : Bool) :
    Yields holds (fun later result => result.1.database = number ∧ result.1.logged = none ∧
      later.databases.contains number = true) host (connect location time readOnly number host) := by
  unfold connect
  dsimp only
  split
  · exact .error (Grows.refl host numbered) _
  · rename_i store connects
    refine .ok (put_database_grows (.inl known) ?_ numbered) ⟨rfl, rfl, known_put known _ _⟩
    unfold Store.connect at connects
    split at connects
    · rename_i migrated
      cases connects
      exact stable.migrated migrated (numbered.file number)
    · cases connects

theorem connect_memory_yields (stable : DatabaseFile.Stable holds) (numbered : host.Numbered holds)
    (location : Location) (time : TimeSource) (readOnly : Bool) {contents : DatabaseFile}
    (fine : holds contents) :
    Yields holds (fun later result => later.Seated result.1) host
      (connectMemory location time readOnly contents host) := by
  have put := put_database_grows (.inr rfl) fine numbered
  have known := (contains_put host host.freshNumber contents host.freshNumber).2 (.inl rfl)
  have connected := connect_yields stable put.numbered known location time readOnly
  refine ⟨put.trans connected.grown, fun result returned => ?_⟩
  obtain ⟨number, unlogged, seated⟩ := connected.fits result returned
  refine ⟨number ▸ seated, fun place logged => ?_⟩
  rw [unlogged] at logged
  cases logged

theorem connect_file_yields (stable : DatabaseFile.Stable holds) (numbered : host.Numbered holds)
    (location : Location) (time : TimeSource) (proper : Files.Proper place)
    (readOnly lockless : Bool) :
    Yields holds (fun later result => later.Seated result.1) host
      (connectFile location time place readOnly lockless host) := by
  refine ((reach_yields numbered place readOnly lockless).map_error _).bind
    fun found reached grown stands => ?_
  refine ((start_log_yields stable grown.numbered stands readOnly lockless).map_error _).bind
    fun number started logged homed => ?_
  cases lockless with
  | true =>
      have connected := connect_yields stable logged.numbered homed.known location time readOnly
      refine ⟨connected.grown, fun result returned => ?_⟩
      obtain ⟨same, unlogged, seated⟩ := connected.fits result returned
      refine ⟨same ▸ seated, fun place logged => ?_⟩
      rw [unlogged] at logged
      cases logged
  | false =>
      have besides := open_log_besides place started
      have opens : Yields holds (fun (later : Host) (_ : Unit) => later.Homed place number) started
          (openLog place started) :=
        ⟨Grows.of_besides besides logged.numbered, fun _ _ =>
          homed.grown (Grows.of_besides besides logged.numbered)⟩
      refine (opens.map_error _).bind fun _ ready grown still => ?_
      have connected := connect_yields stable grown.numbered still.known location time readOnly
      cases connects : connect location time readOnly number ready with
      | mk answer later =>
          rw [connects] at connected
          cases answer with
          | error error =>
              exact .error (connected.grown.trans (retire_grows _ _ _ _ connected.grown.numbered)) _
          | ok result =>
              obtain ⟨same, _, seated⟩ := connected.fits result rfl
              refine .ok connected.grown ⟨same ▸ seated, ?_⟩
              rintro _ ⟨⟩
              exact ⟨proper, same ▸ still.grown connected.grown⟩

theorem contact_yields (numbered : host.Numbered holds) (path : String) :
    Yields holds (fun (_ : Host) contact => ∀ place lockless,
      contact.target = .file place lockless → Files.Proper place) host (contact path host) := by
  have same : Grown holds host host := Grows.refl host numbered
  unfold contact
  refine Yields.bind ⟨same, fun _ _ => trivial⟩ fun address between grown (_ : True) => ?_
  split
  · exact .ok (Grows.refl between grown.numbered) nofun
  · unfold contactFile
    split
    · exact .error (Grows.refl between grown.numbered) _
    · rename_i place located
      have fits : ∀ other lockless, (if address.frozen then Target.frozen place
          else .file place address.isLockless) = .file other lockless → Files.Proper other := by
        intro other lockless chosen
        split at chosen
        · cases chosen
        · cases chosen
          exact Files.proper_of_engine_locate located
      dsimp only
      split
      · exact .ok (Grows.refl between grown.numbered) fits
      · split
        · have created : Grown holds between { between with
              files := between.files.put place (.file Files.ordinary (.bytes [])) } :=
            Grows.of_files rfl (.put_bytes _ _ _ _) (fun _ _ kept => .inl kept) grown.numbered
          exact .ok created fits
        · exact .error (Grows.refl between grown.numbered) _
      · exact .error (Grows.refl between grown.numbered) _

end Opening

end Host

end UnitState
