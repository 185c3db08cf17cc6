import UnitState.Proofs.CommandCalls
import UnitState.Proofs.DatabaseNumbers
import UnitState.Proofs.DurableFiles

/-!
# Hosts in order

In a host that is in order the databases are numbered, and the stores that are open on a file keep
their logs beside it. A host stays so whatever is done to it: by actions on its stores, by openings
that succeed, fail or crash, by calls, and by edits from outside that keep what is to hold of every
database.
-/

set_option autoImplicit false

namespace UnitState

def Edit.Keeps (edit : Edit) (holds : DatabaseFile → Prop) : Prop :=
  ∀ file later : DatabaseFile, file.edit edit = some later → holds file → holds later

namespace Host

variable {holds : DatabaseFile → Prop} {host : Host}

/-- A host whose databases are numbered and whose open stores are seated. -/
structure InOrder (holds : DatabaseFile → Prop) (host : Host) : Prop where
  numbered : host.Numbered holds
  stores : ∀ opened ∈ host.openStores, host.Seated opened

theorem mem_open_stores_iff {opened : OpenStore} :
    opened ∈ host.openStores ↔
      (∃ name, host.stores.get? name = some opened) ∨ host.slot.store = some opened := by
  unfold openStores
  rw [List.mem_append, List.mem_map, Option.mem_toList]
  refine or_congr_left ⟨?_, ?_⟩
  · rintro ⟨⟨name, _⟩, member, rfl⟩
    exact ⟨name, Table.get?_eq_some_iff.2 member⟩
  · rintro ⟨name, found⟩
    exact ⟨(name, opened), Table.get?_eq_some_iff.1 found, rfl⟩

theorem mem_open_stores_of_store {name : String} {opened : OpenStore}
    (named : host.store? name = some opened) : opened ∈ host.openStores := by
  unfold store? at named
  split at named
  · exact mem_open_stores_iff.2 (.inr named)
  · exact mem_open_stores_iff.2 (.inl ⟨name, named⟩)

theorem mem_open_stores_put {name : String} {given opened : OpenStore}
    (member : opened ∈ (host.putStore name given).openStores) :
    opened = given ∨ opened ∈ host.openStores := by
  unfold putStore at member
  split at member
  · rcases mem_open_stores_iff.1 member with named | shared
    · exact .inr (mem_open_stores_iff.2 (.inl named))
    · exact .inl (Option.some.inj shared).symm
  · rcases mem_open_stores_iff.1 member with ⟨other, named⟩ | shared
    · rcases Table.eq_or_get?_of_insert named with ⟨-, rfl⟩ | before
      · exact .inl rfl
      · exact .inr (mem_open_stores_iff.2 (.inl ⟨other, before⟩))
    · exact .inr (mem_open_stores_iff.2 (.inr shared))

namespace InOrder

theorem grown {after : Host} (inOrder : host.InOrder holds) (grown : Grown holds host after)
    (stores : ∀ opened ∈ after.openStores, opened ∈ host.openStores ∨ after.Seated opened) :
    after.InOrder holds where
  numbered := grown.numbered
  stores opened member := by
    rcases stores opened member with before | seated
    · exact (inOrder.stores opened before).grown grown
    · exact seated

theorem grown_aside {after : Host} (inOrder : host.InOrder holds)
    (grown : Grown holds host after) (same : SameStores host after) : after.InOrder holds := by
  refine inOrder.grown grown fun opened member => .inl ?_
  unfold openStores at member ⊢
  rw [same.stores, same.slot] at member
  exact member

theorem fewer {after : Host} (inOrder : host.InOrder holds) (files : after.files = host.files)
    (databases : after.databases = host.databases) (kept : after.kept = host.kept)
    (stores : ∀ opened ∈ after.openStores, opened ∈ host.openStores) : after.InOrder holds :=
  inOrder.grown (Grows.of_same files databases kept inOrder.numbered) fun opened member =>
    .inl (stores opened member)

theorem fresh_unused (inOrder : host.InOrder holds) :
    host.databases.contains host.freshNumber = false := inOrder.numbered.unused

/-- A file can be opened anywhere beside which there is room. -/
theorem orderly (inOrder : host.InOrder holds) {path : String} {place : Files.Place}
    (located : host.files.engineLocate? path = some place)
    (logRoom : Files.HasRoom place logSuffix) (indexRoom : Files.HasRoom place indexSuffix) :
    host.Orderly place where
  fresh name opened named same := by
    have known := (inOrder.stores opened (mem_open_stores_of_store named)).known
    rw [same, inOrder.fresh_unused] at known
    cases known
  logs name opened mode named stands := by
    have seated := inOrder.stores opened (mem_open_stores_of_store named)
    cases logged : opened.logged with
    | none => exact .inl rfl
    | some other =>
        obtain ⟨proper, homed⟩ := seated.logged other logged
        have same := homed.only place mode stands
        exact .inr (congrArg some
          ((Files.proper_of_engine_locate located).eq_of_key proper same).symm)
  logRoom := logRoom
  indexRoom := indexRoom

end InOrder

/-! ## Actions on stores -/

/-- Whatever comes of it, the work leaves a host in order if it finds it so. -/
def Orders {Answer : Type} (holds : DatabaseFile → Prop) (work : Host → Answer × Host) : Prop :=
  ∀ host : Host, host.InOrder holds → (work host).2.InOrder holds

theorem Orders.bind {Error Result Other : Type} {first : Attempt Host Error Result}
    {next : Result → Attempt Host Error Other} (heads : Orders holds first)
    (tails : ∀ result, Orders holds (next result)) : Orders holds (first >>= next) := by
  intro host inOrder
  have headed := heads host inOrder
  refine Attempt.after_bind (fun _ _ ran => ?_) fun result between ran => ?_
  · rw [ran] at headed
    exact headed
  · rw [ran] at headed
    exact tails result between headed

theorem Orders.map_error {Error Fault Result : Type} {work : Attempt Host Error Result}
    (orders : Orders holds work) (wrap : Error → Fault) : Orders holds (work.mapError wrap) := orders

theorem Orders.of_files {Answer : Type} {work : Host → Answer × Host}
    (only : ∀ host, FilesOnly host (work host).2)
    (stood : ∀ host, (work host).2.files.StoodBefore host.files) : Orders holds work := by
  intro host inOrder
  have grows : Grows holds host (work host).2 :=
    .of_files (only host).databases (stood host) fun number file found =>
      .inl ((only host).kept ▸ found)
  exact inOrder.grown_aside (grows inOrder.numbered) (only host).stores

namespace InOrder

theorem put_store (inOrder : host.InOrder holds) {opened : OpenStore}
    (seated : host.Seated opened) (name : String) :
    (host.putStore name opened).InOrder holds := by
  have grows : Grows holds host (host.putStore name opened) := by
    unfold putStore
    split <;> exact .of_same rfl rfl rfl
  have grown := grows inOrder.numbered
  refine inOrder.grown grown fun found member => ?_
  rcases mem_open_stores_put member with rfl | before
  · exact .inr (seated.grown grown)
  · exact .inl before

/-- An action that leaves the schema alone may leave its file behind. -/
theorem leave (stable : DatabaseFile.Stable holds) (inOrder : host.InOrder holds)
    {opened : OpenStore} (seated : host.Seated opened) {store : Store}
    (schema : Store.SameSchema ⟨opened.handle, host.database opened.database⟩ store) :
    (host.putDatabase opened.database store.file).InOrder holds ∧
      (host.putDatabase opened.database store.file).Seated
        { opened with handle := store.handle } := by
  have fine : holds store.file :=
    stable.same schema.version schema.hasTables (inOrder.numbered.file opened.database)
  have put := put_database_grows (.inl seated.known) fine inOrder.numbered
  have still := seated.grown put
  exact ⟨inOrder.grown put fun _ member => .inl member, still.known, still.logged⟩

theorem retire_store (inOrder : host.InOrder holds) (opened : OpenStore) :
    (host.retireStore opened).InOrder holds :=
  inOrder.grown_aside (retire_store_grows opened host inOrder.numbered)
    (retire_store_aside opened host)

theorem release (stable : DatabaseFile.Stable holds) (inOrder : host.InOrder holds)
    {opened : OpenStore} (seated : host.Seated opened) :
    (Host.release opened host).InOrder holds := by
  unfold Host.release
  split
  · exact inOrder
  · exact (inOrder.leave stable seated (Store.close_spares _)).1.retire_store _

theorem release_name (stable : DatabaseFile.Stable holds) (inOrder : host.InOrder holds)
    (name : String) : (host.releaseName name).InOrder holds := by
  unfold releaseName
  split
  · exact inOrder
  · rename_i opened named
    have seated := inOrder.stores opened (mem_open_stores_iff.2 (.inl ⟨name, named⟩))
    have left : ({ host with stores := host.stores.erase name } : Host).InOrder holds := by
      refine inOrder.fewer rfl rfl rfl fun found member => mem_open_stores_iff.2 ?_
      refine (mem_open_stores_iff.1 member).imp_left fun ⟨other, others⟩ => ⟨other, ?_⟩
      by_cases same : other = name
      · rw [same, Table.get?_erase_self] at others
        cases others
      · rwa [Table.get?_erase_of_ne _ same] at others
    exact left.release stable (seated.grown (Grows.of_same rfl rfl rfl inOrder.numbered))

end InOrder

theorem on_orders (stable : DatabaseFile.Stable holds) (name : String) {Result : Type}
    {action : Action Result} (spares : Store.Spares action) :
    Orders holds (Host.on name action) := by
  intro host inOrder
  unfold Host.on act
  cases named : host.store? name with
  | none => exact inOrder
  | some opened =>
      have seated := inOrder.stores opened (mem_open_stores_of_store named)
      obtain ⟨left, still⟩ := inOrder.leave stable seated (spares _)
      have put := left.put_store still name
      dsimp only
      split
      · exact put.retire_store _
      · exact put

theorem reset_slot_orders (stable : DatabaseFile.Stable holds) : Orders holds resetSlot := by
  intro host inOrder
  unfold resetSlot
  split
  · exact inOrder
  · split
    · exact inOrder
    · rename_i opened shared
      have seated := inOrder.stores opened (mem_open_stores_iff.2 (.inr shared))
      have left : ({ host with slot.store := none } : Host).InOrder holds := by
        refine inOrder.fewer rfl rfl rfl fun found member => mem_open_stores_iff.2 (.inl ?_)
        rcases mem_open_stores_iff.1 member with named | gone
        · exact named
        · cases gone
      exact left.release stable (seated.grown (Grows.of_same rfl rfl rfl inOrder.numbered))

/-! ## Openings and edits -/

theorem InOrder.shared_known (inOrder : host.InOrder holds) {sharedAs : Option String}
    {number : Int} (shared : host.sharedNumber? sharedAs = some number) :
    host.databases.contains number = true := by
  obtain ⟨name, _, opens⟩ := Option.bind_eq_some_iff.1 shared
  obtain ⟨opened, found, same⟩ := Option.bind_eq_some_iff.1 opens
  cases same
  exact (inOrder.stores opened (List.mem_of_find?_eq_some found)).known

theorem frozen_contents_fine (stable : DatabaseFile.Stable holds) (numbered : host.Numbered holds)
    {place : Files.Place} {contents : DatabaseFile}
    (frozen : host.frozenContents place = .ok contents) : holds contents := by
  unfold frozenContents at frozen
  split at frozen
  · cases frozen
    exact stable.fresh
  · cases frozen
  · rename_i number _
    have fine : holds ((host.kept.get? number).getD (host.database number)) := by
      cases kept : host.kept.get? number with
      | none => exact numbered.file number
      | some file => exact numbered.kept number file kept
    cases frozen
    refine stable.same ?_ ?_ fine <;> rfl

theorem connect_to_yields (stable : DatabaseFile.Stable holds) (inOrder : host.InOrder holds)
    (location : Location) (time : TimeSource) {contact : Contact}
    (proper : ∀ place lockless, contact.target = .file place lockless → Files.Proper place) :
    Yields holds (fun later result => later.Seated result.1) host
      (connectTo location time contact host) := by
  have numbered := inOrder.numbered
  obtain ⟨target, readOnly⟩ := contact
  cases target with
  | memory sharedAs =>
      have naming : ∀ {result : Opened} {later : Host}, later.Numbered holds →
          later.Seated result.1 → Yields holds (fun later result => later.Seated result.1) later
            ((pure ({ result.1 with sharedAs := sharedAs }, result.2) : OpeningWork Opened) later) :=
        fun numbered seated => .ok (Grows.refl _ numbered) ⟨seated.known, seated.logged⟩
      refine (Yields.inspect numbered _).bind ?_
      rintro shared _ _ ⟨rfl, its⟩
      cases shared with
      | none =>
          exact (connect_memory_yields stable numbered location time readOnly stable.fresh).bind
            fun result later grown seated => naming grown.numbered seated
      | some number =>
          have known := inOrder.shared_known (Except.ok.inj its)
          refine (connect_yields stable numbered known location time readOnly).bind ?_
          rintro result later grown ⟨same, unlogged, still⟩
          refine naming grown.numbered ⟨same ▸ still, fun place logged => ?_⟩
          rw [unlogged] at logged
          cases logged
  | file place lockless =>
      exact connect_file_yields stable numbered location time (proper place lockless rfl) readOnly
        lockless
  | frozen place =>
      refine (Yields.inspect numbered _).bind ?_
      rintro contents _ _ ⟨rfl, its⟩
      refine connect_memory_yields stable numbered location time true ?_
      cases frozen : Host.frozenContents place _ with
      | error fault =>
          rw [frozen] at its
          cases its
      | ok found =>
          rw [frozen] at its
          cases its
          exact frozen_contents_fine stable numbered frozen

/-- What comes of an opening: the host is in order, and a store that was opened is seated. -/
structure OpensInOrder (holds : DatabaseFile → Prop) (ran : Ending StoreError Opened × Host) :
    Prop where
  inOrder : ran.2.InOrder holds
  seated : ∀ result, ran.1 = .returned result → ran.2.Seated result.1

namespace OpensInOrder

theorem failed (inOrder : host.InOrder holds) (error : StoreError) :
    OpensInOrder holds (.failed error, host) where
  inOrder := inOrder
  seated _ returned := by cases returned

theorem crashed (inOrder : host.InOrder holds) : OpensInOrder holds (.crashed, host) where
  inOrder := inOrder
  seated _ returned := by cases returned

theorem of_yields (inOrder : host.InOrder holds) {work : OpeningWork Opened}
    (yields : Yields holds (fun later result => later.Seated result.1) host (work host))
    (aside : SameStores host (work host).2) :
    OpensInOrder holds (.ofExcept (work host).1, (work host).2) where
  inOrder := inOrder.grown_aside yields.grown aside
  seated result returned := by
    cases answer : (work host).1 with
    | error error =>
        rw [answer] at returned
        cases returned
    | ok opened =>
        rw [answer] at returned
        cases returned
        exact yields.fits result answer

end OpensInOrder

theorem open_with_in_order (stable : DatabaseFile.Stable holds) (inOrder : host.InOrder holds)
    (settings : Settings) (time : TimeSource) (sharing : Bool) :
    OpensInOrder holds (openWith settings time sharing host) := by
  unfold openWith
  split
  · exact .of_yields inOrder
      (connect_memory_yields stable inOrder.numbered .memory time false stable.fresh)
      (connect_memory_aside _ _ _ _ host)
  · split
    · exact .failed inOrder _
    · rename_i path _ _ files prepares
      have prepared : ({ host with files := files } : Host).InOrder holds :=
        inOrder.grown_aside
          (Grows.of_files rfl (.prepare prepares) (fun _ _ found => .inl found) inOrder.numbered)
          (.of_parts host files host.databases host.kept)
      have contacts := contact_yields prepared.numbered path
      have reached := prepared.grown_aside contacts.grown (contact_files_only path _).stores
      split
      · rename_i ran
        rw [ran] at reached
        exact .failed reached _
      · rename_i contact between ran
        rw [ran] at reached contacts
        have proper := contacts.fits contact rfl
        split
        · exact .crashed reached
        · refine .of_yields reached (connect_to_yields stable reached _ time ?_)
            (connect_to_aside _ _ _ between)
          split
          · exact proper
          · unfold Contact.alone
            split
            · nofun
            · exact proper
            · exact proper

theorem open_from_in_order (stable : DatabaseFile.Stable holds) (inOrder : host.InOrder holds)
    (source : StoreSource) : OpensInOrder holds (openFrom source host) := by
  unfold openFrom
  split
  · exact .failed inOrder _
  · exact open_with_in_order stable inOrder _ _ true

theorem open_under_orders (stable : DatabaseFile.Stable holds) (name : String)
    (source : StoreSource) : Orders holds (Task.openUnder name source) := by
  intro host inOrder
  unfold Task.openUnder
  split
  · exact inOrder
  · have opens := open_from_in_order stable (inOrder.release_name stable name) source
    split
    · rename_i opened _ later ran
      rw [ran] at opens
      exact opens.inOrder.put_store (opens.seated _ rfl) name
    · rename_i ran
      rw [ran] at opens
      exact opens.inOrder
    · rename_i ran
      rw [ran] at opens
      exact opens.inOrder

theorem run_call_orders (stable : DatabaseFile.Stable holds) (words : List String) :
    Orders holds (runCall words) := by
  intro host inOrder
  unfold runCall
  split
  · exact inOrder
  · exact inOrder
  · rename_i call _
    have opens : OpensInOrder holds (openFor call.database host) := by
      unfold openFor
      split
      · exact .failed inOrder _
      · exact open_with_in_order stable inOrder _ _ false
    split
    · rename_i ran
      rw [ran] at opens
      exact opens.inOrder
    · rename_i ran
      rw [ran] at opens
      exact opens.inOrder
    · rename_i opened logged between ran
      have outside : opened.handle.Outside := open_for_outside ran
      rw [ran] at opens
      have seated : between.Seated opened := opens.seated _ rfl
      have schema : Store.SameSchema ⟨opened.handle, between.database opened.database⟩
          (call.command.run ⟨opened.handle, between.database opened.database⟩).2 := by
        constructor <;> rw [Command.run_file outside]
      obtain ⟨left, still⟩ := opens.inOrder.leave stable seated schema
      exact left.release stable still

/-! ## Edits -/

theorem InOrder.retire (inOrder : host.InOrder holds) (place : Files.Place) (number : Int)
    (readOnly : Bool) : (host.retire place number readOnly).InOrder holds :=
  inOrder.grown_aside (retire_grows place number readOnly host inOrder.numbered)
    (retire_aside place number readOnly host)

section Edits

variable {asked : Edit} (stable : DatabaseFile.Stable holds) (keeps : asked.Keeps holds)

include stable keeps

omit stable in
theorem edit_memory_orders (sharedAs : Option String) (readOnly : Bool) :
    Orders holds (editMemory sharedAs readOnly asked) := by
  intro host inOrder
  unfold editMemory
  cases readOnly with
  | true => exact inOrder
  | false =>
      cases shared : host.sharedNumber? sharedAs with
      | none =>
          dsimp only
          split <;> exact inOrder
      | some number =>
          simp only [Bool.false_eq_true, if_false, Option.map_some, Option.getD_some]
          split
          · exact inOrder
          · rename_i later edited
            have fine := keeps _ later edited (inOrder.numbered.file number)
            have put := put_database_grows (.inl (inOrder.shared_known shared)) fine
              inOrder.numbered
            exact inOrder.grown put fun _ member => .inl member

theorem edit_file_orders (place : Files.Place) (readOnly lockless : Bool) :
    Orders holds (editFile place readOnly lockless asked) := by
  intro host inOrder
  have reached := reach_yields inOrder.numbered place readOnly lockless
  have between := inOrder.grown_aside reached.grown
    (reach_besides place readOnly lockless host).only.stores
  refine Attempt.after_bind (fun _ _ ran => ?_) fun found later ran => ?_
  · rw [ran] at between
    exact between
  · rw [ran] at reached between
    have here := FoundOrNext.of_found (reached.fits found rfl)
    have fine := between.numbered.found_or_fresh stable found
    have retired : ∀ {after : Host}, after.InOrder holds →
        (if after.isLogged (found.getD later.freshNumber) then
          after.retire place (found.getD later.freshNumber) readOnly else after).InOrder holds := by
      intro after ordered
      split
      · exact ordered.retire place _ readOnly
      · exact ordered
    dsimp only
    split
    · exact retired between
    · rename_i database edits
      have edited : holds database := by
        split at edits
        · cases edits
        · exact keeps _ database edits fine
      split
      · have put := put_database_grows (here.offered between.numbered) edited between.numbered
        exact retired (between.grown put fun _ member => .inl member)
      · have journaled := journal_change_besides place later
        have settled := between.grown_aside (Grows.of_besides journaled between.numbered)
          journaled.only.stores
        split
        · rename_i changed
          rw [changed] at settled
          exact settled
        · rename_i last changed
          rw [changed] at journaled settled
          exact settled.grown_aside
            (put_in_file_grows (here.besides journaled) edited settled.numbered)
            (put_in_file_aside _ _ _ last)

theorem edit_orders (path : String) : Orders holds (edit path asked) := by
  unfold edit
  refine Orders.map_error (.bind (fun host inOrder => ?_) fun contact => ?_) _
  · exact inOrder.grown_aside (contact_yields inOrder.numbered path).grown
      (contact_files_only path host).stores
  · split
    · exact edit_memory_orders keeps _ _
    · exact edit_file_orders stable keeps _ _ _
    · exact fun _ inOrder => inOrder

end Edits

end Host

end UnitState
