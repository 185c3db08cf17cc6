import UnitState.Proofs.BodyFrame
import UnitState.Proofs.OrderlyHosts

/-!
# Hosts of scenarios

In every host that a scenario makes of a new one, the next number is not in use, and the stores
that are open on a file keep their logs beside it. If no edit from outside records a version, every
database that has the current one has its tables.
-/

set_option autoImplicit false

namespace UnitState

namespace Host

variable {holds : DatabaseFile → Prop}

/-! ## Bodies -/

/-- A body that leaves a host in order if it finds it so, whatever it tells. -/
def BodyOrders {Told Result : Type} (holds : DatabaseFile → Prop) (body : HostBody Told Result) :
    Prop :=
  ∀ (host : Host) (told : Told), host.InOrder holds → (body (host, told)).2.1.InOrder holds

section Bodies

variable {Told Result : Type}

theorem hook_scope_orders (stable : DatabaseFile.Stable holds) (store name : String)
    {body : Int → HostBody Told Result} (orders : ∀ revision, BodyOrders holds (body revision)) :
    BodyOrders holds (hookScope store name body) := by
  intro host told inOrder
  refine hook_scope_keeps (·.1.InOrder holds) ?_ ?_ ?_ ?_ inOrder
  · exact fun row between _ ordered =>
      on_orders stable store (Store.begin_scope_spares row) between ordered
  · exact fun save between _ ordered =>
      on_orders stable store (Store.flush_spares save) between ordered
  · exact fun _ _ _ ordered => ordered.fewer rfl rfl rfl fun _ member => member
  · exact fun revision state => orders revision state.1 state.2

theorem run_hook_orders (stable : DatabaseFile.Stable holds) (store : String)
    (invocation : Invocation) {body : Int → HookChanges → HostBody Told Result}
    (orders : ∀ revision changes, BodyOrders holds (body revision changes)) :
    BodyOrders holds (runHook store invocation body) := by
  refine hook_scope_orders stable store invocation.hookName fun revision host told inOrder => ?_
  refine Body.after_keeps (fun state : Host × Told => state.1.InOrder holds) ?_ ?_ inOrder
  · exact fun state =>
      on_orders stable store (Store.record_invocation_spares _ _) state.1
  · exact fun changes state => orders revision changes state.1 state.2

theorem with_slot_orders (stable : DatabaseFile.Stable holds) {body : HostBody Told Result}
    (orders : BodyOrders holds body) : BodyOrders holds (withSlot body) := by
  have released : ∀ {after : Host}, after.InOrder holds → after.releaseSlot.InOrder holds :=
    fun ordered => ordered.fewer rfl rfl rfl fun _ member => member
  intro host told inOrder
  have held : ({ host with slot.held := true } : Host).InOrder holds :=
    inOrder.fewer rfl rfl rfl fun _ member => member
  unfold withSlot
  dsimp only
  split
  · exact inOrder
  · split
    · exact released (orders _ told held)
    · have opens := open_from_in_order stable held (.environment none)
      split
      · rename_i opened _ later ran
        rw [ran] at opens
        have seated : later.Seated opened := opens.seated _ rfl
        have filled : ({ later with slot.store := some opened } : Host).InOrder holds := by
          have grown : Grown holds later { later with slot.store := some opened } :=
            Grows.of_same rfl rfl rfl opens.inOrder.numbered
          refine opens.inOrder.grown grown fun found member => ?_
          rcases mem_open_stores_iff.1 member with named | ⟨⟨⟩⟩
          · exact .inl (mem_open_stores_iff.2 (.inl named))
          · exact .inr (seated.grown grown)
        exact released (orders _ told filled)
      · rename_i ran
        rw [ran] at opens
        exact released opens.inOrder
      · rename_i ran
        rw [ran] at opens
        exact released opens.inOrder

end Bodies

end Host

/-! ## Tasks and steps -/

namespace Task

def edits : Task → List Edit
  | edit _ asked => [asked]
  | _ => []

end Task

namespace Step

mutual

/-- The edits from outside that are part of a step. -/
def edits : Step → List Edit
  | task _ content => content.edits
  | guarded _ _ body _ _ => editsOf body
  | inScope _ _ body _ _ => editsOf body
  | inHook _ _ body _ _ => editsOf body
  | withSlot _ body _ _ => editsOf body

def editsOf : List Step → List Edit
  | [] => []
  | head :: tail => head.edits ++ editsOf tail

end

end Step

namespace Host

variable {holds : DatabaseFile → Prop}

theorem change_files_orders {change : Files.Change} (moves : Files.MovesNothing change) :
    Orders holds (changeFiles change) :=
  .of_files (fun _ => ⟨_, rfl⟩) fun host => moves host.files

theorem of_change_orders {change : Attempt Host FileFault Unit} (orders : Orders holds change) :
    Orders holds (Task.ofChange change) := by
  intro host inOrder
  have changed := orders host inOrder
  unfold Task.ofChange
  cases ran : change host with
  | mk answer later =>
      rw [ran] at changed
      cases answer <;> exact changed

theorem of_work_orders {Result : Type} {work : Work Result} (orders : Orders holds work)
    (print : Result → TaskReply) : Orders holds (Task.ofWork print work) := by
  intro host inOrder
  have worked := orders host inOrder
  unfold Task.ofWork
  cases ran : work host with
  | mk answer later =>
      rw [ran] at worked
      cases answer <;> exact worked

section Orders

variable (stable : DatabaseFile.Stable holds)

include stable

theorem perform_orders (store : String) {content : Task}
    (keeps : ∀ edit ∈ content.edits, edit.Keeps holds) : Orders holds (content.perform store) := by
  cases content with
  | request asked => exact of_work_orders (on_orders stable store asked.answer_spares) _
  | openStore source => exact open_under_orders stable store source
  | resetSlot => exact of_work_orders (reset_slot_orders stable) _
  | makeDirectory path =>
      exact of_change_orders (change_files_orders (Files.make_directory_moves_nothing path))
  | removeFile path => exact of_change_orders (change_files_orders (Files.remove_moves_nothing path))
  | setFileMode path mode =>
      exact of_change_orders (change_files_orders (Files.set_mode_moves_nothing path mode))
  | writeFile path bytes =>
      refine of_change_orders fun host inOrder => ?_
      unfold Host.writeFile
      split
      · exact inOrder
      · exact change_files_orders (Files.write_moves_nothing path bytes) host inOrder
  | edit path asked =>
      exact of_work_orders (edit_orders stable (keeps asked List.mem_cons_self) path) _
  | call words => exact run_call_orders stable words
  | dropStore =>
      intro host inOrder
      simp only [Task.perform]
      split
      · exact inOrder
      · split
        · exact inOrder
        · exact inOrder.release_name stable store
  | setClock | setVariables =>
      exact fun host inOrder => inOrder.fewer rfl rfl rfl fun _ member => member
  | fileMode path =>
      intro host inOrder
      simp only [Task.perform]
      split <;> exact inOrder
  | isSlotInitialized | fileExists | refused => exact fun _ inOrder => inOrder

theorem finish_orders (store : String) (revision : Int) (stopped : Option StoreError)
    (ending : GuardEnd) : Orders holds (ending.finish store revision stopped) := by
  have flushes : ∀ save, Orders holds (Host.on store (Store.flush save)) := fun save =>
    on_orders stable store (Store.flush_spares save)
  intro host inOrder
  cases stopped with
  | some error => exact flushes false host inOrder
  | none =>
      cases ending with
      | commit => exact flushes true host inOrder
      | rollback | drop => exact flushes false host inOrder
      | detach => exact inOrder

end Orders

mutual

/-- A step leaves a host in order, whatever it does and however its body ends. -/
theorem answer_orders (stable : DatabaseFile.Stable holds) : ∀ step : Step,
    (∀ edit ∈ step.edits, edit.Keeps holds) → Orders holds step.answer
  | .task store content, keeps => fun host inOrder =>
      perform_orders stable store keeps host inOrder
  | .guarded store name body ending stops, keeps => by
      intro host inOrder
      have opened : (enterScope store name host).2.InOrder holds :=
        on_orders stable store (Store.begin_scope_spares _) host inOrder
      unfold Step.answer
      split
      · rename_i ran
        rw [ran] at opened
        exact opened
      · rename_i revision between ran
        rw [ran] at opened
        have named : ({ between with inScope := store :: between.inScope } : Host).InOrder holds :=
          opened.fewer rfl rfl rfl fun _ member => member
        have left := run_all_orders stable stops body keeps _ named
        exact finish_orders stable store revision _ ending _
          (left.fewer rfl rfl rfl fun _ member => member)
  | .inScope store name body ending stops, keeps => fun host inOrder =>
      hook_scope_orders stable store name
        (fun _ between _ ordered => run_all_orders stable stops body keeps between ordered) host none
        inOrder
  | .inHook store hook body ending stops, keeps => by
      intro host inOrder
      unfold Step.answer
      split
      · exact inOrder
      · have runs : ∀ name, BodyOrders holds
            (runHook name (hook.invocation host.program) fun revision changes (between, _) =>
              let ((answers, stopped), later) := Step.runAll stops body between
              (ending.conclude (some revision) stopped, later,
                (⟨some (hook.report changes), answers⟩ : Step.HookTold))) :=
          fun name => run_hook_orders stable name _
            fun _ _ between _ ordered => run_all_orders stable stops body keeps between ordered
        dsimp only
        split
        · exact with_slot_orders stable (runs slotName) host ⟨none, []⟩ inOrder
        · exact runs store host ⟨none, []⟩ inOrder
  | .withSlot store body ending stops, keeps => by
      intro host inOrder
      have runs : BodyOrders holds (withSlot fun (between, (_ : List StepAnswer)) =>
          let ((answers, stopped), later) := Step.runAll stops body between
          (ending.conclude (none : Option Int) stopped, later, answers)) :=
        with_slot_orders stable
          fun between _ ordered => run_all_orders stable stops body keeps between ordered
      unfold Step.answer
      exact runs host [] inOrder

theorem run_all_orders (stable : DatabaseFile.Stable holds) (stops : Bool) : ∀ steps : List Step,
    (∀ edit ∈ Step.editsOf steps, edit.Keeps holds) → Orders holds (Step.runAll stops steps)
  | [], _ => fun _ inOrder => inOrder
  | head :: tail, keeps => by
      intro host inOrder
      have headed := answer_orders stable head
        (fun edit member => keeps edit (List.mem_append_left _ member)) host inOrder
      have tailed := run_all_orders stable stops tail
        (fun edit member => keeps edit (List.mem_append_right _ member)) _ headed
      unfold Step.runAll
      dsimp only
      split
      · exact headed
      · exact tailed

end

/-! ## Hosts of scenarios -/

def afterSteps (program : String) (clock : Timestamp) (steps : List Step) : Host :=
  (Step.runAll false steps (.initial program clock)).2

theorem initial_in_order (stable : DatabaseFile.Stable holds) (program : String)
    (clock : Timestamp) : (initial program clock).InOrder holds := by
  have empty : ∀ place mode number,
      (initial program clock).files.node? place ≠ some (.file mode (.database number)) := by
    intro place mode number stands
    obtain ⟨_, stood⟩ := Files.StoodBefore.put_directory _ Files.workingDirectory _ _ _ _ stands
    obtain ⟨_, stood⟩ := Files.StoodBefore.put_directory _ [] _ _ _ _ stood
    cases stood
  exact
    { numbered :=
        { counted := nofun
          known := fun place mode number stands => absurd stands (empty place mode number)
          alone := fun place _ mode _ number stands => absurd stands (empty place mode number)
          file := fun _ => stable.fresh
          kept := nofun }
      stores := List.forall_mem_nil _ }

theorem after_steps_in_order (stable : DatabaseFile.Stable holds) (program : String)
    (clock : Timestamp) {steps : List Step}
    (keeps : ∀ edit ∈ Step.editsOf steps, edit.Keeps holds) :
    (afterSteps program clock steps).InOrder holds :=
  run_all_orders stable false steps keeps _ (initial_in_order stable program clock)

theorem stable_true : DatabaseFile.Stable fun _ => True where
  fresh := trivial
  same _ _ _ := trivial
  migrated _ _ := trivial

theorem after_steps_unused (program : String) (clock : Timestamp) (steps : List Step) :
    (afterSteps program clock steps).databases.contains
      (afterSteps program clock steps).freshNumber = false :=
  (after_steps_in_order stable_true program clock fun _ _ _ _ _ _ => trivial).fresh_unused

/-- A file can be opened wherever there is room for its log. -/
theorem after_steps_orderly (program : String) (clock : Timestamp) (steps : List Step)
    {path : String} {place : Files.Place}
    (located : (afterSteps program clock steps).files.engineLocate? path = some place)
    (logRoom : Files.HasRoom place logSuffix) (indexRoom : Files.HasRoom place indexSuffix) :
    (afterSteps program clock steps).Orderly place :=
  (after_steps_in_order stable_true program clock fun _ _ _ _ _ _ => trivial).orderly located
    logRoom indexRoom

/-- A store that is opened on a file in a scenario is durable from then on. -/
theorem after_steps_durable (program : String) (clock : Timestamp) (steps : List Step)
    {path name : String} {address : Address} {place : Files.Place} {first : Host}
    {source : StoreSource} {busy : Nat} {time : TimeSource} {reply : TaskReply}
    (asks : (afterSteps program clock steps).settingsOf source = .ok (⟨.file path, busy⟩, time))
    (means : Address.ofPath path = .ok address) (file : address.MeansFile)
    (lasting : Lasting (afterSteps program clock steps).files path address)
    (located : (afterSteps program clock steps).files.engineLocate? address.name = some place)
    (logRoom : Files.HasRoom place logSuffix) (indexRoom : Files.HasRoom place indexSuffix)
    (vacant : (afterSteps program clock steps).store? name = none)
    (opens : Task.openUnder name source (afterSteps program clock steps) =
      (.returned reply, first)) :
    ∃ number, Durable path address number first := by
  obtain ⟨number, ready, _⟩ := ready_of_opened asks means file lasting located
    (after_steps_orderly program clock steps located logRoom indexRoom) vacant opens
  exact ⟨number, durable_of_ready means file logRoom indexRoom ready⟩

/-! ### Tables -/

/-- A database that has its tables, if it has the current version. -/
def Tabled (file : DatabaseFile) : Prop :=
  file.version = Schema.currentVersion → file.hasTables = true

theorem stable_tabled : DatabaseFile.Stable Tabled where
  fresh := by
    intro current
    cases current
  same version hasTables tabled current := hasTables.trans (tabled (version.symm.trans current))
  migrated := by
    intro before after readOnly migrates tabled
    unfold DatabaseFile.migrate at migrates
    dsimp only at migrates
    split at migrates
    · cases migrates
      exact tabled
    · -- of the other ways only the one that creates the tables succeeds
      repeat' split at migrates
      all_goals cases migrates
      exact fun _ => rfl

theorem keeps_tabled {edit : Edit} (row : edit.needsTables = true) : edit.Keeps Tabled := by
  intro file later edited tabled
  obtain ⟨version, hasTables⟩ := DatabaseFile.edit_rows row edited
  exact stable_tabled.same version hasTables tabled

/-- As long as no edit from outside records a version, the tables are there where they should be. -/
theorem after_steps_tabled (program : String) (clock : Timestamp) {steps : List Step}
    (rows : ∀ edit ∈ Step.editsOf steps, edit.needsTables = true) (number : Int) :
    Tabled ((afterSteps program clock steps).database number) :=
  (after_steps_in_order stable_tabled program clock
    fun edit member => keeps_tabled (rows edit member)).numbered.file number

theorem after_steps_call (program : String) (clock : Timestamp) {steps : List Step}
    (rows : ∀ edit ∈ Step.editsOf steps, edit.needsTables = true) {path : String}
    {address : Address} {place : Files.Place} {words : List String} {command : Command}
    {between : Host} {result : Opened}
    (names : (afterSteps program clock steps).NamesFile path address place)
    (reads : Call.ofWords words = .ok ⟨some path, command⟩)
    (opens : openFor (some path) (afterSteps program clock steps) = (.returned result, between)) :
    ∃ number, (afterSteps program clock steps).FileCall path place words command number :=
  file_call names (after_steps_unused program clock steps) (after_steps_tabled program clock rows)
    reads opens

end Host

end UnitState
