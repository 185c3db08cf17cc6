import UnitState.Scenario.Basic

/-!
# Running a scenario

Each step changes the host that the next one finds, and gives its answer. The steps of
a body run inside the scope, hook or use that their step opened.
-/

set_option autoImplicit false

namespace UnitState

open Json

namespace Task

def ofChange (change : Attempt Host FileFault Unit) : Body Host Failure TaskReply := fun host =>
  match change host with
  | (.ok (), host) => (.returned (.reply .nothing), host)
  | (.error _, host) => (.failed (.rejected (.malformed "file")), host)

/-- Opens a store under a name, after giving up the one that had the name. -/
def openUnder (name : String) (source : StoreSource) :
    Body Host Failure TaskReply := fun host =>
  if host.isInUse name then (.failed (.rejected .storeInUse), host)
  else
    match Host.openFrom source (host.releaseName name) with
    | (.returned (opened, _), host) =>
        (.returned (.opened opened.handle.location.path), host.putStore name opened)
    | (.failed error, host) => (.failed (.store error), host)
    | (.crashed, host) => (.crashed, host)

def ofWork {Result : Type} (print : Result → TaskReply) (work : Host.Work Result) :
    Body Host Failure TaskReply := fun host =>
  match work host with
  | (.ok result, host) => (.returned (print result), host)
  | (.error failure, host) => (.failed failure, host)

def perform (store : String) : Task → Body Host Failure TaskReply
  | request asked => ofWork .reply (Host.on store asked.answer)
  | openStore source => openUnder store source
  | dropStore => fun host =>
      if host.isInUse store then (.failed (.rejected .storeInUse), host)
      else if (host.stores.get? store).isNone then
        (.failed (.rejected .noSuchStore), host)
      else (.returned (.reply .nothing), host.releaseName store)
  | isSlotInitialized => fun host =>
      (.returned (.reply (.flag host.slot.isInitialized)), host)
  | resetSlot => ofWork (fun _ => .reply .nothing) Host.resetSlot
  | setClock time => fun host => (.returned (.reply .nothing), { host with clock := time })
  | setVariables changes => fun host =>
      (.returned (.reply .nothing),
        { host with
          environment := changes.foldl (fun environment change =>
            environment.change change.1 change.2) host.environment })
  | writeFile path bytes => ofChange (Host.writeFile path bytes)
  | makeDirectory path => ofChange (Host.changeFiles (Files.makeDirectory path))
  | removeFile path => ofChange (Host.changeFiles (Files.remove path))
  | setFileMode path mode => ofChange (Host.changeFiles (Files.setMode path mode))
  | fileExists path => fun host =>
      (.returned (.reply (.flag (host.files.fileExists path))), host)
  | fileMode path => fun host =>
      match host.files.mode path with
      | .ok mode => (.returned (.mode mode), host)
      | .error _ => (.failed (.rejected (.malformed "file")), host)
  | edit path asked => ofWork (fun rows => .reply (.count rows)) (Host.edit path asked)
  | call words => fun host =>
      let (ended, host) := host.runCall words
      (.returned (.ended ended), host)
  | refused failure => fun host => (.failed failure, host)

end Task

def BodyEnd.conclude {Result : Type} (result : Result) (stopped : Option StoreError) :
    BodyEnd → Ending Failure Result
  | ending =>
      match stopped, ending with
      | some cause, _ => .failed (.store cause)
      | none, .success => .returned result
      | none, .error reason => .failed (.store (.integrity reason))
      | none, .crash => .crashed

def GuardEnd.finish (store : String) (revision : Int) (stopped : Option StoreError) :
    GuardEnd → Body Host Failure (Option Int)
  | ending => fun host =>
      let save (save : Bool) : Body Host Failure (Option Int) := fun host =>
        let (result, host) := Host.on store (Store.flush save) host
        (.ofExcept (result.map fun _ => none), host)
      match stopped with
      | some error => (.failed (.store error), (save false host).2)
      | none =>
          match ending with
          | .commit => save true host
          | .rollback | .drop => save false host
          | .detach => (.returned (some revision), host)

def HookStep.invocation (hook : HookStep) (program : String) : Invocation :=
  let described := Invocation.ofEnvironment program hook.environment
  { described with
    hookName := hook.hookName.getD described.hookName
    config := hook.config
    relations := hook.relations }

def HookStep.report (hook : HookStep) (changes : HookChanges) : HookReport :=
  ⟨changes, hook.check.map changes.config.contains⟩

namespace Step

structure HookTold where
  report : Option HookReport
  body : List StepAnswer

mutual

def answer : Step → Host → Answer × Host
  | task store content, host =>
      let (ending, host) := content.perform store host
      (.task ending, host)
  | guarded store name body ending stops, host =>
      match Host.enterScope store name host with
      | (.error failure, host) => (.failed failure, host)
      | (.ok revision, host) =>
          let names := host.inScope
          let ((answers, stopped), host) :=
            runAll stops body { host with inScope := store :: names }
          let (ending, host) :=
            ending.finish store revision stopped { host with inScope := names }
          (.guarded revision answers ending, host)
  | inScope store name body ending stops, host =>
      let (ended, host, told) :=
        Host.hookScope store name (fun revision (host, _) =>
          let ((answers, stopped), host) := runAll stops body host
          (ending.conclude (some revision) stopped, host, some answers)) (host, none)
      (match told, ended with
        | some answers, ended => .inScope answers ended
        | none, .failed failure => .failed failure
        | none, ended => .inScope [] ended, host)
  | inHook store hook body ending stops, host =>
      if hook.shared = false ∧ (host.store? store).isNone then
        (.failed (.rejected .noSuchStore), host)
      else
        let run (store : String) : Host.HostBody HookTold (Option Int) :=
          Host.runHook store (hook.invocation host.program)
            fun revision changes (host, _) =>
              let ((answers, stopped), host) := runAll stops body host
              (ending.conclude (some revision) stopped, host,
                ⟨some (hook.report changes), answers⟩)
        let start : Host × HookTold := (host, ⟨none, []⟩)
        let (ended, host, told) :=
          if hook.shared then Host.withSlot (run Host.slotName) start else run store start
        (.inHook told.report told.body ended, host)
  | withSlot _ body ending stops, host =>
      let (ended, host, told) :=
        Host.withSlot (fun (host, _) =>
          let ((answers, stopped), host) := runAll stops body host
          (ending.conclude none stopped, host, answers)) (host, [])
      (.inScope told ended, host)

/-- Runs the steps of a body. Tells the store error at which it stopped, if it did. -/
def runAll (stops : Bool) : List Step → Host → (List StepAnswer × Option StoreError) × Host
  | [], host => (([], none), host)
  | head :: tail, host =>
      let (answer, host) := head.answer host
      let told := (answer, host.revisionOf? head.store)
      match stops, answer.storeError? with
      | true, some error => (([told], some error), host)
      | _, _ =>
          let ((later, stopped), host) := runAll stops tail host
          ((told :: later, stopped), host)

end

end Step

def Host.runScenario (host : Host) (steps : List Step) : List StepAnswer :=
  (Step.runAll false steps host).1.1

end UnitState
