import UnitState.CommandLine.Run
import UnitState.Host.Scope

/-!
# Scenarios

A scenario is a list of steps on a host, some of which run further steps inside a
scope, a hook or a use of the shared store. Each step has an answer, also when it
fails; a body that stops at the first store error ends with that error, and the answers
of the steps after it are missing.
-/

set_option autoImplicit false

namespace UnitState

open Json

inductive Task where
  | request (request : Request)
  | openStore (source : StoreSource)
  | dropStore
  | isSlotInitialized
  | resetSlot
  | setClock (time : Timestamp)
  | setVariables (changes : List (String × Option String))
  | writeFile (path : String) (bytes : List UInt8)
  | makeDirectory (path : String)
  | removeFile (path : String)
  | fileExists (path : String)
  | fileMode (path : String)
  | setFileMode (path : String) (mode : Nat)
  | edit (path : String) (edit : Edit)
  | call (words : List String)
  | refused (failure : Failure)

inductive GuardEnd where
  | commit
  | rollback
  | detach
  | drop
deriving DecidableEq

inductive BodyEnd where
  | success
  | error (reason : String)
  | crash
deriving DecidableEq

structure HookStep where
  environment : Environment
  hookName : Option String
  config : Object
  relations : Object
  /-- The configuration keys of which the body asks whether they changed. -/
  check : List String
  shared : Bool

/-- A step of a scenario. It acts on the store of a name, and a step with steps of its
own may stop at the first store error. -/
inductive Step where
  | task (store : String) (task : Task)
  | guarded (store name : String) (body : List Step) (ending : GuardEnd) (stops : Bool)
  | inScope (store name : String) (body : List Step) (ending : BodyEnd) (stops : Bool)
  | inHook (store : String) (hook : HookStep) (body : List Step) (ending : BodyEnd)
      (stops : Bool)
  | withSlot (store : String) (body : List Step) (ending : BodyEnd) (stops : Bool)

namespace Step

def store : Step → String
  | task store _ => store
  | guarded store .. => store
  | inScope store .. => store
  | inHook store .. => store
  | withSlot store .. => store

end Step

inductive TaskReply where
  | reply (reply : Reply)
  | opened (path : String)
  | mode (mode : Nat)
  | ended (program : ProgramEnd)

structure HookReport where
  changes : HookChanges
  /-- Whether each of the keys that were asked for changed. -/
  checked : List Bool
deriving DecidableEq

/-- The answer to a step. A body's end tells its revision where it has one. -/
inductive Answer where
  | task (ending : Ending Failure TaskReply)
  | guarded (revision : Int) (body : List (Answer × Option (Option Int)))
      (ending : Ending Failure (Option Int))
  | inScope (body : List (Answer × Option (Option Int)))
      (ending : Ending Failure (Option Int))
  | inHook (report : Option HookReport) (body : List (Answer × Option (Option Int)))
      (ending : Ending Failure (Option Int))

/-- An answer with the active revision of the step's store; nothing is known of the
revision if there is no such store after the step. -/
abbrev StepAnswer : Type := Answer × Option (Option Int)

namespace Answer

def storeError? : Answer → Option StoreError
  | task (.failed (.store error)) => some error
  | _ => none

def failed (failure : Failure) : Answer := task (.failed failure)

end Answer

end UnitState
