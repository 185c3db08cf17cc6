import UnitState.Store.Scope
import UnitState.Text.Blank

/-!
# Hooks

The bookkeeping around the body of a hook. Inside the hook's scope the revision of the
charm is added to those seen before, the configuration and the relation data of this
invocation replace those of the one before, and the body is told what changed.
-/

set_option autoImplicit false

namespace UnitState

open Json

structure Invocation where
  hookName : String
  unit : Option String
  relationId : Option String
  charmDirectory : Option String
  environment : Table String String
  config : Object
  relations : Object
deriving DecidableEq

structure HookChanges where
  config : DeltaSet
  relations : DeltaSet
deriving DecidableEq

/-- The row of a scope. A scope without a name is named after the running program. -/
def HookRow.opening (program name date : String) : HookRow :=
  ⟨if name.isEmpty then program else name, date⟩

namespace Invocation

def variableStem : String := "JUJU_"
def hookNameVariable : String := "JUJU_HOOK_NAME"
def relationIdVariable : String := "JUJU_RELATION_ID"

/-- The invocation that an environment describes, without configuration and relation
data. A hook without a name is named after the file of the running program. -/
def ofEnvironment (program : String) (environment : Environment) : Invocation :=
  let described := environment.withStem variableStem
  let directory := environment.get? Settings.charmDirectoryVariable
  { hookName :=
      (environment.get? hookNameVariable).getD ((Path.lastName? program).getD "")
    unit := environment.get? Settings.unitNameVariable
    relationId := environment.get? relationIdVariable
    charmDirectory := directory
    environment :=
      match directory with
      | some directory => described.insert Settings.charmDirectoryVariable directory
      | none => described
    config := ∅
    relations := ∅ }

end Invocation

namespace Store

def configStem : String := "config."
def relationsStem : String := "rels."
def charmRevisionsKey : String := "charm_revisions"

def revisionFileName : String := "revision"

/-- The revision in a charm's revision file. A missing or blank file stands for "0". -/
def charmRevision : Except FileFault String → Except StoreError String
  | .ok contents =>
      let revision := Text.trim contents
      .ok (if revision.isEmpty then "0" else revision)
  | .error .notFound => .ok "0"
  | .error fault => .error (.file fault)

def recordCharm (revisionFile : Except FileFault String) : Action Unit := do
  let revision ← Attempt.ofExcept (charmRevision revisionFile)
  let stored ← Attempt.inspect fun store =>
    store.getWith (Decoder.list Decoder.text).run charmRevisionsKey
  let seen := stored.getD []
  if seen.contains revision then return
  set charmRevisionsKey (.array ((seen ++ [revision]).map Value.string))

/-- Makes a mapping the values under a stem, and tells what changed. -/
def snapshot (current : Object) (stem : String) : Action DeltaSet := do
  match ← Attempt.inspect fun store => store.delta current stem with
  | none => return ∅
  | some deltas =>
      let _ ← unsetRange (some deltas.removed) stem
      update current stem
      return deltas

def textOrNull (text : Option String) : Value := text.elim .null Value.string

/-- Records an invocation. The revision file is given if the invocation has a charm
directory. -/
def recordInvocation (invocation : Invocation)
    (revisionFile : Option (Except FileFault String)) : Action HookChanges := do
  match revisionFile with
  | some file => recordCharm file
  | none => pure ()
  let config ← snapshot invocation.config configStem
  let relations ← snapshot invocation.relations relationsStem
  set "env" (.ofObject (invocation.environment.map fun _ text => .string text))
  set "unit" (textOrNull invocation.unit)
  set "relid" (textOrNull invocation.relationId)
  return ⟨config, relations⟩

end Store

def Body.after {State Error Result Other : Type} (attempt : Attempt State Error Result)
    (body : Result → Body State Error Other) : Body State Error Other := fun state =>
  match attempt state with
  | (.ok result, state) => body result state
  | (.error error, state) => (.failed error, state)

def Store.runHook {Result : Type} (row : HookRow) (invocation : Invocation)
    (revisionFile : Option (Except FileFault String))
    (body : Int → HookChanges → Body Store StoreError Result) :
    Body Store StoreError Result :=
  hookScope row fun revision =>
    Body.after (recordInvocation invocation revisionFile) (body revision)

end UnitState
