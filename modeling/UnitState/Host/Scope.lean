import UnitState.Host.Opening

/-!
# Scopes on a host

A scope of a store in a host, with a body that may use the whole host; and the use of
the store that the program shares. The shared store is opened when it is first used.
Using it from inside its own use is refused, however the outer use ends. Beside the
host a body has a state of its own, in which it can leave what it has to tell.
-/

set_option autoImplicit false

namespace UnitState.Host

variable {Told Result : Type}

abbrev HostBody (Told Result : Type) : Type := Body (Host × Told) Failure Result

def enterScope (store name : String) : Work Int := fun host =>
  on store (Store.beginScope (host.hookRow store name)) host

/-- Runs a body during which the name of a store cannot be given away. -/
def keepingName (name : String) (body : HostBody Told Result) : HostBody Told Result :=
  fun (host, told) =>
    let (ending, later, told) := body ({ host with inScope := name :: host.inScope }, told)
    (ending, { later with inScope := host.inScope }, told)

def hookScope (store name : String) (body : Int → HostBody Told Result) :
    HostBody Told Result :=
  withinScope (enterScope store name).onFirst (on store (Store.flush true)).onFirst
    (on store (Store.flush false)).onFirst fun revision => keepingName store (body revision)

def revisionFile (host : Host) (invocation : Invocation) : Option (Except FileFault String) :=
  invocation.charmDirectory.map fun directory =>
    host.files.readText (Path.join directory Store.revisionFileName)

def recordInvocation (store : String) (invocation : Invocation) : Work HookChanges :=
  fun host => on store (Store.recordInvocation invocation (host.revisionFile invocation)) host

def runHook (store : String) (invocation : Invocation)
    (body : Int → HookChanges → HostBody Told Result) : HostBody Told Result :=
  hookScope store invocation.hookName fun revision =>
    Body.after (recordInvocation store invocation).onFirst (body revision)

def releaseSlot (host : Host) : Host := { host with slot.held := false }

def withSlot (body : HostBody Told Result) : HostBody Told Result := fun (host, told) =>
  if host.slot.held then (.failed (.store .slotInUse), host, told)
  else
    let host := { host with slot.held := true }
    match host.slot.store with
    | some _ =>
        let (ending, host, told) := body (host, told)
        (ending, host.releaseSlot, told)
    | none =>
        match openFrom (.environment none) host with
        | (.returned (opened, _), host) =>
            let (ending, host, told) := body ({ host with slot.store := some opened }, told)
            (ending, host.releaseSlot, told)
        | (.failed error, host) => (.failed (.store error), host.releaseSlot, told)
        | (.crashed, host) => (.crashed, host.releaseSlot, told)

def resetSlot : Work Unit := fun host =>
  if host.slot.held then (.error (.store .slotInUse), host)
  else
    match host.slot.store with
    | none => (.ok (), host)
    | some opened => (.ok (), release opened { host with slot.store := none })

end UnitState.Host
