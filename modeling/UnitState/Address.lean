import UnitState.Text.Percent

/-!
# Addresses of databases

What a path means to the engine. Most paths are the name of a file. A path that starts
with `file:` is an address: a name and parameters, both percent-encoded, of which the
parameters say how the database is to be used. A hash mark ends it. Parameters without
a name and parameters that are not known are passed over.
-/

set_option autoImplicit false

namespace UnitState

inductive AddressFault where
  | authority (machine : String)
  | unknownCache (mode : String)
  | unknownAccess (mode : String)
  /-- It asks for more access than an earlier parameter left. -/
  | accessNotAllowed (mode : String)
  | unknownSystem (name : String)
deriving DecidableEq

namespace AddressFault

def message : AddressFault → String
  | authority machine => "invalid uri authority: " ++ machine
  | unknownCache mode => "no such cache mode: " ++ mode
  | unknownAccess mode => "no such access mode: " ++ mode
  | accessNotAllowed mode => "access mode not allowed: " ++ mode
  | unknownSystem name => "no such vfs: " ++ name

end AddressFault

inductive Access where
  | read
  | write
  | create
  | memory
deriving DecidableEq

namespace Access

def named? : String → Option Access
  | "ro" => some read
  | "rw" => some write
  | "rwc" => some create
  | "memory" => some memory
  | _ => none

/-- Whether an access may be replaced by another one, which may not be wider. Memory is
neither wider nor narrower than any. -/
def mayBecome : Access → Access → Bool
  | read, write | read, create | write, create => false
  | _, _ => true

end Access

inductive FileSystem where
  | locking
  /-- Without the shared locks that a log needs. -/
  | lockless
  | memory
deriving DecidableEq

namespace FileSystem

def named? : String → Option FileSystem
  | "unix" | "unix-excl" => some locking
  | "unix-none" | "unix-dotfile" => some lockless
  | "memdb" => some memory
  | _ => none

end FileSystem

structure Address where
  /-- The name of the file. A database without a name is nowhere but in memory. -/
  name : String
  access : Access
  system : FileSystem
  /-- Whether connections of one name share a database in memory. -/
  shared : Bool
  frozen : Bool
  unlocked : Bool
deriving DecidableEq

namespace Address

def plain (name : String) : Address := ⟨name, .create, .locking, false, false, false⟩

def memoryName : String := ":memory:"

def isInMemory (address : Address) : Bool :=
  address.access = .memory || address.system = .memory || address.name = memoryName

def isLockless (address : Address) : Bool :=
  address.unlocked || address.system = .lockless

def parameters (query : List Char) : List (String × String) :=
  ((query.splitOn '&').map fun item =>
    (Text.percentText (item.takeWhile (· != '=')),
      Text.percentText ((item.dropWhile (· != '=')).drop 1))).filter
    fun parameter => !parameter.1.isEmpty

/-- Whether the value of a switch means yes: a word for it, or a number that does not
vanish in a byte. -/
def isYes (value : String) : Bool :=
  let digits := value.toList.takeWhile Char.isDigit
  if digits.isEmpty then [ "on", "yes", "true" ].contains value.toLower
  else
    let number : Nat := digits.foldl (fun total digit => 10 * total + (digit.toNat - 48)) 0
    decide (number < 2147483648 ∧ number % 256 ≠ 0)

def isSwitchedOn (parameters : List (String × String)) (name : String) : Bool :=
  ((parameters.find? fun parameter => parameter.1 == name).map (isYes ·.2)).getD false

/-- The address after a parameter that changes the way of access. -/
def narrow (address : Address) (parameter : String × String) :
    Except AddressFault Address :=
  match parameter with
  | ("cache", "shared") => .ok { address with shared := true }
  | ("cache", "private") => .ok { address with shared := false }
  | ("cache", mode) => .error (.unknownCache mode)
  | ("mode", mode) =>
      match Access.named? mode with
      | none => .error (.unknownAccess mode)
      | some access =>
          if address.access.mayBecome access then .ok { address with access := access }
          else .error (.accessNotAllowed mode)
  | _ => .ok address

/-- The file system that the last parameter of its kind chooses. -/
def systemOf (parameters : List (String × String)) : Except AddressFault FileSystem :=
  match (parameters.filter fun parameter => parameter.1 == "vfs").getLast? with
  | none => .ok .locking
  | some (_, name) =>
      match FileSystem.named? name with
      | some system => .ok system
      | none => .error (.unknownSystem name)

def ofTail (tail : List Char) : Except AddressFault Address := do
  let tail := tail.takeWhile (· != '#')
  let name := Text.percentText (tail.takeWhile (· != '?'))
  let parameters := parameters ((tail.dropWhile (· != '?')).drop 1)
  let address ← parameters.foldlM narrow (plain name)
  return { address with
    system := ← systemOf parameters
    frozen := isSwitchedOn parameters "immutable"
    unlocked := isSwitchedOn parameters "nolock" }

/-- What a path means. An address may name this machine or none. -/
def ofPath (path : String) : Except AddressFault Address :=
  match path.toList with
  | 'f' :: 'i' :: 'l' :: 'e' :: ':' :: '/' :: '/' :: tail =>
      let machine := String.ofList (tail.takeWhile (· != '/'))
      if machine.isEmpty ∨ machine = "localhost" then ofTail (tail.dropWhile (· != '/'))
      else .error (.authority machine)
  | 'f' :: 'i' :: 'l' :: 'e' :: ':' :: tail => ofTail tail
  | _ => .ok (plain path)

end Address

end UnitState
