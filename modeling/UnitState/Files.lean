import UnitState.Path
import UnitState.Table

/-!
# Files

A tree of directories and files with permission bits, as far as a store can notice
it. A file holds bytes or a database, which is kept elsewhere and named by a number.
Relative paths start at the working directory. Names and paths have a greatest length,
in bytes.
-/

set_option autoImplicit false

namespace UnitState

inductive FileFault where
  | notFound
  | notDirectory
  | isDirectory
  | alreadyExists
  | nameTooLong
  | nulInName
  | notText
deriving DecidableEq

namespace FileFault

def message : FileFault → String
  | notFound => "No such file or directory (os error 2)"
  | notDirectory => "Not a directory (os error 20)"
  | isDirectory => "Is a directory (os error 21)"
  | alreadyExists => "File exists (os error 17)"
  | nameTooLong => "File name too long (os error 36)"
  | nulInName => "file name contained an unexpected NUL byte"
  | notText => "stream did not contain valid UTF-8"

end FileFault

inductive Content where
  | bytes (bytes : List UInt8)
  | database (number : Int)
deriving DecidableEq

inductive Node where
  | directory (mode : Nat)
  | file (mode : Nat) (content : Content)
deriving DecidableEq

/-- Nodes by place, a place being the names on the way from the root, with slashes. -/
structure Files where
  nodes : Table String Node

namespace Files

abbrev Place : Type := List String

abbrev Change : Type := Attempt Files FileFault Unit

def workingDirectory : Place := ["work"]

def longestName : Nat := 255

def longestPath : Nat := 4095

def ownerOnly : Nat := 0o600

def ordinary : Nat := 0o644

def ordinaryDirectory : Nat := 0o755

def node? (files : Files) (place : Place) : Option Node :=
  files.nodes.get? (String.intercalate "/" place)

def put (files : Files) (place : Place) (node : Node) : Files :=
  ⟨files.nodes.insert (String.intercalate "/" place) node⟩

/-- Removes a file; a directory stays. -/
def discard (files : Files) (place : Place) : Files :=
  match files.node? place with
  | some (.file ..) => ⟨files.nodes.erase (String.intercalate "/" place)⟩
  | _ => files

def initial : Files :=
  Files.put (Files.put ⟨∅⟩ [] (.directory ordinaryDirectory)) workingDirectory
    (.directory ordinaryDirectory)

def beside (place : Place) (suffix : String) : Place :=
  place.dropLast ++ [place.getLast?.getD "" ++ suffix]

/-- Walks down by names. Every node that is walked through has to be a directory, and a
name is looked at there only if it is not too long. -/
def walk (files : Files) (place : Place) : List String → Except FileFault Place
  | [] => .ok place
  | name :: later =>
      match files.node? place with
      | none => .error .notFound
      | some (.file ..) => .error .notDirectory
      | some (.directory _) =>
          if name = "." then files.walk place later
          else if name = ".." then files.walk place.dropLast later
          else if name.utf8ByteSize > longestName then .error .nameTooLong
          else files.walk (place ++ [name]) later

def start (path : String) : Place := if Path.isAbsolute path then [] else workingDirectory

def endsInSlash (path : String) : Bool := path.toList.getLast? == some '/'

def checkPath (path : String) : Except FileFault Unit :=
  if path.toList.contains '\x00' then .error .nulInName
  else if path.isEmpty then .error .notFound
  else if path.utf8ByteSize > longestPath then .error .nameTooLong
  else .ok ()

/-- The place of a path, at which nothing need exist. A slash at the end asks for a
directory. -/
def locate (files : Files) (path : String) : Except FileFault Place := do
  checkPath path
  files.walk (start path) (Path.names path ++ if endsInSlash path then ["."] else [])

/-- The place of a path at which a file is to be written, also a new one. A path that
ends in a slash or a dot is one of a directory, whatever stands there. -/
def locateForWriting (files : Files) (path : String) : Except FileFault Place := do
  checkPath path
  let names := Path.names path
  let directory ← files.walk (start path) (names.dropLast ++ ["."])
  match names.getLast? with
  | none | some "." | some ".." => .error .isDirectory
  | some name =>
      if endsInSlash path then .error .isDirectory else files.walk directory [name]

/-- Creates a file unless it exists, and leaves it to its owner only. -/
def prepare (files : Files) (path : String) : Except FileFault Files := do
  let place ← files.locateForWriting path
  match files.node? place with
  | some (.directory _) => .error .isDirectory
  | some (.file _ content) => .ok (files.put place (.file ownerOnly content))
  | none => .ok (files.put place (.file ownerOnly (.bytes [])))

def readText (files : Files) (path : String) : Except FileFault String := do
  match files.node? (← files.locate path) with
  | none => .error .notFound
  | some (.directory _) => .error .isDirectory
  | some (.file _ (.database _)) => .error .notText
  | some (.file _ (.bytes bytes)) =>
      match String.fromUTF8? ⟨bytes.toArray⟩ with
      | some text => .ok text
      | none => .error .notText

/-- Creates or overwrites a file, an existing one keeping its permission bits. -/
def write (path : String) (bytes : List UInt8) : Change := fun files =>
  match files.locateForWriting path with
  | .error fault => (.error fault, files)
  | .ok place =>
      match files.node? place with
      | some (.directory _) => (.error .isDirectory, files)
      | some (.file mode _) => (.ok (), files.put place (.file mode (.bytes bytes)))
      | none => (.ok (), files.put place (.file ordinary (.bytes bytes)))

/-- Walks down by names like `walk`, creating the directories that are missing. Those
stay also if a later one cannot be created. -/
def createAlong (place : Place) : List String → Change
  | [], files =>
      match files.node? place with
      | none => (.ok (), files.put place (.directory ordinaryDirectory))
      | some (.directory _) => (.ok (), files)
      | some (.file ..) => (.error .alreadyExists, files)
  | name :: later, files =>
      match files.node? place with
      | some (.file ..) => (.error .notDirectory, files)
      | found =>
          let files :=
            if found.isNone then files.put place (.directory ordinaryDirectory) else files
          if name = "." then createAlong place later files
          else if name = ".." then createAlong place.dropLast later files
          else if name.utf8ByteSize > longestName then (.error .nameTooLong, files)
          else createAlong (place ++ [name]) later files

def makeDirectory (path : String) : Change := fun files =>
  match checkPath path with
  | .error .notFound => (.ok (), files)
  | .error fault => (.error fault, files)
  | .ok () => createAlong (start path) (Path.names path) files

def remove (path : String) : Change := fun files =>
  match files.locate path with
  | .error fault => (.error fault, files)
  | .ok place =>
      match files.node? place with
      | none => (.error .notFound, files)
      | some (.directory _) => (.error .isDirectory, files)
      | some (.file ..) => (.ok (), files.discard place)

def fileExists (files : Files) (path : String) : Bool :=
  match files.locate path with
  | .ok place => (files.node? place).isSome
  | .error _ => false

def mode (files : Files) (path : String) : Except FileFault Nat := do
  match files.node? (← files.locate path) with
  | none => .error .notFound
  | some (.directory mode) | some (.file mode _) => .ok mode

def setMode (path : String) (mode : Nat) : Change := fun files =>
  match files.locate path with
  | .error fault => (.error fault, files)
  | .ok place =>
      match files.node? place with
      | none => (.error .notFound, files)
      | some (.directory _) => (.ok (), files.put place (.directory mode))
      | some (.file _ content) => (.ok (), files.put place (.file mode content))

end Files

end UnitState
