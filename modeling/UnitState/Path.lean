import UnitState.Attempt

/-!
# Paths

A path is a text whose names are divided by slashes. Repeated slashes, a slash at the
end and a single dot after the first name mean nothing, so two paths are equal when
their components are.
-/

set_option autoImplicit false

namespace UnitState.Path

def names (path : String) : List String :=
  ((path.toList.splitOn '/').filter fun name => !name.isEmpty).map String.ofList

def isAbsolute (path : String) : Bool := path.toList.head? == some '/'

/-- A slash for an absolute path, then the names that mean something. -/
def components (path : String) : List String :=
  let kept := (names path).filter fun name => name != "."
  if isAbsolute path then "/" :: kept
  else if (names path).head? == some "." then "." :: kept
  else kept

def same (left right : String) : Bool := components left == components right

/-- A name inside a directory. The empty path stands for the working directory. -/
def join (directory name : String) : String :=
  if isAbsolute name || directory.isEmpty then name
  else if directory.toList.getLast? == some '/' then directory ++ name
  else directory ++ "/" ++ name

/-- The last name, unless the path ends above it or has none. -/
def lastName? (path : String) : Option String :=
  match (components path).getLast? with
  | some ".." | some "." | some "/" | none => none
  | some name => some name

end UnitState.Path
