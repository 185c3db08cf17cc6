import UnitState.Json.Printer

/-!
# The canonical form of a value

Sorts the members of every object by key, of several members with one key keeping the
last. Values that differ only in the order of their members have one canonical form,
and so one stored text.
-/

set_option autoImplicit false

namespace UnitState.Json.Value

mutual

def canonical : Value → Value
  | array items => array (canonicalItems items)
  | object members => ofObject (.ofList (canonicalMembers members))
  | null => null
  | bool flag => bool flag
  | number content => number content
  | string text => string text

def canonicalItems : List Value → List Value
  | [] => []
  | head :: tail => head.canonical :: canonicalItems tail

def canonicalMembers : List (String × Value) → List (String × Value)
  | [] => []
  | (key, head) :: tail => (key, head.canonical) :: canonicalMembers tail

end

def storedText (value : Value) : String := value.canonical.compact

end UnitState.Json.Value
