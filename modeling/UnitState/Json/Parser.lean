import UnitState.Json.Scalar

/-!
# Parsing JSON values

A strict reader of whole documents. The number of arrays and objects that may be
nested around one another is a parameter, and every level spends one, so the reader
recurses on it. Of several members with one key the last wins, and the members of an
object are kept in increasing order of their keys: whatever is read is canonical.
-/

set_option autoImplicit false

namespace UnitState.Json

open UnitState.Decimal

namespace Reader

variable {Result : Type}

/-- Whether a further item of a list follows, up to which the reader goes on. -/
def nextItem (first : Bool) : Reader Bool := do
  match ← token with
  | none => failHere .endInList
  | some ']' => pure false
  | some head =>
      if first then pure true
      else if head = ',' then do
        discard
        match ← token with
        | none => failHere .endInValue
        | some ']' => failNext .trailingComma
        | some _ => pure true
      else failNext .expectedListCommaOrEnd

def endList : Reader Unit := do
  match ← token with
  | none => failHere .endInList
  | some ']' => discard
  | some ',' => do
      discard
      match ← token with
      | some ']' => failNext .trailingComma
      | _ => failNext .trailingCharacters
  | some _ => failNext .trailingCharacters

def nextKey (first : Bool) : Reader Bool := do
  match ← token with
  | none => failHere .endInObject
  | some '\x7d' => pure false
  | some head =>
      if first then
        if head = '"' then pure true else failNext .keyNotString
      else if head = ',' then do
        discard
        match ← token with
        | none => failHere .endInValue
        | some '"' => pure true
        | some '\x7d' => failNext .trailingComma
        | some _ => failNext .keyNotString
      else failNext .expectedObjectCommaOrEnd

def colon : Reader Unit := do
  match ← token with
  | none => failHere .endInObject
  | some ':' => discard
  | some _ => failNext .expectedColon

def endObject : Reader Unit := do
  match ← token with
  | none => failHere .endInObject
  | some '\x7d' => discard
  | some ',' => failNext .trailingComma
  | some _ => failNext .trailingCharacters

def items (item : Reader Result) (first : Bool) : Nat → Reader (List Result)
  | 0 => pure []
  | fuel + 1 => do
      if ← nextItem first then
        let head ← item
        return head :: (← items item false fuel)
      else pure []

def members (value : Reader Result) (first : Bool) : Nat → Reader (List (String × Result))
  | 0 => pure []
  | fuel + 1 => do
      if ← nextKey first then
        let key ← string
        colon
        let head ← value
        return (key, head) :: (← members value false fuel)
      else pure []

/-- Runs a reader with a count that no loop over the rest of the text exceeds. -/
def bounded (reader : Nat → Reader Result) : Reader Result := fun cursor =>
  reader (cursor.rest.length + 1) cursor

def list (item : Reader Result) : Reader (List Result) := do
  discard
  closedBy (bounded (items item true)) endList

def object (value : Reader Result) : Reader (List (String × Result)) := do
  discard
  closedBy (bounded (members value true)) endObject

def dispatch (onList onObject : Reader Value) : Reader Value := do
  match ← token with
  | none => failHere .endInValue
  | some 'n' =>
      discard
      name "ull".toList
      pure .null
  | some 't' =>
      discard
      name "rue".toList
      pure (.bool true)
  | some 'f' =>
      discard
      name "alse".toList
      pure (.bool false)
  | some '"' => return .string (← string)
  | some '[' => onList
  | some '\x7b' => onObject
  | some head =>
      if head = '-' ∨ isDigit head then return .number (← number)
      else failNext .expectedValue

/-- A value in which at most `room` arrays and objects are nested around one another. -/
def value : Nat → Reader Value
  | 0 => dispatch (failNext .tooDeep) (failNext .tooDeep)
  | room + 1 =>
      dispatch
        (do return .array (← list (value room)))
        (do return .ofObject (.ofList (← object (value room))))

def atEnd : Reader Unit := do
  match ← token with
  | none => pure ()
  | some _ => failNext .trailingCharacters

def readAll (reader : Reader Result) (text : String) : Except Fault Result :=
  ((do
    let result ← reader
    atEnd
    return result : Reader Result) (.ofString text)).1

end Reader

def nestingLimit : Nat := 127

namespace Value

def parse (text : String) : Except Fault Value :=
  Reader.readAll (Reader.value nestingLimit) text

end Value

end UnitState.Json
