import UnitState.Json.Shape

/-!
# History

What a store tells about the past of a key, and the listing of all that it holds. The
rows can be written as JSON, a structure with its fields in their declared order, and
read back.
-/

set_option autoImplicit false

namespace UnitState

open Json

inductive HistoryData where
  | raw (text : String)
  | value (value : Value)
  | deleted
deriving DecidableEq

namespace HistoryData

def toValue : HistoryData → Value
  | raw text => .object [("raw", .string text)]
  | value content => .object [("value", content)]
  | deleted => .string "deleted"

inductive Kind where
  | raw
  | value
  | deleted

def kindNames : List String := ["raw", "value", "deleted"]

def kindNamed (name : String) : Except Cause Kind :=
  match name with
  | "raw" => .ok .raw
  | "value" => .ok .value
  | "deleted" => .ok .deleted
  | _ => .error (.unknownVariant name kindNames)

def kind : Reader Kind := Decoder.textAs "variant identifier" kindNamed

/-- The kind that is the key of an object, up to which spaces are skipped. -/
def keyKind : Reader Kind := do
  match ← Reader.token with
  | none => Reader.failHere .endInObject
  | some '"' => kind
  | some '\x7d' => Reader.failNext .expectedValue
  | some _ => Reader.failNext .keyNotString

def content (room : Nat) : Kind → Reader HistoryData
  | .raw => raw <$> Decoder.text room
  | .value => value <$> Decoder.value room
  | .deleted => (fun _ => deleted) <$> Decoder.unit room

/-- An object with the kind as its only key, or a text that is the kind itself. -/
def decoder : Decoder HistoryData := fun room => do
  match ← Reader.token with
  | none => Reader.failHere .endInValue
  | some '\x7b' =>
      Decoder.enter room fun room => do
        Reader.discard
        let chosen ← keyKind
        Reader.colon
        let data ← content room chosen
        match ← Reader.token with
        | none => Reader.failHere .endInObject
        | some '\x7d' =>
            Reader.discard
            return data
        | some _ => Reader.failHere .expectedValue
  | some '"' =>
      match ← kind with
      | .deleted => return deleted
      | .raw | .value =>
          Attempt.fail (.unplaced (.invalidType .unitVariant "newtype variant"))
  | some _ => Reader.failNext .expectedValue

end HistoryData

structure HistoryEntry where
  revision : Int
  key : String
  data : HistoryData
  hook : String
  timestamp : String
deriving DecidableEq

namespace HistoryEntry

def toValue (entry : HistoryEntry) : Value :=
  .object
    [ ("revision", .ofInt entry.revision), ("key", .string entry.key),
      ("data", entry.data.toValue), ("hook", .string entry.hook),
      ("timestamp", .string entry.timestamp) ]

structure Partial where
  revision : Option Int := none
  key : Option String := none
  data : Option HistoryData := none
  hook : Option String := none
  timestamp : Option String := none

def decoder : Decoder HistoryEntry :=
  Decoder.record "struct HistoryEntry"
    [ Decoder.slot "revision" Partial.revision (fun state content =>
        { state with revision := some content }) (Decoder.integer .signed64),
      Decoder.slot "key" Partial.key (fun state content =>
        { state with key := some content }) Decoder.text,
      Decoder.slot "data" Partial.data (fun state content =>
        { state with data := some content }) HistoryData.decoder,
      Decoder.slot "hook" Partial.hook (fun state content =>
        { state with hook := some content }) Decoder.text,
      Decoder.slot "timestamp" Partial.timestamp (fun state content =>
        { state with timestamp := some content }) Decoder.text ]
    {} fun state => do
      return {
        revision := ← Decoder.required "revision" state.revision
        key := ← Decoder.required "key" state.key
        data := ← Decoder.required "data" state.data
        hook := ← Decoder.required "hook" state.hook
        timestamp := ← Decoder.required "timestamp" state.timestamp }

end HistoryEntry

structure LiveRow where
  key : String
  data : String
deriving DecidableEq

namespace LiveRow

def toValue (row : LiveRow) : Value :=
  .object [("key", .string row.key), ("data", .string row.data)]

structure Partial where
  key : Option String := none
  data : Option String := none

def decoder : Decoder LiveRow :=
  Decoder.record "struct LiveRow"
    [ Decoder.slot "key" Partial.key (fun state content =>
        { state with key := some content }) Decoder.text,
      Decoder.slot "data" Partial.data (fun state content =>
        { state with data := some content }) Decoder.text ]
    {} fun state => do
      return {
        key := ← Decoder.required "key" state.key
        data := ← Decoder.required "data" state.data }

end LiveRow

/-- The text recorded for a key at a revision; none if the key was removed. -/
structure RevisionRow where
  revision : Int
  key : String
  data : Option String
deriving DecidableEq

namespace RevisionRow

def toValue (row : RevisionRow) : Value :=
  .object
    [ ("revision", .ofInt row.revision), ("key", .string row.key),
      ("data", row.data.elim .null Value.string) ]

structure Partial where
  revision : Option Int := none
  key : Option String := none
  data : Option (Option String) := none

def decoder : Decoder RevisionRow :=
  Decoder.record "struct RevisionRow"
    [ Decoder.slot "revision" Partial.revision (fun state content =>
        { state with revision := some content }) (Decoder.integer .signed64),
      Decoder.slot "key" Partial.key (fun state content =>
        { state with key := some content }) Decoder.text,
      Decoder.slot "data" Partial.data (fun state content =>
        { state with data := some content }) (Decoder.optional Decoder.text) ]
    {} fun state => do
      return {
        revision := ← Decoder.required "revision" state.revision
        key := ← Decoder.required "key" state.key
        data := state.data.join }

end RevisionRow

structure Dump where
  live : List LiveRow
  revisions : List RevisionRow
deriving DecidableEq

namespace Dump

def toValue (dump : Dump) : Value :=
  .object
    [ ("live", .array (dump.live.map LiveRow.toValue)),
      ("revisions", .array (dump.revisions.map RevisionRow.toValue)) ]

def text (dump : Dump) : String := dump.toValue.indented ++ "\n"

structure Partial where
  live : Option (List LiveRow) := none
  revisions : Option (List RevisionRow) := none

def decoder : Decoder Dump :=
  Decoder.record "struct DebugDump"
    [ Decoder.slot "live" Partial.live (fun state content =>
        { state with live := some content }) (Decoder.list LiveRow.decoder),
      Decoder.slot "revisions" Partial.revisions (fun state content =>
        { state with revisions := some content }) (Decoder.list RevisionRow.decoder) ]
    {} fun state => do
      return {
        live := ← Decoder.required "live" state.live
        revisions := ← Decoder.required "revisions" state.revisions }

end Dump

end UnitState
