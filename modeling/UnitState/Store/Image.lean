import UnitState.Store.Read

/-!
# Images of a database

The text as which the command line keeps a database between two calls: a document with
the recorded schema version, the greatest revision number in use and all rows. An empty
text is the image of a new database.
-/

set_option autoImplicit false

namespace UnitState

open Json

structure HookImage where
  revision : Int
  hook : String
  date : String
deriving DecidableEq

namespace HookImage

def toValue (image : HookImage) : Value :=
  .object
    [ ("revision", .ofInt image.revision), ("hook", .string image.hook),
      ("date", .string image.date) ]

structure Partial where
  revision : Option Int := none
  hook : Option String := none
  date : Option String := none

def decoder : Decoder HookImage :=
  Decoder.record "a hook row"
    [ Decoder.slot "revision" Partial.revision (fun state content =>
        { state with revision := some content }) (Decoder.integer .signed64),
      Decoder.slot "hook" Partial.hook (fun state content =>
        { state with hook := some content }) Decoder.text,
      Decoder.slot "date" Partial.date (fun state content =>
        { state with date := some content }) Decoder.text ]
    {} fun state => do
      return {
        revision := ← Decoder.required "revision" state.revision
        hook := ← Decoder.required "hook" state.hook
        date := ← Decoder.required "date" state.date }

end HookImage

namespace DatabaseFile

structure Partial where
  version : Option Int := none
  sequence : Option Int := none
  hooks : Option (List HookImage) := none
  live : Option (List LiveRow) := none
  revisions : Option (List RevisionRow) := none

def imageDecoder : Decoder DatabaseFile :=
  Decoder.record "a database"
    [ Decoder.slot "version" Partial.version (fun state content =>
        { state with version := some content }) (Decoder.integer .signed64),
      Decoder.slot "sequence" Partial.sequence (fun state content =>
        { state with sequence := some content }) (Decoder.integer .signed64),
      Decoder.slot "hooks" Partial.hooks (fun state content =>
        { state with hooks := some content }) (Decoder.list HookImage.decoder),
      Decoder.slot "live" Partial.live (fun state content =>
        { state with live := some content }) (Decoder.list LiveRow.decoder),
      Decoder.slot "revisions" Partial.revisions (fun state content =>
        { state with revisions := some content }) (Decoder.list RevisionRow.decoder) ]
    {} fun state => do
      let hooks ← Decoder.required "hooks" state.hooks
      let live ← Decoder.required "live" state.live
      let revisions ← Decoder.required "revisions" state.revisions
      return {
        contents :=
          { live := .ofList (live.map fun row => (row.key, row.data))
            hooks := .ofList (hooks.map fun image => (image.revision, ⟨image.hook, image.date⟩))
            history := .ofList (revisions.map fun row => ((row.revision, row.key), row.data))
            sequence := ← Decoder.required "sequence" state.sequence }
        hasTables := true
        version := ← Decoder.required "version" state.version
        locked := false }

def ofImage (text : String) : Except EngineFault DatabaseFile :=
  if text.isEmpty then .ok .fresh
  else (imageDecoder.run text).mapError fun _ => .notDatabase

def image (file : DatabaseFile) : String :=
  let contents := file.contents
  (Value.object
    [ ("version", .ofInt file.version), ("sequence", .ofInt contents.sequence),
      ("hooks", .array (contents.hooks.entries.map fun (revision, row) =>
        HookImage.toValue ⟨revision, row.hook, row.date⟩)),
      ("live", .array (contents.live.entries.map fun (key, text) =>
        LiveRow.toValue ⟨key, text⟩)),
      ("revisions", .array (contents.history.entries.map fun ((revision, key), data) =>
        RevisionRow.toValue ⟨revision, key, data⟩)) ]).compact

end DatabaseFile

end UnitState
