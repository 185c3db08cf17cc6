import UnitState.Store.Scope

/-!
# Requests

Everything that can be asked of an open store outside the opening and closing of
scopes, and what it answers.
-/

set_option autoImplicit false

namespace UnitState

open Json

inductive Request where
  | get (key : String)
  | getRaw (key : String)
  | getOr (key : String) (default : Value)
  | getAs (key : String) (shape : Shape)
  | getRecord (key : String) (fields : List String)
  | getRange (stem : String) (strip : Bool)
  | delta (mapping : Object) (stem : String)
  | getHistory (key : String) (deserialize : Bool)
  | dump
  | describe
  | set (key : String) (value : Value)
  | setDatum (key : String) (datum : Datum)
  | update (mapping : Object) (stem : String)
  | unset (key : String)
  | unsetRange (names : Option (List String)) (stem : String)
  | flush (save : Bool)
  | close

inductive Reply where
  | nothing
  | flag (flag : Bool)
  | count (count : Nat)
  | value (value : Value)
  | optionalValue (value : Option Value)
  | optionalText (text : Option String)
  | optionalObject (members : Option Object)
  | record (record : Option (Record × List (Except MissingKey Value)))
  | deltas (deltas : Option DeltaSet)
  | history (entries : List HistoryEntry)
  | dump (dump : Dump)
  | handle (handle : Handle)

namespace Request

def answer : Request → Action Reply
  | get key => Reply.optionalValue <$> Attempt.inspect fun store => store.get key
  | getRaw key => Reply.optionalText <$> Attempt.inspect fun store => store.getRaw key
  | getOr key default =>
      Reply.value <$> Attempt.inspect fun store => store.getOr key default
  | getAs key shape =>
      Reply.optionalValue <$> Attempt.inspect fun store => store.getAs key shape
  | getRecord key fields => do
      let record ← Attempt.inspect fun store => store.getRecord key
      return .record (record.map fun record => (record, fields.map record.field))
  | getRange stem strip =>
      Reply.optionalObject <$> Attempt.inspect fun store => store.getRange stem strip
  | delta mapping stem =>
      Reply.deltas <$> Attempt.inspect fun store => store.delta mapping stem
  | getHistory key deserialize =>
      Reply.history <$> Attempt.inspect fun store => store.getHistory key deserialize
  | dump => Reply.dump <$> Attempt.inspect Store.dump
  | describe => fun store => (.ok (.handle store.handle), store)
  | set key value => do
      Store.set key value
      return .value value
  | setDatum key datum => (fun _ => .nothing) <$> Store.setDatum key datum
  | update mapping stem => (fun _ => .nothing) <$> Store.update mapping stem
  | unset key => Reply.flag <$> Store.unset key
  | unsetRange names stem => Reply.count <$> Store.unsetRange names stem
  | flush save => (fun _ => .nothing) <$> Store.flush save
  | close => (fun _ => .nothing) <$> Store.close

end Request

end UnitState
