import UnitState.Record

/-!
# Shapes

The types as which a stored value can be asked for. What has been decoded is handed
back as a value: an absent option as null, a map with its keys in order.
-/

set_option autoImplicit false

namespace UnitState.Json

inductive Shape where
  | text
  | boolean
  | integer (type : Decoder.IntegerType)
  | float
  | integers (type : Decoder.IntegerType)
  | texts
  | textMap
  | optionalText
  | unit
  | record
deriving DecidableEq

namespace Shape

def decoder : Shape → Decoder Value
  | text => fun room => Value.string <$> Decoder.text room
  | boolean => fun room => Value.bool <$> Decoder.boolean room
  | integer type => fun room => Value.ofInt <$> Decoder.integer type room
  | float => fun room => (fun number => .number (.float number)) <$> Decoder.float room
  | integers type => fun room =>
      (fun items => .array (items.map Value.ofInt)) <$> Decoder.list (Decoder.integer type) room
  | texts => fun room =>
      (fun items => .array (items.map Value.string)) <$> Decoder.list Decoder.text room
  | textMap => fun room =>
      (fun members => .ofObject ((Table.ofList members).map fun _ text => .string text))
        <$> Decoder.members Decoder.text room
  | optionalText => fun room =>
      (fun text => text.elim .null Value.string) <$> Decoder.optional Decoder.text room
  | unit => fun room => (fun _ => .null) <$> Decoder.unit room
  | record => fun room => Record.toValue <$> Record.decoder room

def read (shape : Shape) (text : String) : Except Fault Value := shape.decoder.run text

end Shape

end UnitState.Json
