import UnitState.Json.Printer

/-!
# Faults of JSON text

Why a text was refused, and where. Lines count from one; a column is the number of
bytes of the line that had been read, so the byte just read has its one-based column.
A fault of a decoded value has no place of its own: it takes the place at which the
reader stood when the enclosing value ended, and none at the top.
-/

set_option autoImplicit false

namespace UnitState.Json

open UnitState.Decimal

structure Position where
  line : Nat
  column : Nat
deriving DecidableEq

namespace Position

def start : Position := ⟨1, 0⟩

def after (position : Position) (character : Char) : Position :=
  if character = '\n' then ⟨position.line + 1, 0⟩
  else ⟨position.line, position.column + character.utf8Size⟩

def afterByte (position : Position) (character : Char) : Position :=
  if character = '\n' then ⟨position.line + 1, 0⟩
  else ⟨position.line, position.column + 1⟩

end Position

inductive Found where
  | null
  | bool (flag : Bool)
  | number (number : Number)
  | text (text : String)
  | sequence
  | map
  | unitVariant
deriving DecidableEq

namespace Found

def description : Found → String
  | null => "null"
  | bool true => "boolean `true`"
  | bool false => "boolean `false`"
  | number (.integer value _) => "integer `" ++ String.ofList (integerText value) ++ "`"
  | number (.float value) =>
      "floating point `" ++ String.ofList (floatStyle.text value) ++ "`"
  | text content => "string " ++ Text.quoted content
  | sequence => "sequence"
  | map => "map"
  | unitVariant => "unit variant"

end Found

inductive Cause where
  | endInList
  | endInObject
  | endInString
  | endInValue
  | expectedColon
  | expectedListCommaOrEnd
  | expectedObjectCommaOrEnd
  | expectedIdent
  | expectedValue
  | invalidEscape
  | invalidNumber
  | numberOutOfRange
  | loneSurrogate
  | unfinishedSurrogatePair
  | controlCharacter
  | keyNotString
  | trailingComma
  | trailingCharacters
  | tooDeep
  | invalidType (found : Found) (expected : String)
  | invalidValue (found : Found) (expected : String)
  | invalidLength (length : Nat) (expected : String)
  | unknownVariant (name : String) (known : List String)
  | missingField (name : String)
  | duplicateField (name : String)
deriving DecidableEq

def alternatives (names : List String) : String :=
  match names.map (fun name => "`" ++ name ++ "`") with
  | [] => "there are no variants"
  | [only] => "expected " ++ only
  | [first, second] => "expected " ++ first ++ " or " ++ second
  | several => "expected one of " ++ String.intercalate ", " several

namespace Cause

def message : Cause → String
  | endInList => "EOF while parsing a list"
  | endInObject => "EOF while parsing an object"
  | endInString => "EOF while parsing a string"
  | endInValue => "EOF while parsing a value"
  | expectedColon => "expected `:`"
  | expectedListCommaOrEnd => "expected `,` or `]`"
  | expectedObjectCommaOrEnd => "expected `,` or `\x7d`"
  | expectedIdent => "expected ident"
  | expectedValue => "expected value"
  | invalidEscape => "invalid escape"
  | invalidNumber => "invalid number"
  | numberOutOfRange => "number out of range"
  | loneSurrogate => "lone leading surrogate in hex escape"
  | unfinishedSurrogatePair => "unexpected end of hex escape"
  | controlCharacter =>
      "control character (\\u0000-\\u001F) found while parsing a string"
  | keyNotString => "key must be a string"
  | trailingComma => "trailing comma"
  | trailingCharacters => "trailing characters"
  | tooDeep => "recursion limit exceeded"
  | invalidType found expected =>
      "invalid type: " ++ found.description ++ ", expected " ++ expected
  | invalidValue found expected =>
      "invalid value: " ++ found.description ++ ", expected " ++ expected
  | invalidLength length expected =>
      "invalid length " ++ String.ofList (digitsOf length) ++ ", expected " ++ expected
  | unknownVariant name known =>
      "unknown variant `" ++ name ++ "`, " ++ alternatives known
  | missingField name => "missing field `" ++ name ++ "`"
  | duplicateField name => "duplicate field `" ++ name ++ "`"

end Cause

structure Fault where
  cause : Cause
  position : Option Position
deriving DecidableEq

namespace Fault

def placed (cause : Cause) (position : Position) : Fault := ⟨cause, some position⟩

def unplaced (cause : Cause) : Fault := ⟨cause, none⟩

def place (fault : Fault) (position : Position) : Fault :=
  ⟨fault.cause, fault.position.or (some position)⟩

def message (fault : Fault) : String :=
  match fault.position with
  | none => fault.cause.message
  | some position =>
      fault.cause.message ++ " at line " ++ String.ofList (digitsOf position.line)
        ++ " column " ++ String.ofList (digitsOf position.column)

end Fault

end UnitState.Json
