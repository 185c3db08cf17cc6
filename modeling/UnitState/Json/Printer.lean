import UnitState.Decimal.Shortest
import UnitState.Json.Value
import UnitState.Text.Quoted

/-!
# JSON text

The compact form of a value, without blanks between tokens, and the indented form
with two spaces a level. Strings escape quotation marks, backslashes and the control
characters below U+0020, and nothing else. Members are written in the order in which
the object lists them.
-/

set_option autoImplicit false

namespace UnitState.Json

open UnitState.Decimal

/-- Floats are positional while the leading digit stands for `10 ^ -5` to `10 ^ 15`. -/
def floatStyle : PointStyle := ⟨-5, 15⟩

def integerText (value : Int) : List Char :=
  if value < 0 then '-' :: digitsOf value.natAbs else digitsOf value.natAbs

def Number.text : Number → List Char
  | .integer value _ => integerText value
  | .float value => floatStyle.text value

def escapedCharacter (character : Char) : List Char :=
  match character with
  | '"' => ['\\', '"']
  | '\\' => ['\\', '\\']
  | '\n' => ['\\', 'n']
  | '\r' => ['\\', 'r']
  | '\t' => ['\\', 't']
  | '\x08' => ['\\', 'b']
  | '\x0c' => ['\\', 'f']
  | _ =>
      if character.toNat < 0x20 then
        let digits := Text.hexDigits character.toNat
        '\\' :: 'u' :: List.replicate (4 - digits.length) '0' ++ digits
      else [character]

def stringText (text : String) : List Char :=
  '"' :: text.toList.flatMap escapedCharacter ++ ['"']

namespace Value

mutual

def compactChars : Value → List Char
  | null => "null".toList
  | bool true => "true".toList
  | bool false => "false".toList
  | number content => content.text
  | string text => stringText text
  | array items => '[' :: compactItems items ++ [']']
  | object members => '\x7b' :: compactMembers members ++ ['\x7d']

def compactItems : List Value → List Char
  | [] => []
  | [only] => only.compactChars
  | head :: tail => head.compactChars ++ ',' :: compactItems tail

def compactMembers : List (String × Value) → List Char
  | [] => []
  | [(key, only)] => stringText key ++ ':' :: only.compactChars
  | (key, head) :: tail =>
      stringText key ++ ':' :: head.compactChars ++ ',' :: compactMembers tail

end

def compact (value : Value) : String := String.ofList value.compactChars

def lineBreak (level : Nat) : List Char := '\n' :: List.replicate (2 * level) ' '

mutual

def indentedChars (level : Nat) : Value → List Char
  | array [] => ['[', ']']
  | array (head :: tail) =>
      '[' :: indentedItems (level + 1) (head :: tail) ++ lineBreak level ++ [']']
  | object [] => ['\x7b', '\x7d']
  | object (head :: tail) =>
      '\x7b' :: indentedMembers (level + 1) (head :: tail) ++ lineBreak level ++ ['\x7d']
  | null => "null".toList
  | bool true => "true".toList
  | bool false => "false".toList
  | number content => content.text
  | string text => stringText text

def indentedItems (level : Nat) : List Value → List Char
  | [] => []
  | [only] => lineBreak level ++ only.indentedChars level
  | head :: tail =>
      lineBreak level ++ head.indentedChars level ++ ',' :: indentedItems level tail

def indentedMembers (level : Nat) : List (String × Value) → List Char
  | [] => []
  | [(key, only)] =>
      lineBreak level ++ stringText key ++ ':' :: ' ' :: only.indentedChars level
  | (key, head) :: tail =>
      lineBreak level ++ stringText key ++ ':' :: ' ' :: head.indentedChars level
        ++ ',' :: indentedMembers level tail

end

def indented (value : Value) : String := String.ofList (value.indentedChars 0)

end Value

end UnitState.Json
