import UnitState.Text.Concealed

/-!
# Quoted text

The form in which a text stands in a diagnostic message: between quotation marks,
with the marks themselves, backslashes and line controls escaped by a backslash and
every other concealed character given by its code point.
-/

set_option autoImplicit false

namespace UnitState.Text

def hexDigits (number : Nat) : List Char :=
  Nat.toDigits 16 number

def quotedCharacter (character : Char) : List Char :=
  match character with
  | '\x00' => ['\\', '0']
  | '\t' => ['\\', 't']
  | '\r' => ['\\', 'r']
  | '\n' => ['\\', 'n']
  | '"' => ['\\', '"']
  | '\\' => ['\\', '\\']
  | _ =>
      if isConcealed character then
        ['\\', 'u', '\x7b'] ++ hexDigits character.toNat ++ ['\x7d']
      else [character]

def quoted (text : String) : String :=
  String.ofList (['"'] ++ text.toList.flatMap quotedCharacter ++ ['"'])

end UnitState.Text
