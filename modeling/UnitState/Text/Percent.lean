/-!
# Percent-encoded text

A percent sign and two hexadecimal digits stand for one byte; a percent sign without
digits stands for itself. The encoding of a zero byte ends the text.
-/

set_option autoImplicit false

namespace UnitState.Text

def hexDigitValue? (byte : UInt8) : Option UInt8 :=
  if 0x30 ≤ byte ∧ byte ≤ 0x39 then some (byte - 0x30)
  else if 0x41 ≤ byte ∧ byte ≤ 0x46 then some (byte - 0x41 + 10)
  else if 0x61 ≤ byte ∧ byte ≤ 0x66 then some (byte - 0x61 + 10)
  else none

def escapedByte? (high low : UInt8) : Option UInt8 := do
  return 16 * (← hexDigitValue? high) + (← hexDigitValue? low)

def percentDecode : List UInt8 → List UInt8
  | head :: high :: low :: later =>
      match if head = 0x25 then escapedByte? high low else none with
      | some byte => if byte = 0 then [] else byte :: percentDecode later
      | none => head :: percentDecode (high :: low :: later)
  | bytes => bytes

/-- The character of a byte in a text that is no UTF-8. Bytes beyond the ASCII range
have characters at the end of the private ones. -/
def byteCharacter (byte : UInt8) : Char :=
  if byte < 0x80 then Char.ofNat byte.toNat else Char.ofNat (0x10FF00 + byte.toNat)

def ofBytes (bytes : List UInt8) : String :=
  (String.fromUTF8? ⟨bytes.toArray⟩).getD (String.ofList (bytes.map byteCharacter))

def percentText (encoded : List Char) : String :=
  ofBytes (percentDecode (String.ofList encoded).toUTF8.toList)

end UnitState.Text
