/-!
# Blank space

The characters with the Unicode property `White_Space`, and the removal of such
characters from both ends of a text.
-/

set_option autoImplicit false

namespace UnitState.Text

def isBlank (character : Char) : Bool :=
  let code := character.toNat
  (0x09 ≤ code && code ≤ 0x0D) || code == 0x20 || code == 0x85 || code == 0xA0
    || code == 0x1680 || (0x2000 ≤ code && code ≤ 0x200A) || code == 0x2028
    || code == 0x2029 || code == 0x202F || code == 0x205F || code == 0x3000

def trimBlank (characters : List Char) : List Char :=
  ((characters.dropWhile isBlank).reverse.dropWhile isBlank).reverse

def trim (text : String) : String := String.ofList (trimBlank text.toList)

theorem drop_while_blank_head {characters : List Char} {head : Char} {tail : List Char}
    (shape : characters.dropWhile isBlank = head :: tail) : isBlank head = false := by
  have first := List.head?_dropWhile_not isBlank characters
  rw [shape] at first
  simpa using first

end UnitState.Text
