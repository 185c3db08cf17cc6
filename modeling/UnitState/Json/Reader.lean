import UnitState.Attempt
import UnitState.Json.Fault

/-!
# Reading JSON text

A reader takes the text that is left, with its place, and gives a result together
with what is then left, also when the result is a fault: an enclosing value goes on
to its closing bracket before a fault without a place is given one.
-/

set_option autoImplicit false

namespace UnitState.Json

structure Cursor where
  rest : List Char
  position : Position
deriving DecidableEq

namespace Cursor

def ofString (text : String) : Cursor := ⟨text.toList, .start⟩

def advance (cursor : Cursor) : Cursor :=
  match cursor.rest with
  | [] => cursor
  | head :: tail => ⟨tail, cursor.position.after head⟩

def advanceBy (cursor : Cursor) : Nat → Cursor
  | 0 => cursor
  | count + 1 => cursor.advance.advanceBy count

def nextPosition (cursor : Cursor) : Position :=
  match cursor.rest with
  | [] => cursor.position
  | head :: _ => cursor.position.afterByte head

def positionAfterBytes : Nat → Position → List Char → Position
  | 0, position, _ => position
  | _ + 1, position, [] => position
  | count + 1, position, head :: tail =>
      if head.utf8Size ≤ count + 1 then
        positionAfterBytes (count + 1 - head.utf8Size) (position.after head) tail
      else ⟨position.line, position.column + (count + 1)⟩
termination_by _ _ characters => characters.length

end Cursor

def isSpace (character : Char) : Bool :=
  character == ' ' || character == '\n' || character == '\t' || character == '\r'

def skipSpaces (position : Position) : List Char → Cursor
  | [] => ⟨[], position⟩
  | head :: tail =>
      if isSpace head then skipSpaces (position.after head) tail else ⟨head :: tail, position⟩

abbrev Reader (Result : Type) : Type := Attempt Cursor Fault Result

namespace Reader

variable {Result : Type}

def failHere (cause : Cause) : Reader Result := fun cursor =>
  (.error (.placed cause cursor.position), cursor)

def failNext (cause : Cause) : Reader Result := fun cursor =>
  (.error (.placed cause cursor.nextPosition), cursor)

def peek : Reader (Option Char) := fun cursor => (.ok cursor.rest.head?, cursor)

def discard : Reader Unit := fun cursor => (.ok (), cursor.advance)

/-- Skips spaces and gives the next character, which is not consumed. -/
def token : Reader (Option Char) := fun cursor =>
  let later := skipSpaces cursor.position cursor.rest
  (.ok later.rest.head?, later)

/-- Gives a fault without a place the place at which `reader` stopped. -/
def located (reader : Reader Result) : Reader Result := fun cursor =>
  match reader cursor with
  | (.ok result, later) => (.ok result, later)
  | (.error fault, later) => (.error (fault.place later.position), later)

/-- Reads the inside of brackets and then its closing. The closing is read also after
a fault inside, whose fault is then the result. -/
def closedBy (inside : Reader Result) (closing : Reader Unit) : Reader Result := fun cursor =>
  match inside cursor with
  | (.error fault, later) => (.error fault, (closing later).2)
  | (.ok result, later) =>
      match closing later with
      | (.ok (), last) => (.ok result, last)
      | (.error fault, last) => (.error fault, last)

end Reader

end UnitState.Json
