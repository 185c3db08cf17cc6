/-!
# Calls

What the words of a call ask for. An option can be given before and after the name of
the command, at most once in each place, and the later place wins. Words that start
with a dash are options until a word of two dashes; a single dash is a word like any
other.
-/

set_option autoImplicit false

namespace UnitState

inductive Command where
  | get (key : String)
  | getRange (stem : String) (strip : Bool)
  | set (key text : String) (json : Bool)
  | unset (key : String)
  | history (key : String) (deserialize : Bool)
  | debug
deriving DecidableEq

structure Call where
  /-- The path of the database, if it does not follow from the environment. -/
  database : Option String
  command : Command
deriving DecidableEq

inductive Refusal where
  | help
  | misuse
deriving DecidableEq

namespace CommandLine

inductive Reading where
  | word
  | path
  /-- As no option, whatever it starts with. -/
  | plain
deriving DecidableEq

structure Level where
  database : Option String := none
  flag : Bool := false
  words : List String := []

namespace Level

def setDatabase (level : Level) (path : String) : Except Refusal Level :=
  if path.isEmpty || level.database.isSome then .error .misuse
  else .ok { level with database := some path }

def setFlag (level : Level) : Except Refusal Level :=
  if level.flag then .error .misuse else .ok { level with flag := true }

end Level

/-- A word that is no value. A single dash is one. -/
def isOption (word : String) : Bool :=
  match word.toList with
  | '-' :: _ :: _ => true
  | _ => false

def readOption (flagName : Option String) (level : Level) (word : String) :
    Except Refusal (Reading × Level) :=
  match word.toList with
  | '-' :: '-' :: [] => .ok (.plain, level)
  | '-' :: '-' :: body =>
      let name := String.ofList (body.takeWhile (· != '='))
      match body.dropWhile (· != '=') with
      | _ :: value =>
          if name = "db" then
            (level.setDatabase (String.ofList value)).map fun level => (.word, level)
          else .error .misuse
      | [] =>
          if name = "db" then .ok (.path, level)
          else if name = "help" then .error .help
          else if some name = flagName then level.setFlag.map fun level => (.word, level)
          else .error .misuse
  | '-' :: 'h' :: _ => .error .help
  | _ => .error .misuse

/-- Reads the words after the name of a command, of which at most `limit` are values. -/
def readArguments (flagName : Option String) (limit : Nat) (reading : Reading)
    (level : Level) : List String → Except Refusal Level
  | [] => if reading = .path then .error .misuse else .ok level
  | word :: later =>
      if reading = .path then
        if isOption word then .error .misuse
        else do readArguments flagName limit .word (← level.setDatabase word) later
      else if reading = .word ∧ isOption word then do
        let (reading, level) ← readOption flagName level word
        readArguments flagName limit reading level later
      else if level.words.length < limit then
        readArguments flagName limit reading
          { level with words := level.words ++ [word] } later
      else .error .misuse

def commandNames : List String := ["get", "getrange", "set", "unset", "history", "debug"]

def readCommand (name : String) (words : List String) : Except Refusal Call :=
  match name with
  | "get" => do
      let level ← readArguments none 1 .word {} words
      match level.words with
      | [key] => .ok ⟨level.database, .get key⟩
      | _ => .error .misuse
  | "getrange" => do
      let level ← readArguments (some "strip") 1 .word {} words
      match level.words with
      | [stem] => .ok ⟨level.database, .getRange stem level.flag⟩
      | _ => .error .misuse
  | "set" => do
      let level ← readArguments (some "json") 2 .word {} words
      match level.words with
      | [key, text] => .ok ⟨level.database, .set key text level.flag⟩
      | _ => .error .misuse
  | "unset" => do
      let level ← readArguments none 1 .word {} words
      match level.words with
      | [key] => .ok ⟨level.database, .unset key⟩
      | _ => .error .misuse
  | "history" => do
      let level ← readArguments (some "deserialize") 1 .word {} words
      match level.words with
      | [key] => .ok ⟨level.database, .history key level.flag⟩
      | _ => .error .misuse
  | "debug" => do
      let level ← readArguments none 0 .word {} words
      .ok ⟨level.database, .debug⟩
  | "help" =>
      match words with
      | [] => .error .help
      | [topic] => .error (if (commandNames ++ ["help"]).contains topic then .help else .misuse)
      | _ => .error .misuse
  | _ => .error .misuse

def readCall (reading : Reading) (level : Level) : List String → Except Refusal Call
  | [] => .error .misuse
  | word :: later =>
      match reading with
      | .path =>
          if isOption word then .error .misuse
          else do readCall .word (← level.setDatabase word) later
      | .plain => .error .misuse
      | .word =>
          if isOption word then do
            let (reading, level) ← readOption none level word
            readCall reading level later
          else do
            let call ← readCommand word later
            .ok { call with database := call.database.or level.database }

end CommandLine

/-- What a call asks for, from the words after the name of the program. -/
def Call.ofWords (words : List String) : Except Refusal Call :=
  CommandLine.readCall .word {} words

end UnitState
