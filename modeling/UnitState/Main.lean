import UnitState.CommandLine.Run
import UnitState.Store.Image

/-!
# The program

The outermost layer of the command line: it takes the words of the call and the
environment, keeps the database in a file as an image, and prints what a command
leaves. All decisions are made elsewhere.
-/

set_option autoImplicit false

open UnitState

namespace UnitState.Main

def settingVariables : List String :=
  [ Settings.databaseVariable, Settings.busyVariable, Settings.testModeVariable,
    Settings.charmDirectoryVariable, Settings.unitNameVariable ]

def environment : IO Environment := do
  let bindings ← settingVariables.filterMapM fun name => do
    return (← IO.getEnv name).map fun value => (name, value)
  return .ofList bindings

def report (ended : ProgramEnd) : IO UInt32 := do
  IO.print ended.output
  match ended.message with
  | some message => IO.eprint message
  | none => pure ()
  return ended.exit.toUInt32

/-- Runs a command on the database with this image, and gives the image after it. -/
def runOn (command : Command) (location : Location) (image : String) :
    ProgramEnd × Option String :=
  match (DatabaseFile.ofImage image).mapError StoreError.engine with
  | .error error => (.unopened error, none)
  | .ok file =>
      match Store.connect location false file with
      | .error error => (.unopened error, none)
      | .ok store =>
          let (ended, store) := command.run store
          (ended, some store.file.image)

def readImage (path : String) : IO String := do
  try IO.FS.readFile path
  catch
    | .noFileOrDirectory .. => return ""
    | error => throw error

def run (call : Call) (settings : Settings) : IO UInt32 := do
  match (call.database.map Location.file).getD settings.location with
  | .memory => report (runOn call.command .memory "").1
  | .file path => do
      let (ended, image) := runOn call.command (.file path) (← readImage path)
      match image with
      | some image => IO.FS.writeFile path image
      | none => pure ()
      report ended

end UnitState.Main

def main (words : List String) : IO UInt32 := do
  match Call.ofWords words with
  | .error .help => return 0
  | .error .misuse => return 2
  | .ok call =>
      match Settings.resolve (← UnitState.Main.environment) with
      | .error setting => UnitState.Main.report (.unopened (.invalidSetting setting))
      | .ok settings => UnitState.Main.run call settings
