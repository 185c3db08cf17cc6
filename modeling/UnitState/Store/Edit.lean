import UnitState.Store.Basic

/-!
# Edits from outside

What another program can do to a database behind the stores that are open on it. An
edit needs the write lock like any other write, and a history row needs a hook.
-/

set_option autoImplicit false

namespace UnitState

inductive Edit where
  | live (key text : String)
  | history (key : String) (revision : Int) (data : Option String)
  /-- Adds the hook of a revision whose number is not taken. -/
  | hook (revision : Int) (row : HookRow)
  | version (version : Int)
deriving DecidableEq

namespace Edit

def needsTables : Edit → Bool
  | version _ => false
  | _ => true

def rows (edit : Edit) : Nat := if edit.needsTables then 1 else 0

end Edit

namespace DatabaseFile

/-- The version that is recorded for one that is asked for: itself if it fits a signed
32-bit word, else zero. -/
def recordedVersion (version : Int) : Int :=
  if -2147483648 ≤ version ∧ version ≤ 2147483647 then version else 0

def edit (file : DatabaseFile) (edit : Edit) : Option DatabaseFile :=
  if file.locked || (edit.needsTables && !file.hasTables) then none
  else
    match edit with
    | .live key text => some { file with contents := file.contents.setLive key text }
    | .history key revision data =>
        match file.contents.record revision key data with
        | .ok contents => some { file with contents := contents }
        | .error _ => none
    | .hook revision row =>
        (file.contents.addHook revision row).map fun contents =>
          { file with contents := contents }
    | .version version => some { file with version := recordedVersion version }

end DatabaseFile

end UnitState
