import UnitState.Address

/-!
# Faults of the engine

Why the engine refused a statement or a file, with its own wording and the code by
which it names the kind of fault.
-/

set_option autoImplicit false

namespace UnitState

inductive EngineFault where
  /-- Another connection holds the write lock. -/
  | locked
  | nestedTransaction
  /-- No revision number is left. -/
  | full
  /-- A history row names a revision without a hook. -/
  | unknownRevision
  | notDatabase
  | cannotOpen
  | cannotOpenPath (path : String)
  | readOnly
  | inputOutput
  | noTable (table : String)
  | address (fault : AddressFault)
deriving DecidableEq

namespace EngineFault

def message : EngineFault → String
  | locked => "database is locked"
  | nestedTransaction => "cannot start a transaction within a transaction"
  | full => "database or disk is full"
  | unknownRevision => "FOREIGN KEY constraint failed"
  | notDatabase => "file is not a database"
  | cannotOpen => "unable to open database file"
  | cannotOpenPath path => "unable to open database file: " ++ path
  | readOnly => "attempt to write a readonly database"
  | inputOutput => "disk I/O error"
  | noTable table => "no such table: " ++ table
  | address fault => fault.message

def code : EngineFault → String × Nat
  | locked => ("DatabaseBusy", 5)
  | full => ("DiskFull", 13)
  | unknownRevision => ("ConstraintViolation", 787)
  | notDatabase => ("NotADatabase", 26)
  | cannotOpen | cannotOpenPath _ => ("CannotOpen", 14)
  | readOnly => ("ReadOnly", 8)
  | inputOutput => ("SystemIoFailure", 10)
  | nestedTransaction | noTable _ | address _ => ("Unknown", 1)

end EngineFault

end UnitState
