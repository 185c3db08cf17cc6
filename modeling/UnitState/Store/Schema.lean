import UnitState.EngineFault
import UnitState.Text.Quoted

/-!
# The schema of a database

The tables that a store works on, the version that is recorded for them, and what can
go wrong when a database is brought up to date: its version is read, missing tables
are created, and the version is recorded, in one transaction.
-/

set_option autoImplicit false

namespace UnitState.Schema

def currentVersion : Int := 1

def statementLines : List String :=
  [
    "-- Unit key-value store schema.",
    "--",
    "-- Deletions in kv_revisions are stored as NULL data. A non-NULL row always",
    "-- holds a JSON value, so the string \"DELETED\" is an ordinary value.",
    "",
    "-- Live values: one row per key, data is the JSON serialization.",
    "CREATE TABLE IF NOT EXISTS kv (",
    "    key  TEXT PRIMARY KEY,",
    "    data TEXT NOT NULL",
    ");",
    "",
    "-- One row per hook scope.",
    "CREATE TABLE IF NOT EXISTS hooks (",
    "    version INTEGER PRIMARY KEY AUTOINCREMENT,",
    "    hook    TEXT NOT NULL,",
    "    date    TEXT NOT NULL",
    ");",
    "",
    "-- Value of each key as of a revision. NULL data marks a deletion.",
    "CREATE TABLE IF NOT EXISTS kv_revisions (",
    "    key      TEXT NOT NULL,",
    "    revision INTEGER NOT NULL REFERENCES hooks(version),",
    "    data     TEXT,",
    "    PRIMARY KEY (key, revision)",
    ");",
    "",
    "CREATE INDEX IF NOT EXISTS idx_kv_revisions_revision ON kv_revisions(revision);" ]

def statements : String :=
  String.join (statementLines.map fun line => line ++ "\n")

def liveTable : String := "kv"

def hookTable : String := "hooks"

def historyTable : String := "kv_revisions"

/-- What is done to bring a database up to date, in this order. -/
inductive Step where
  | readVersion
  | createTables
  | recordVersion
deriving DecidableEq

namespace Step

def query : Step → String
  | readVersion => ""
  | createTables => statements
  | recordVersion => "PRAGMA user_version = 1; -- Approximate query"

end Step

inductive Fault where
  | tooNew
  | failed (step : Step) (fault : EngineFault)
deriving DecidableEq

namespace Fault

def message : Fault → String
  | tooNew => "rusqlite_migrate error: MigrationDefinition(DatabaseTooFarAhead)"
  | failed step fault =>
      "rusqlite_migrate error: RusqliteError \x7b query: " ++ Text.quoted step.query
        ++ ", err: SqliteFailure(Error \x7b code: " ++ fault.code.1 ++ ", extended_code: "
        ++ String.ofList (Nat.toDigits 10 fault.code.2) ++ " \x7d, Some("
        ++ Text.quoted fault.message ++ ")) \x7d"

end Fault

end UnitState.Schema
