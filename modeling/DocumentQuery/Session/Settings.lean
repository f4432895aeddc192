import DocumentQuery.Expr.Relation
import DocumentQuery.Term.Basic

/-!
# Session settings

A session has a few settings, each changed and shown as a datum.  Changing a
setting checks the value first, so the settings are valid at all times.  Those
that differ from what the server assumes travel with every query.
-/

namespace DocumentQuery

/-- How the server acknowledges writes. -/
inductive Durability where
  /-- Once they are on disk. -/
  | hard
  /-- Once they are in memory. -/
  | soft
  deriving DecidableEq, Repr, Inhabited

namespace Durability

def name : Durability → String
  | .hard => "hard"
  | .soft => "soft"

def ofName? (name : String) : Option Durability :=
  [hard, soft].find? fun durability => durability.name == name

end Durability

structure Settings where
  /-- The database of tables that name none. -/
  defaultDatabase : String := "test"
  durability : Durability := .hard
  /-- Whether the server is asked for profiling information. -/
  profile : Bool := false
  /-- The most rows of a batch; with zero the server decides. -/
  maxBatchRows : Nat := 0
  deriving DecidableEq, Repr, Inhabited

inductive SettingKey where
  | defaultDatabase
  | durability
  | profile
  | maxBatchRows
  deriving DecidableEq, Repr

namespace SettingKey

def all : List SettingKey := [.defaultDatabase, .durability, .profile, .maxBatchRows]

def name : SettingKey → String
  | .defaultDatabase => "default_database"
  | .durability => "durability"
  | .profile => "profile"
  | .maxBatchRows => "max_batch_rows"

def description : SettingKey → String
  | .defaultDatabase => "Database used for tables referenced without one"
  | .durability => "Write acknowledgement mode, 'hard' or 'soft'"
  | .profile => "Ask the server to return profiling information"
  | .maxBatchRows => "Maximum number of rows per batch, 0 for server default"

def ofName? (name : String) : Option SettingKey := all.find? fun key => key.name == name

/-- What a value of the setting looks like, in words. -/
def expected : SettingKey → String
  | .defaultDatabase | .durability => "string"
  | .profile => "bool"
  | .maxBatchRows => "non-negative integer"

/-- The value is of the wrong type for the setting. -/
def mismatch (key : SettingKey) (value : Datum) : BuildFault :=
  .settingType key.name key.expected value.typeName

end SettingKey

namespace Settings

/-- The largest batch that can be asked for. -/
def rowsLimit : Nat := 1000000

def checkRows (n : Nat) : Except BuildFault Unit :=
  if rowsLimit < n then .error (.tooManyRows rowsLimit) else .ok ()

def value (s : Settings) : SettingKey → Datum
  | .defaultDatabase => .string s.defaultDatabase
  | .durability => .string s.durability.name
  | .profile => .bool s.profile
  | .maxBatchRows => .ofNat s.maxBatchRows

def change (s : Settings) (key : SettingKey) (value : Datum) : Except BuildFault Settings :=
  match key with
  | .defaultDatabase =>
    match value.asString? with
    | none => .error (key.mismatch value)
    | some name => do
      checkName .database name
      return { s with defaultDatabase := name }
  | .durability =>
    match value.asString? with
    | none => .error (key.mismatch value)
    | some name =>
      match Durability.ofName? name with
      | some durability => .ok { s with durability := durability }
      | none => .error (.unknownDurability name)
  | .profile =>
    match value.asBool? with
    | none => .error (key.mismatch value)
    | some profile => .ok { s with profile := profile }
  | .maxBatchRows =>
    match value.asWord? with
    | none => .error (key.mismatch value)
    | some rows => do
      checkRows rows
      return { s with maxBatchRows := rows }

/-- The setting of a name. -/
def key (name : String) : Except BuildFault SettingKey :=
  match SettingKey.ofName? name with
  | some key => .ok key
  | none => .error (.unknownSetting name)

/-- The settings with the one of a name changed. -/
def set (s : Settings) (name : String) (value : Datum) : Except BuildFault Settings := do
  s.change (← key name) value

def get (s : Settings) (name : String) : Except BuildFault Datum := do
  return s.value (← key name)

/-- The settings with the one of a name as it is at first. -/
def reset (s : Settings) (name : String) : Except BuildFault Settings := do
  s.set name (← ({} : Settings).get name)

/-- The options that travel with every query: the default database, and every
other setting that is not what the server assumes. -/
def startOptions (s : Settings) : Fields Term :=
  [("db", .ofArgs .db [.literal (.string s.defaultDatabase)])] ++
    (if s.durability = .hard then []
      else [(SettingKey.durability.name, .literal (s.value .durability))]) ++
    (if s.maxBatchRows = 0 then []
      else [(SettingKey.maxBatchRows.name, .literal (s.value .maxBatchRows))]) ++
    (if s.profile then [(SettingKey.profile.name, .literal (s.value .profile))] else [])

end Settings

end DocumentQuery
