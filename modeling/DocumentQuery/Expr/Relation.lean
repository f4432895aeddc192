import DocumentQuery.Expr.Basic

/-!
# Databases, tables and joins

Databases and tables have plain names.  A table that is named without its
database belongs to the default database of whoever runs the query.
-/

namespace DocumentQuery

def isNameChar (c : Char) : Bool := c.isAlphanum || c == '_'

/-- A plain name is not empty and has only ASCII letters, digits and underscores. -/
def checkName (entity : Entity) (name : String) : Except BuildFault Unit :=
  if name.isEmpty then .error (.emptyName entity)
  else if name.toList.all isNameChar then .ok ()
  else .error (.invalidName entity name)

def IsPlainName (name : String) : Prop :=
  name ≠ "" ∧ ∀ c ∈ name.toList,
    ('A' ≤ c ∧ c ≤ 'Z') ∨ ('a' ≤ c ∧ c ≤ 'z') ∨ ('0' ≤ c ∧ c ≤ '9') ∨ c = '_'

theorem isNameChar_iff {c : Char} : isNameChar c = true ↔
    ('A' ≤ c ∧ c ≤ 'Z') ∨ ('a' ≤ c ∧ c ≤ 'z') ∨ ('0' ≤ c ∧ c ≤ '9') ∨ c = '_' := by
  have halphanum : c.isAlphanum =
      (decide ('A' ≤ c ∧ c ≤ 'Z') || (decide ('a' ≤ c) && decide (c ≤ 'z')) ||
        (decide ('0' ≤ c) && decide (c ≤ '9'))) := rfl
  simp only [isNameChar, halphanum, Bool.or_eq_true, Bool.and_eq_true, decide_eq_true_eq,
    beq_iff_eq, or_assoc]

theorem checkName_eq_ok_iff {entity : Entity} {name : String} :
    checkName entity name = .ok () ↔ IsPlainName name := by
  unfold checkName IsPlainName
  split
  · next hempty => simp [String.isEmpty_iff.1 hempty]
  · next hempty =>
    have hne : name ≠ "" := fun h => hempty (String.isEmpty_iff.2 h)
    simp only [hne, ne_eq, not_false_eq_true, true_and]
    split
    · next hall => simpa [isNameChar_iff] using hall
    · next hall => simpa [isNameChar_iff] using hall

namespace Expr

open Build

variable {m : Type → Type} [Monad m]

def database (name : String) : BuildT m Expr := do
  checkName .database name
  node .database [← text name] []

/-- A table, of the given database or of the default one. -/
def tableOf (db : Option Expr) (name : String) : BuildT m Expr := do
  checkName .table name
  node .table (db.toList ++ [← text name]) []

def table (name : String) : BuildT m Expr := tableOf none name

def createDatabase (name : String) : BuildT m Expr := do
  checkName .database name
  operator .dbCreate [← text name]

def dropDatabase (name : String) : BuildT m Expr := do
  checkName .database name
  operator .dbDrop [← text name]

def listDatabases : BuildT m Expr := operator .dbList []

/-- A table to be created, and the field that tells its documents apart if that
is not the usual one. -/
structure TableSpec where
  name : String
  primaryKey : Option String
  deriving DecidableEq, Repr

def createTableOf (db : Option Expr) (spec : TableSpec) : BuildT m Expr := do
  checkName .table spec.name
  let options ← match spec.primaryKey with
    | none => pure []
    | some key =>
      if key.isEmpty then fail (.emptyPrimaryKey spec.name)
      else do pure [("primary_key", ← text key)]
  operatorWith .tableCreate (db.toList ++ [← text spec.name]) options

def createTable (spec : TableSpec) : BuildT m Expr := createTableOf none spec

def dropTableOf (db : Option Expr) (name : String) : BuildT m Expr := do
  checkName .table name
  operator .tableDrop (db.toList ++ [← text name])

def dropTable (name : String) : BuildT m Expr := dropTableOf none name

def listTables : BuildT m Expr := operator .tableList []

/-- Only a database has tables. -/
def expectDatabase (e : Expr) (operation : String) : BuildT m Unit :=
  match e.kind with
  | .database => return ()
  | _ => fail (.notDatabase operation)

def tableIn (db : Expr) (name : String) : BuildT m Expr := do
  db.expectDatabase "table"
  tableOf db name

def createTableIn (db : Expr) (spec : TableSpec) : BuildT m Expr := do
  db.expectDatabase "table_create"
  createTableOf db spec

def dropTableIn (db : Expr) (name : String) : BuildT m Expr := do
  db.expectDatabase "table_drop"
  dropTableOf db name

def listTablesIn (db : Expr) : BuildT m Expr := do
  db.expectDatabase "table_list"
  operator .tableList [db]

def get (e key : Expr) : BuildT m Expr := operator .get [e, key]

/-- A range takes one bound or two. -/
def range (e : Expr) (bounds : List Expr) (options : Fields Expr) : BuildT m Expr :=
  if bounds.isEmpty ∨ 2 < bounds.length then fail (.boundCount bounds.length)
  else operatorWith .between (e :: bounds) options

/-- The documents whose index lies between the bounds. -/
def between (e : Expr) (index : String) (bounds : List Expr) : BuildT m Expr :=
  if index.isEmpty then fail .emptyIndex
  else do e.range bounds [("index", ← text index)]

/-- The documents whose key lies between the bounds. -/
def betweenKeys (e : Expr) (bounds : List Expr) : BuildT m Expr := e.range bounds []

/-- The pairs for which the predicate holds. -/
def innerJoin (e other : Expr) (predicate : Expr → Expr → BuildT m Expr) : BuildT m Expr := do
  operator .innerJoin [e, other, ← lambda₂ predicate]

/-- The pairs for which the predicate holds, and every left element without one. -/
def outerJoin (e other : Expr) (predicate : Expr → Expr → BuildT m Expr) : BuildT m Expr := do
  operator .outerJoin [e, other, ← lambda₂ predicate]

/-- The pairs in which a field on the left equals an index on the right. -/
def eqJoin (e : Expr) (field : String) (other : Expr) (index : String) : BuildT m Expr := do
  operator .eqJoin [e, ← text field, other, ← text index]

/-- Each pair merged into one document. -/
def zip (e : Expr) : BuildT m Expr := operator .zip [e]

end Expr

end DocumentQuery
