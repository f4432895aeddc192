import DocumentQuery.Expr.Basic

/-!
# Determinism of write bodies

An atomic update or replace evaluates its body inside the lock of a row, so
the body must depend on nothing but the row.  A body that reads stored data,
runs a script or writes is not deterministic, and the first such node in the
order of nodes is the reason given.
-/

namespace DocumentQuery

/-- Why a node makes a body depend on more than the row. -/
inductive Impurity where
  | readsDatabase
  | readsTable (name : String)
  | runsScript
  | reads (kind : TermKind)
  | performs (kind : TermKind)
  deriving DecidableEq, Repr

def Impurity.message : Impurity → String
  | .readsDatabase => "reads a database"
  | .readsTable name => "reads table '" ++ name ++ "'"
  | .runsScript => "evaluates javascript"
  | .reads kind => "reads data with " ++ kind.name
  | .performs kind => "performs a nested " ++ kind.name

/-- The name a table node ends in, if it is a constant text. -/
def tableName (operands : List Expr) : String :=
  ((operands.getLast?.bind Expr.literal?).bind Datum.asString?).getD "?"

/-- What makes a single node impure. -/
def NodeKind.impurity? (kind : NodeKind) (operands : List Expr) : Option Impurity :=
  match kind with
  | .database => some .readsDatabase
  | .table => some (.readsTable (tableName operands))
  | .operator kind =>
    if kind = .javascript then some .runsScript
    else if kind.isRelationSource then some (.reads kind)
    else if kind.isWrite || kind.isAdmin then some (.performs kind)
    else none
  | _ => none

namespace Expr

mutual

/-- The first impurity among the nodes of an expression. -/
def impurity? : Expr → Option Impurity
  | ⟨_, kind, operands, options⟩ =>
    kind.impurity? operands <|> operandsImpurity? operands <|> optionsImpurity? options

def operandsImpurity? : List Expr → Option Impurity
  | [] => none
  | operand :: rest => impurity? operand <|> operandsImpurity? rest

def optionsImpurity? : List (String × Expr) → Option Impurity
  | [] => none
  | (_, option) :: rest => impurity? option <|> optionsImpurity? rest

end

end Expr

/-- An update or replace whose body is not deterministic. -/
structure RefusedWrite where
  kind : TermKind
  reason : Impurity
  deriving DecidableEq, Repr

def RefusedWrite.display (w : RefusedWrite) : String :=
  w.kind.name ++ " body " ++ w.reason.message

/-- Whether the rows of a write of this kind can be changed atomically. -/
def TermKind.isRowWrite (kind : TermKind) : Bool := kind == .update || kind == .replace

theorem TermKind.isRowWrite_iff {kind : TermKind} :
    kind.isRowWrite ↔ kind = .update ∨ kind = .replace := by
  simp [isRowWrite]

/-- What is wrong with a node as an atomic write. -/
def Expr.refusedWrite? (e : Expr) : Option RefusedWrite := do
  let kind ← e.operator?
  guard kind.isRowWrite
  let body ← e.operands[1]?
  return ⟨kind, ← body.impurity?⟩

/-- The writes in an expression that the server refuses when they are atomic. -/
def Expr.refusedWrites (e : Expr) : List RefusedWrite := e.nodes.filterMap Expr.refusedWrite?

end DocumentQuery
