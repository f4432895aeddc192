import DocumentQuery.Compile.Scope
import DocumentQuery.Term.Basic
import DocumentQuery.Write.Determinism

/-!
# Compiling expressions to terms

An expression becomes a term node by node.  Parameters become numbered
variables, a table without a database gets the default one, and every update
and replace is told whether to change its rows atomically.  An atomic write
whose body is not deterministic is compiled all the same, with a warning.
-/

namespace DocumentQuery

/-- What a compilation depends on besides the expression. -/
structure CompileContext where
  /-- The database of tables that name none. -/
  defaultDatabase : Option String := none
  /-- Whether updates and replaces change their rows atomically. -/
  atomic : Bool := true
  deriving DecidableEq, Repr

structure CompileState where
  scopes : Scopes
  /-- The atomic writes met so far that the server will refuse. -/
  warnings : List RefusedWrite
  deriving Repr

abbrev Compile (α : Type) := ExceptT BuildFault (StateM CompileState) α

namespace Compile

def openScope (parent : Nat) : Compile Nat := do
  let state ← get
  let (scope, scopes) := state.scopes.child parent
  set { state with scopes := scopes }
  return scope

def bindParameter (scope : Nat) (parameter : NodeId) : Compile Nat := do
  let state ← get
  let (result, scopes) := state.scopes.bind scope parameter
  set { state with scopes := scopes }
  result

def resolveParameter (scope : Nat) (parameter : NodeId) : Compile Nat := do
  match ← (← get).scopes.resolve scope parameter with
  | some number => return number
  | none => throw .escapedVariable

def warn (write : RefusedWrite) : Compile Unit :=
  modify fun state => { state with warnings := state.warnings ++ [write] }

/-- The database that goes before the name of a table that has none. -/
def qualify (context : CompileContext) (args : List Term) : List Term :=
  match args, context.defaultDatabase with
  | [name], some database => [.ofArgs .db [.literal (.string database)], name]
  | _, _ => args

/-- Tells an update or replace whether it is atomic, and warns if it cannot be. -/
def finishOperator (context : CompileContext) (kind : TermKind) (operands : List Expr)
    (t : Term) : Compile Term :=
  if kind.isRowWrite then do
    if context.atomic then
      match operands[1]?.bind Expr.impurity? with
      | some reason => warn ⟨kind, reason⟩
      | none => pure ()
    return t.withOption "atomic" (.literal (.bool context.atomic))
  else return t

mutual

/-- Compiles an expression in a scope. -/
def expr (context : CompileContext) (scope : Nat) : Expr → Compile Term
  | ⟨id, kind, operands, options⟩ =>
    match kind with
    | .literal value =>
      if value.isFinite then return .literal value else throw (.notFinite value)
    | .database => do return .ofArgs .db (← exprs context scope operands)
    | .table => do return .ofArgs .table (qualify context (← exprs context scope operands))
    | .parameter => do
      let number ← resolveParameter scope id
      return .ofArgs .var [.literal (.ofNat number)]
    | .function =>
      if operands.isEmpty then throw .missingBody
      else do
        let inner ← openScope scope
        let numbers ← operands.dropLast.mapM fun parameter => bindParameter inner parameter.id
        let body ← lastExpr context inner operands
        return .ofArgs .func [.literal (.array (numbers.map .ofNat)), body]
    | .operator kind =>
      if kind.arity.accepts operands.length then do
        let args ← exprs context scope operands
        let options ← exprOptions context scope options
        finishOperator context kind operands ⟨kind, args, options, none⟩
      else throw (.wrongArity kind operands.length)

def exprs (context : CompileContext) (scope : Nat) : List Expr → Compile (List Term)
  | [] => return []
  | e :: rest => do
    let term ← expr context scope e
    let terms ← exprs context scope rest
    return term :: terms

def lastExpr (context : CompileContext) (scope : Nat) : List Expr → Compile Term
  | [] => throw .missingBody
  | [e] => expr context scope e
  | _ :: rest => lastExpr context scope rest

def exprOptions (context : CompileContext) (scope : Nat) :
    List (String × Expr) → Compile (List (String × Term))
  | [] => return []
  | (name, e) :: rest => do
    let term ← expr context scope e
    let terms ← exprOptions context scope rest
    return (name, term) :: terms

end

end Compile

/-- Compiles an expression, and lists the atomic writes to be refused met until the end
or until the failure. -/
def Expr.compileWithWarnings (context : CompileContext) (e : Expr) :
    Except BuildFault Term × List RefusedWrite :=
  let (result, state) := Compile.expr context Scopes.root e |>.run ⟨.start, []⟩
  (result, state.warnings)

def Expr.compile (context : CompileContext) (e : Expr) : Except BuildFault Term :=
  (e.compileWithWarnings context).1

/-- The expression as text for people, without a default database. -/
def Expr.display (e : Expr) : String :=
  match e.compile {} with
  | .ok term => term.display
  | .error cause => "<invalid expression: " ++ (Fault.build cause).message ++ ">"

end DocumentQuery
