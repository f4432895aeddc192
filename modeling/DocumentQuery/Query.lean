import DocumentQuery.Compile.Compiler
import DocumentQuery.Write.Outcome

/-!
# Queries

A query is an expression together with what holds for all of it: whether its
writes are atomic.  What its result looks like can be told from the topmost
node alone.
-/

namespace DocumentQuery

structure Query where
  expr : Expr
  atomic : Bool := true
  deriving Repr

/-- What the result of a query looks like. -/
inductive ResultShape where
  /-- The summary of a write; `point` if it writes one document, found by key. -/
  | write (kind : WriteKind) (point : Bool)
  | other
  deriving DecidableEq, Repr, Inhabited

namespace ResultShape

def isWrite : ResultShape → Bool
  | .write .. => true
  | .other => false

end ResultShape

namespace Query

/-- Whether the query acts on the document with a key. -/
def isPoint (q : Query) : Bool :=
  decide (q.expr.operands.head?.bind Expr.operator? = some .get)

def shape (q : Query) : ResultShape :=
  match q.expr.operator? with
  | some .insert => .write .insert false
  | some .update => .write .update q.isPoint
  | some .replace => .write .replace q.isPoint
  | some .delete => .write .delete q.isPoint
  | some .forEach => .write .mixed false
  | _ => .other

/-- The writes of the query that the server will not evaluate atomically. -/
def refusedWrites (q : Query) : List RefusedWrite :=
  if q.atomic then q.expr.refusedWrites else []

/-- The query compiled for a default database, with the warnings on the way. -/
def compileWithWarnings (q : Query) (defaultDatabase : Option String) :
    Except BuildFault Term × List RefusedWrite :=
  q.expr.compileWithWarnings ⟨defaultDatabase, q.atomic⟩

def compile (q : Query) (defaultDatabase : Option String) : Except BuildFault Term :=
  (q.compileWithWarnings defaultDatabase).1

end Query

end DocumentQuery
