import DocumentQuery.Fault

/-!
# Query expressions

An expression is a tree of nodes, and each node has an identity: the same node
may stand in several places of one expression, or of several.  Identity is
what ties an occurrence of a parameter to the function that introduced it.
Building a node draws a fresh identity from a counter, which goes on even when
a later step of the building fails.
-/

namespace DocumentQuery

/-- The identity of a node. -/
abbrev NodeId := Nat

/-- What a node stands for. -/
inductive NodeKind where
  | literal (value : Datum)
  /-- A database; its operand is its name. -/
  | database
  /-- A table; its operands are its database, if that is given, and its name. -/
  | table
  | operator (kind : TermKind)
  | parameter
  /-- A function; its operands are its parameters and, last, its body. -/
  | function
  deriving Repr, Inhabited

/-- An expression: its topmost node, with the expressions below it. -/
structure Expr where
  id : NodeId
  kind : NodeKind
  operands : List Expr
  options : List (String × Expr)
  deriving Repr, Inhabited

/-- A step of building expressions: it may fail, and it may draw identities.
The bodies of functions are made by the caller, whose own effects are those of
`m`. -/
abbrev BuildT (m : Type → Type) (α : Type) := ExceptT BuildFault (StateT NodeId m) α

/-- A step of building expressions without effects of the caller. -/
abbrev Build (α : Type) := BuildT Id α

variable {m : Type → Type} [Monad m]

namespace Build

def fail {α : Type} (cause : BuildFault) : BuildT m α := throw cause

def node (kind : NodeKind) (operands : List Expr) (options : Fields Expr) : BuildT m Expr := do
  let id ← getModify (· + 1)
  return ⟨id, kind, operands, options⟩

end Build

namespace Expr

open Build

def literal (value : Datum) : BuildT m Expr := node (.literal value) [] []

def text (value : String) : BuildT m Expr := literal (.string value)

def null : BuildT m Expr := literal .null

/-- An operator applied to operands, with options.  The builders assert that it takes
as many operands. -/
def operatorWith (kind : TermKind) (operands : List Expr) (options : Fields Expr) :
    BuildT m Expr :=
  if kind.arity.accepts operands.length then node (.operator kind) operands options
  else fail (.brokenArity kind operands.length)

def operator (kind : TermKind) (operands : List Expr) : BuildT m Expr :=
  operatorWith kind operands []

/-- Any operator that stands for itself on the wire, applied to as many operands
as it takes. -/
def tryOperator (kind : TermKind) (operands : List Expr) (options : Fields Expr) :
    BuildT m Expr :=
  match kind with
  | .datum | .var | .func => fail (.notAnOperator kind)
  | _ =>
    if kind.arity.accepts operands.length then node (.operator kind) operands options
    else fail (.wrongArity kind operands.length)

def parameter : BuildT m Expr := node .parameter [] []

def function (parameters : List Expr) (body : Expr) : BuildT m Expr :=
  node .function (parameters ++ [body]) []

/-- The function whose body `f` makes of one fresh parameter. -/
def lambda (f : Expr → BuildT m Expr) : BuildT m Expr := do
  let x ← parameter
  let body ← f x
  function [x] body

/-- The function whose body `f` makes of two fresh parameters. -/
def lambda₂ (f : Expr → Expr → BuildT m Expr) : BuildT m Expr := do
  let x ← parameter
  let y ← parameter
  let body ← f x y
  function [x, y] body

def literal? (e : Expr) : Option Datum :=
  match e.kind with
  | .literal value => some value
  | _ => none

def isLiteral (e : Expr) : Bool := e.literal?.isSome

def operator? (e : Expr) : Option TermKind :=
  match e.kind with
  | .operator kind => some kind
  | _ => none

/-- Whether the node itself reads stored data. -/
def isRelationSource (e : Expr) : Bool :=
  match e.kind with
  | .database | .table => true
  | .operator kind => kind.isRelationSource
  | _ => false

def option? (e : Expr) (name : String) : Option Expr := Fields.find? name e.options

/-- Two expressions that are the same node. -/
def isSame (a b : Expr) : Bool := a.id == b.id

mutual

/-- The nodes of an expression: the topmost one, then those of its operands and
of its options.  A node that stands in several places is listed for each. -/
def nodes : Expr → List Expr
  | ⟨id, kind, operands, options⟩ =>
    ⟨id, kind, operands, options⟩ :: (operandNodes operands ++ optionNodes options)

def operandNodes : List Expr → List Expr
  | [] => []
  | operand :: rest => nodes operand ++ operandNodes rest

def optionNodes : List (String × Expr) → List Expr
  | [] => []
  | (_, option) :: rest => nodes option ++ optionNodes rest

end

mutual

def size : Expr → Nat
  | ⟨_, _, operands, options⟩ => operandsSize operands + optionsSize options + 1

def operandsSize : List Expr → Nat
  | [] => 0
  | operand :: rest => size operand + operandsSize rest

def optionsSize : List (String × Expr) → Nat
  | [] => 0
  | (_, option) :: rest => size option + optionsSize rest

end

end Expr

end DocumentQuery
