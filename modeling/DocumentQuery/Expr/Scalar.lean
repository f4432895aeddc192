import DocumentQuery.Expr.Basic

/-!
# Scalar operators, choices and local bindings

Comparison, logic and arithmetic apply an operator to two operands.  A local
binding is a call of a function: the bound values are its arguments and the
names stand for its parameters.
-/

namespace DocumentQuery.Expr

open Build

variable {m : Type → Type} [Monad m]

def binary (kind : TermKind) (a b : Expr) : BuildT m Expr := operator kind [a, b]

def eq : Expr → Expr → BuildT m Expr := binary .eq
def ne : Expr → Expr → BuildT m Expr := binary .ne
def lt : Expr → Expr → BuildT m Expr := binary .lt
def le : Expr → Expr → BuildT m Expr := binary .le
def gt : Expr → Expr → BuildT m Expr := binary .gt
def ge : Expr → Expr → BuildT m Expr := binary .ge
def and : Expr → Expr → BuildT m Expr := binary .and
def or : Expr → Expr → BuildT m Expr := binary .or
def add : Expr → Expr → BuildT m Expr := binary .add
def sub : Expr → Expr → BuildT m Expr := binary .sub
def mul : Expr → Expr → BuildT m Expr := binary .mul
def div : Expr → Expr → BuildT m Expr := binary .div
def mod : Expr → Expr → BuildT m Expr := binary .mod

def not (a : Expr) : BuildT m Expr := operator .not [a]

/-- One of two values, as the condition says. -/
def branch (condition then_ otherwise : Expr) : BuildT m Expr :=
  operator .branch [condition, then_, otherwise]

/-- A script the server runs. -/
def javascript (source : String) : BuildT m Expr := do
  operator .javascript [← text source]

/-- The names a local binding introduces, with the parameters they stand for. -/
structure LetScope where
  bindings : List (String × Expr)

/-- What a bound name stands for. -/
def LetScope.variable (scope : LetScope) (name : String) : BuildT m Expr :=
  match scope.bindings.find? fun binding => binding.1 == name with
  | some binding => return binding.2
  | none => fail (.unknownBinding name)

/-- The first name that repeats one of `seen` or one before it. -/
def duplicate? (seen : List String) : List String → Option String
  | [] => none
  | name :: rest => if seen.contains name then some name else duplicate? (name :: seen) rest

/-- Binds values to names in the body that `body` makes. -/
def letIn (bindings : List (String × Expr)) (body : LetScope → BuildT m Expr) : BuildT m Expr :=
  let names := bindings.map Prod.fst
  match duplicate? [] names with
  | some name => fail (.duplicateBinding name)
  | none => do
    let parameters ← names.mapM fun _ => parameter
    let body ← body ⟨names.zip parameters⟩
    let callee ← function parameters body
    operator .funcall (callee :: bindings.map Prod.snd)

end DocumentQuery.Expr
