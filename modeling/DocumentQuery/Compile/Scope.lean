import DocumentQuery.Expr.Basic

/-!
# Scopes of variables

While an expression is compiled, every function opens a scope inside the one it
stands in, and each of its parameters gets a number that no other parameter of
the compilation has.  Scopes are never removed, so a scope is known by its
place among all of them.
-/

namespace DocumentQuery

/-- The parameters of one function and the scope the function stands in. -/
structure Scope where
  parent : Option Nat
  numbers : List (NodeId × Nat)
  deriving Repr

/-- All scopes of a compilation and the next number for a parameter. -/
structure Scopes where
  scopes : List Scope
  next : Nat
  deriving Repr

namespace Scopes

/-- The place of the outermost scope, which binds nothing. -/
def root : Nat := 0

/-- A compilation starts with the outermost scope alone. -/
def start : Scopes := ⟨[⟨none, []⟩], 1⟩

def child (s : Scopes) (parent : Nat) : Nat × Scopes :=
  (s.scopes.length, { s with scopes := s.scopes ++ [⟨some parent, []⟩] })

/-- Gives a parameter the next number in a scope.  A parameter that already had
one keeps the new number, and the number stays the next one. -/
def bind (s : Scopes) (scope : Nat) (parameter : NodeId) : Except BuildFault Nat × Scopes :=
  match s.scopes[scope]? with
  | none => (.error (.missingScope scope), s)
  | some found =>
    let bound := { found with
      numbers := (parameter, s.next) :: found.numbers.filter (·.1 ≠ parameter) }
    let scopes := s.scopes.set scope bound
    if (found.numbers.lookup parameter).isSome then
      (.error .boundTwice, { s with scopes := scopes })
    else (.ok s.next, ⟨scopes, s.next + 1⟩)

/-- The number of a parameter in the innermost of the scopes around `scope` that
binds it, or nothing at all if `fuel` scopes are not enough to tell. -/
def resolveWithin (s : Scopes) (parameter : NodeId) :
    (fuel : Nat) → (scope : Nat) → Option (Except BuildFault (Option Nat))
  | 0, _ => none
  | fuel + 1, scope =>
    match s.scopes[scope]? with
    | none => some (.error (.missingScope scope))
    | some found =>
      match found.numbers.lookup parameter with
      | some number => some (.ok (some number))
      | none =>
        match found.parent with
        | none => some (.ok none)
        | some parent => resolveWithin s parameter fuel parent

/-- The number of a parameter in the innermost scope that binds it, if any does.
A chain of scopes has no more links than there are scopes. -/
def resolve (s : Scopes) (scope : Nat) (parameter : NodeId) :
    Except BuildFault (Option Nat) :=
  (s.resolveWithin parameter (s.scopes.length + 1) scope).getD (.ok none)

end Scopes

end DocumentQuery
