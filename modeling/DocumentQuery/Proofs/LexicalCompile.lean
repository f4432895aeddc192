import DocumentQuery.Compile.Compiler
import DocumentQuery.Proofs.ExprShape
import Mathlib.Tactic

/-!
# Compiling with the enclosing functions at hand

A compilation keeps all scopes it ever opened and finds its way through them by
their places.  What a variable means depends on much less: on the functions
around it and on the numbers their parameters got.  Here an expression is
compiled with just these, innermost first, so that no scope has to be followed.
-/

open DocumentQuery.Expr

namespace DocumentQuery

/-- A function that is being compiled, with the first of the numbers of its
parameters. -/
structure Binder where
  function : Expr
  isFunction : function.kind = .function
  first : Nat

/-- The numbers of the parameters. -/
def Binder.numbers (binder : Binder) : List Nat :=
  List.range' binder.first binder.function.parameters.length

/-- The parameters of the function beside their numbers. -/
def Binder.bindings (binder : Binder) : List (NodeId × Nat) :=
  (binder.function.parameters.map Expr.id).zip binder.numbers

/-- The number of a parameter in the innermost binder that binds it. -/
def numberOf (binders : List Binder) (p : NodeId) : Option Nat :=
  binders.findSome? fun binder => binder.bindings.lookup p

theorem lookup_zip {ids : List NodeId} {p : NodeId} (numbers : List Nat)
    (hp : p ∈ ids) :
    (ids.zip numbers).lookup p = numbers[ids.idxOf p]? := by
  induction ids generalizing numbers with
  | nil => simp at hp
  | cons q rest ih =>
      cases numbers with
      | nil => rfl
      | cons number numbers =>
          rw [List.zip_cons_cons, List.lookup_cons, List.idxOf_cons]
          by_cases hq : q = p
          · subst hq
            simp
          · have hrest : p ∈ rest :=
              (List.mem_cons.1 hp).resolve_left (Ne.symm hq)
            rw [beq_false_of_ne (Ne.symm hq), beq_false_of_ne hq]
            simp only [cond_false, List.getElem?_cons_succ]
            exact ih numbers hrest

theorem lookup_zip_eq_none {ids : List NodeId} {p : NodeId} (numbers : List Nat)
    (hp : p ∉ ids) : (ids.zip numbers).lookup p = none := by
  rw [List.lookup_eq_none_iff]
  rintro ⟨q, number⟩ hq
  have hne : p ≠ q := by
    rintro rfl
    exact hp (List.of_mem_zip hq).1
  simpa using hne

theorem Binder.introduces_iff (binder : Binder) (p : NodeId) :
    binder.function.Introduces p ↔ p ∈ binder.function.parameters.map Expr.id :=
  and_iff_right binder.isFunction

theorem Binder.lookup_of_introduces {binder : Binder} {p : NodeId}
    (hp : binder.function.Introduces p) :
    ∃ number,
      binder.numbers[(binder.function.parameters.map Expr.id).idxOf p]? =
        some number ∧
      binder.bindings.lookup p = some number := by
  have hmem := (binder.introduces_iff p).1 hp
  have hlt :
      (binder.function.parameters.map Expr.id).idxOf p <
        binder.numbers.length := by
    have hidx := List.idxOf_lt_length_of_mem hmem
    rw [List.length_map] at hidx
    rwa [Binder.numbers, List.length_range']
  refine ⟨_, List.getElem?_eq_getElem hlt, ?_⟩
  rw [Binder.bindings, lookup_zip _ hmem]
  exact List.getElem?_eq_getElem hlt

theorem Binder.lookup_eq_none {binder : Binder} {p : NodeId}
    (hp : ¬ binder.function.Introduces p) : binder.bindings.lookup p = none :=
  lookup_zip_eq_none _ fun hmem => hp ((binder.introduces_iff p).2 hmem)

theorem numberOf_eq_none_iff {binders : List Binder} {p : NodeId} :
    numberOf binders p = none ↔
    ∀ binder ∈ binders, ¬ binder.function.Introduces p := by
  rw [numberOf, List.findSome?_eq_none_iff]
  refine forall₂_congr fun binder _ =>
    ⟨fun hnone hp => ?_, Binder.lookup_eq_none⟩
  obtain ⟨number, _, hlookup⟩ := Binder.lookup_of_introduces hp
  rw [hnone] at hlookup
  cases hlookup

/-- How far a compilation has come: the next number for a parameter, and the
warnings so far. -/
structure Progress where
  next : Nat
  warnings : List RefusedWrite

/-- A step of a compilation that opens no scopes. -/
abbrev Lexical (α : Type) := ExceptT BuildFault (StateM Progress) α

/-! ## The end of an operator -/

namespace Compile

/-- The term of an operator, which tells an update or replace whether it is
atomic. -/
def finished (context : CompileContext) (kind : TermKind) (t : Term) : Term :=
  if kind.isRowWrite then
    t.withOption "atomic" (.literal (.bool context.atomic))
  else t

/-- The warning about an operator, if there is one. -/
def refusals (context : CompileContext) (kind : TermKind)
    (operands : List Expr) :
    List RefusedWrite :=
  if kind.isRowWrite ∧ context.atomic then
    (operands[1]?.bind Expr.impurity?).toList.map (⟨kind, ·⟩)
  else []

theorem finishOperator_apply (context : CompileContext) (kind : TermKind)
    (operands : List Expr) (t : Term) (s : CompileState) :
    finishOperator context kind operands t s =
      (.ok (finished context kind t),
        { s with
          warnings := s.warnings ++ refusals context kind operands }) := by
  unfold finishOperator finished refusals
  by_cases hwrite : kind.isRowWrite
  · by_cases hatomic : context.atomic
    · simp only [hwrite, hatomic, and_self, if_true]
      cases operands[1]?.bind Expr.impurity? with
      | none =>
          rw [Option.toList_none, List.map_nil, List.append_nil]
          rfl
      | some reason => rfl
    · simp only [hwrite, hatomic, Bool.false_eq_true, and_false, if_true,
        if_false]
      rw [List.append_nil]
      rfl
  · simp only [hwrite, Bool.false_eq_true, false_and, if_false]
    rw [List.append_nil]
    rfl

end Compile

/-! ## The compiler -/

namespace Lexical

/-- Takes the next numbers, and gives the first of them. -/
def take (count : Nat) : Lexical Nat := do
  let progress ← getModify fun progress =>
    { progress with next := progress.next + count }
  return progress.next

/-- The number of a parameter. -/
def resolve (binders : List Binder) (p : NodeId) : Lexical Nat :=
  match numberOf binders p with
  | some number => return number
  | none => throw .escapedVariable

def warn (writes : List RefusedWrite) : Lexical Unit :=
  modify fun progress =>
    { progress with warnings := progress.warnings ++ writes }

mutual

/-- Compiles an expression inside some functions. -/
def expr (context : CompileContext) (binders : List Binder) :
    Expr → Lexical Term
  | ⟨i, kind, operands, options⟩ =>
    match kind with
    | .literal value =>
      if value.isFinite then return .literal value else throw (.notFinite value)
    | .database => do return .ofArgs .db (← exprs context binders operands)
    | .table => do
      return .ofArgs .table
        (Compile.qualify context (← exprs context binders operands))
    | .parameter => do
      let number ← resolve binders i
      return .ofArgs .var [.literal (.ofNat number)]
    | .function =>
      if operands.isEmpty then throw .missingBody
      else do
        let first ← take operands.dropLast.length
        let binder : Binder := ⟨⟨i, .function, operands, options⟩, rfl, first⟩
        let body ← lastExpr context (binder :: binders) operands
        return .ofArgs .func
          [.literal (.array (binder.numbers.map .ofNat)), body]
    | .operator kind =>
      if kind.arity.accepts operands.length then do
        let args ← exprs context binders operands
        let options ← exprOptions context binders options
        warn (Compile.refusals context kind operands)
        return Compile.finished context kind ⟨kind, args, options, none⟩
      else throw (.wrongArity kind operands.length)

/-- Compiles expressions inside some functions, one after the other. -/
def exprs (context : CompileContext) (binders : List Binder) :
    List Expr → Lexical (List Term)
  | [] => return []
  | e :: rest => do
    let term ← expr context binders e
    let terms ← exprs context binders rest
    return term :: terms

/-- Compiles the last of some expressions inside some functions. -/
def lastExpr (context : CompileContext) (binders : List Binder) :
    List Expr → Lexical Term
  | [] => throw .missingBody
  | [e] => expr context binders e
  | _ :: rest => lastExpr context binders rest

/-- Compiles named expressions inside some functions, one after the other. -/
def exprOptions (context : CompileContext) (binders : List Binder) :
    List (String × Expr) → Lexical (List (String × Term))
  | [] => return []
  | (name, e) :: rest => do
    let term ← expr context binders e
    let terms ← exprOptions context binders rest
    return (name, term) :: terms

end

end Lexical

end DocumentQuery
