import DocumentQuery.Expr.Relation
import Mathlib.Data.Set.Insert

/-!
# The shape of expressions

The type of expressions allows any operands under any kind of node, and one
parameter under several functions.  This module says what the nodes look like
that the builders make, and what holds among all nodes built so far: an
identity belongs to one node, and a parameter to one function.
-/

open DocumentQuery.Expr

namespace DocumentQuery

namespace Expr

/-- The parameters of a function. -/
def parameters (f : Expr) : List Expr := f.operands.dropLast

/-- The parameters of a function, by identity. -/
def Introduces (f : Expr) (p : NodeId) : Prop :=
  f.kind = .function ∧ p ∈ f.parameters.map Expr.id

instance (f : Expr) (p : NodeId) : Decidable (f.Introduces p) :=
  match f with
  | ⟨_, .function, operands, _⟩ =>
    decidable_of_iff (p ∈ operands.dropLast.map Expr.id)
      (and_iff_right rfl).symm
  | ⟨_, .literal _, _, _⟩ | ⟨_, .database, _, _⟩ | ⟨_, .table, _, _⟩
  | ⟨_, .operator _, _, _⟩
  | ⟨_, .parameter, _, _⟩ => isFalse fun h => nomatch h.1

/-! ## What holds of all nodes -/

theorem forall_nodes {P : Expr → Prop} {e : Expr} :
    (∀ n ∈ e.nodes, P n) ↔
      P e ∧ (∀ n ∈ operandNodes e.operands, P n) ∧
      ∀ n ∈ optionNodes e.options, P n := by
  obtain ⟨i, kind, operands, options⟩ := e
  rw [nodes, List.forall_mem_cons, List.forall_mem_append]

theorem mem_operandNodes {e n : Expr} {es : List Expr} (he : e ∈ es)
    (hn : n ∈ e.nodes) :
    n ∈ operandNodes es := by
  induction es with
  | nil => cases he
  | cons first rest ih =>
      rw [operandNodes, List.mem_append]
      rcases List.mem_cons.1 he with rfl | he
      · exact .inl hn
      · exact .inr (ih he)

/-! ## Shapes -/

/-- The operators that stand for themselves on the wire. -/
def IsPlain (kind : TermKind) : Prop :=
  kind ≠ .datum ∧ kind ≠ .var ∧ kind ≠ .func

/-- What the topmost node of an expression looks like. -/
inductive Shaped : Expr → Prop where
  | literal {id : NodeId} {value : Datum} :
      value.Ordered → Shaped ⟨id, .literal value, [], []⟩
  | database {id : NodeId} {name : Expr} {s : String} :
      name.kind = .literal (.string s) →
      Shaped ⟨id, .database, [name], []⟩
  | table {id : NodeId} {db : Option Expr} {name : Expr} {s : String} :
      (∀ e ∈ db, e.kind = .database) → name.kind = .literal (.string s) →
      IsPlainName s → Shaped ⟨id, .table, db.toList ++ [name], []⟩
  | parameter {id : NodeId} : Shaped ⟨id, .parameter, [], []⟩
  | function {id : NodeId} {parameters : List Expr} {body : Expr} :
      (∀ x ∈ parameters, x.kind = .parameter) → (parameters.map Expr.id).Nodup →
      Shaped ⟨id, .function, parameters ++ [body], []⟩
  | operator {id : NodeId} {kind : TermKind} {operands : List Expr}
      {options : Fields Expr} :
      IsPlain kind → kind.arity.accepts operands.length →
      Fields.Sorted options →
      Shaped ⟨id, .operator kind, operands, options⟩

theorem Shaped.nodup_parameters {f : Expr} (hf : f.Shaped)
    (hkind : f.kind = .function) :
    (f.parameters.map Expr.id).Nodup := by
  cases hf with
  | function _ hnodup => rwa [parameters, List.dropLast_concat]
  | _ => cases hkind

theorem Shaped.kind_of_mem_parameters {f : Expr} (hf : f.Shaped)
    (hkind : f.kind = .function) : ∀ x ∈ f.parameters, x.kind = .parameter := by
  cases hf with
  | function hkinds _ => rwa [parameters, List.dropLast_concat]
  | _ => cases hkind

/-- An expression all of whose nodes have their shape, in which an identity
belongs to one node and a parameter to one function. -/
structure Sound (e : Expr) : Prop where
  shaped : ∀ n ∈ e.nodes, n.Shaped
  same : ∀ a ∈ e.nodes, ∀ b ∈ e.nodes, a.id = b.id → a = b
  introducer : ∀ f ∈ e.nodes, ∀ g ∈ e.nodes, ∀ p, f.Introduces p →
    g.Introduces p → f = g

end Expr

/-! ## All nodes built so far -/

/-- What holds of all nodes built so far, `next` being the next identity. -/
structure Valid (next : NodeId) (built : Set Expr) : Prop where
  below : ∀ e ∈ built, e.id < next
  operands : ∀ e ∈ built, ∀ x ∈ e.operands, x ∈ built
  options : ∀ e ∈ built, ∀ x ∈ e.options, x.2 ∈ built
  shaped : ∀ e ∈ built, e.Shaped
  same : ∀ a ∈ built, ∀ b ∈ built, a.id = b.id → a = b
  introducer : ∀ f ∈ built, ∀ g ∈ built, ∀ p, f.Introduces p → g.Introduces p →
    f = g

theorem valid_empty : Valid 0 ∅ := by
  constructor <;> simp

/-- Every introduced parameter was built before its function. -/
theorem Valid.introduces_lt {next : NodeId} {built : Set Expr}
    (hvalid : Valid next built)
    {f : Expr} (hf : f ∈ built) {p : NodeId} (hp : f.Introduces p) :
    p < next := by
  obtain ⟨x, hx, rfl⟩ := List.mem_map.1 hp.2
  exact hvalid.below x (hvalid.operands f hf x (List.dropLast_subset _ hx))

/-- A new node may be any well-shaped one over nodes that are there already.  If
it is a function, no function that is there already has one of its
parameters. -/
theorem Valid.insert {next : NodeId} {built : Set Expr}
    (hvalid : Valid next built)
    {e : Expr} (hid : e.id = next) (hshaped : e.Shaped)
    (hoperands : ∀ x ∈ e.operands, x ∈ built)
    (hoptions : ∀ x ∈ e.options, x.2 ∈ built)
    (hfresh : ∀ f ∈ built, ∀ p, e.Introduces p → ¬ f.Introduces p) :
    Valid (next + 1) (insert e built) := by
  constructor
  · rintro a (rfl | ha)
    · rw [hid]
      exact Nat.lt_succ_self _
    · exact (hvalid.below a ha).trans (Nat.lt_succ_self _)
  · rintro a (rfl | ha) x hx
    · exact .inr (hoperands x hx)
    · exact .inr (hvalid.operands a ha x hx)
  · rintro a (rfl | ha) x hx
    · exact .inr (hoptions x hx)
    · exact .inr (hvalid.options a ha x hx)
  · rintro a (rfl | ha)
    · exact hshaped
    · exact hvalid.shaped a ha
  · rintro a (rfl | ha) b (rfl | hb) hab
    · rfl
    · exact absurd (hab.symm.trans hid) (hvalid.below b hb).ne
    · exact absurd (hab.trans hid) (hvalid.below a ha).ne
    · exact hvalid.same a ha b hb hab
  · rintro f (rfl | hf) g (rfl | hg) p hfp hgp
    · rfl
    · exact (hfresh g hg p hfp hgp).elim
    · exact (hfresh f hf p hgp hfp).elim
    · exact hvalid.introducer f hf g hg p hfp hgp

mutual

theorem Valid.nodes_subset {next : NodeId} {built : Set Expr}
    (hvalid : Valid next built) :
    ∀ e ∈ built, ∀ n ∈ e.nodes, n ∈ built
  | ⟨i, kind, operands, options⟩, he, n, hn => by
    rw [nodes, List.mem_cons, List.mem_append] at hn
    rcases hn with rfl | hn | hn
    · exact he
    · exact hvalid.operandNodes_subset operands (hvalid.operands _ he) n hn
    · exact hvalid.optionNodes_subset options (hvalid.options _ he) n hn

theorem Valid.operandNodes_subset {next : NodeId} {built : Set Expr}
    (hvalid : Valid next built) :
    ∀ es : List Expr, (∀ e ∈ es, e ∈ built) → ∀ n ∈ operandNodes es, n ∈ built
  | [], _, n, hn => by simp [operandNodes] at hn
  | e :: rest, hes, n, hn => by
    rw [operandNodes, List.mem_append] at hn
    rcases hn with hn | hn
    · exact hvalid.nodes_subset e (hes e List.mem_cons_self) n hn
    · exact hvalid.operandNodes_subset rest
        (fun x hx => hes x (List.mem_cons_of_mem _ hx)) n hn

theorem Valid.optionNodes_subset {next : NodeId} {built : Set Expr}
    (hvalid : Valid next built) :
    ∀ es : List (String × Expr), (∀ e ∈ es, e.2 ∈ built) →
      ∀ n ∈ optionNodes es, n ∈ built
  | [], _, n, hn => by simp [optionNodes] at hn
  | (name, e) :: rest, hes, n, hn => by
    rw [optionNodes, List.mem_append] at hn
    rcases hn with hn | hn
    · exact hvalid.nodes_subset e (hes (name, e) List.mem_cons_self) n hn
    · exact hvalid.optionNodes_subset rest
        (fun x hx => hes x (List.mem_cons_of_mem _ hx)) n hn

end

/-- What holds of all nodes built so far holds of those of one expression. -/
theorem Valid.sound {next : NodeId} {built : Set Expr}
    (hvalid : Valid next built) {e : Expr} (he : e ∈ built) : e.Sound := by
  have hnodes := hvalid.nodes_subset e he
  constructor
  · intro n hn
    exact hvalid.shaped n (hnodes n hn)
  · intro a ha b hb
    exact hvalid.same a (hnodes a ha) b (hnodes b hb)
  · intro f hf g hg
    exact hvalid.introducer f (hnodes f hf) g (hnodes g hg)

end DocumentQuery
