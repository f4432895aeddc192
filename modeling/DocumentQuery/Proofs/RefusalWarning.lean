import DocumentQuery.Query
import DocumentQuery.Proofs.DefaultDatabase
import DocumentQuery.Proofs.NodePath

/-!
# Warnings and reports

The writes that the server will refuse are reported twice: by the query, which
walks over its expression from the top, and by the compiler, which warns of a
write once it has compiled what is below it.  Both name the same writes, each as
often as there are paths to it.  A compilation that fails has warned of some of
them.
-/

open DocumentQuery.Expr

namespace DocumentQuery

/-! ## Refused writes -/

namespace Expr

theorem refusedWrite?_operator (i : NodeId) (kind : TermKind)
    (operands : List Expr) (options : Fields Expr) :
    refusedWrite? ⟨i, .operator kind, operands, options⟩ =
      if kind.isRowWrite then
        (operands[1]?.bind impurity?).map (⟨kind, ·⟩)
      else none := by
  simp only [refusedWrite?, operator?]
  by_cases hwrite : kind.isRowWrite
  · cases operands[1]? with
    | none => simp [hwrite]
    | some body => cases hbody : body.impurity? <;> simp [hwrite, hbody]
  · simp [hwrite]

theorem refusedWrite?_eq_none {e : Expr} (h : e.operator? = none) :
    e.refusedWrite? = none := by
  rw [refusedWrite?, h]
  rfl

/-- The path leads to an update or replace with a body that is not deterministic. -/
def RefusedAt (e : Expr) (path : List Nat) (write : RefusedWrite) : Prop :=
  ∃ n body, e.at? path = some n ∧ n.kind = .operator write.kind ∧
    (write.kind = .update ∨ write.kind = .replace) ∧
    n.operands[1]? = some body ∧ body.impurity? = some write.reason

theorem refusedWrite?_eq_some_iff {n : Expr} {write : RefusedWrite} :
    n.refusedWrite? = some write ↔
      ∃ body, n.kind = .operator write.kind ∧
        (write.kind = .update ∨ write.kind = .replace) ∧
        n.operands[1]? = some body ∧ body.impurity? = some write.reason := by
  obtain ⟨i, kind, operands, options⟩ := n
  obtain ⟨writeKind, reason⟩ := write
  cases kind with
  | operator kind =>
      rw [refusedWrite?_operator, ← TermKind.isRowWrite_iff]
      by_cases hwrite : kind.isRowWrite
      · simp only [hwrite, if_true, Option.map_eq_some_iff, Option.bind_eq_some_iff,
          RefusedWrite.mk.injEq, NodeKind.operator.injEq]
        constructor
        · rintro ⟨_, ⟨body, hbody, hreason⟩, rfl, rfl⟩
          exact ⟨body, rfl, hwrite, hbody, hreason⟩
        · rintro ⟨body, rfl, -, hbody, hreason⟩
          exact ⟨reason, ⟨body, hbody, hreason⟩, rfl, rfl⟩
      · rw [if_neg hwrite]
        refine iff_of_false nofun ?_
        rintro ⟨body, ⟨⟩, hwrite', -⟩
        exact hwrite hwrite'
  | _ =>
      rw [refusedWrite?_eq_none rfl]
      refine iff_of_false nofun ?_
      rintro ⟨body, ⟨⟩, -⟩

theorem refusedAt_iff {e : Expr} {path : List Nat} {write : RefusedWrite} :
    e.RefusedAt path write ↔ (e.at? path).bind refusedWrite? = some write := by
  simp only [RefusedAt, Option.bind_eq_some_iff, refusedWrite?_eq_some_iff,
    exists_and_left]

/-- The refused write that a path leads to, if it leads to one, with the path. -/
def refusal? (e : Expr) (path : List Nat) : Option (List Nat × RefusedWrite) :=
  ((e.at? path).bind refusedWrite?).map (path, ·)

theorem refusal?_eq_some_iff {e : Expr} {path : List Nat}
    {refusal : List Nat × RefusedWrite} :
    e.refusal? path = some refusal ↔
      refusal.1 = path ∧ e.RefusedAt path refusal.2 := by
  rw [refusal?, refusedAt_iff]
  constructor
  · intro hrefusal
    obtain ⟨write, hwrite, rfl⟩ := Option.map_eq_some_iff.1 hrefusal
    exact ⟨rfl, hwrite⟩
  · rintro ⟨rfl, hwrite⟩
    rw [hwrite]
    rfl

theorem filterMap_refusal? (e : Expr) :
    (e.paths.filterMap e.refusal?).map Prod.snd = e.refusedWrites := by
  have hwrites : ∀ path, (e.refusal? path).map Prod.snd =
      ((·.bind refusedWrite?) ∘ e.at?) path := by
    intro path
    rw [refusal?, Option.map_map]
    exact Option.map_id'
  rw [List.map_filterMap, funext hwrites, ← List.filterMap_map, map_at?_paths,
    List.filterMap_map]
  rfl

/-- The report has one entry for each path that leads to a refused write. -/
theorem exists_refusals (e : Expr) :
    ∃ refusals : List (List Nat × RefusedWrite),
      (refusals.map Prod.fst).Nodup ∧
      (∀ path write, (path, write) ∈ refusals ↔ e.RefusedAt path write) ∧
      refusals.map Prod.snd = e.refusedWrites := by
  refine ⟨e.paths.filterMap e.refusal?, ?_, ?_, filterMap_refusal? e⟩
  · rw [List.map_filterMap]
    apply (nodup_paths e).filterMap
    intro path path' place hplace hplace'
    obtain ⟨refusal, hrefusal, rfl⟩ := Option.map_eq_some_iff.1 hplace
    obtain ⟨refusal', hrefusal', hsame⟩ := Option.map_eq_some_iff.1 hplace'
    have hpath : refusal.1 = path := (refusal?_eq_some_iff.1 hrefusal).1
    have hpath' : refusal'.1 = path' := (refusal?_eq_some_iff.1 hrefusal').1
    rw [← hpath, ← hpath', hsame]
  · intro path write
    simp only [List.mem_filterMap, refusal?_eq_some_iff]
    constructor
    · rintro ⟨_, _, rfl, hwrite⟩
      exact hwrite
    · intro hwrite
      have ⟨n, _, hn, _⟩ := hwrite
      exact ⟨path, mem_paths_iff.2 ⟨n, hn⟩, rfl, hwrite⟩

end Expr

/-- What is to be warned of among some nodes. -/
def warned (context : CompileContext) (ns : List Expr) : List RefusedWrite :=
  if context.atomic then ns.filterMap Expr.refusedWrite? else []

section

variable (context : CompileContext)

theorem warned_nil : warned context [] = [] := by
  unfold warned
  split <;> rfl

theorem warned_append (ns ns' : List Expr) :
    warned context (ns ++ ns') = warned context ns ++ warned context ns' := by
  unfold warned
  split
  · exact List.filterMap_append
  · rfl

theorem warned_cons_of_none {n : Expr} (hn : n.refusedWrite? = none)
    (ns : List Expr) : warned context (n :: ns) = warned context ns := by
  unfold warned
  rw [List.filterMap_cons_none hn]

theorem warned_operator (i : NodeId) (kind : TermKind) (operands : List Expr)
    (options : Fields Expr) :
    warned context [⟨i, .operator kind, operands, options⟩] =
      Compile.refusals context kind operands := by
  unfold warned Compile.refusals
  rw [List.filterMap_cons, refusedWrite?_operator]
  by_cases hatomic : context.atomic
  · by_cases hwrite : kind.isRowWrite
    · cases operands[1]?.bind impurity? <;> simp [hatomic, hwrite]
    · simp [hwrite]
  · simp [hatomic]

end

/-! ## What a step logs -/

/-- If the step succeeds, it logs the given writes in some order; if it fails, it
has logged some of them. -/
def Logs {α : Type} (c : Compile α) (writes : List RefusedWrite) : Prop :=
  ∀ s : CompileState, ∃ logged,
    (c s).2.warnings = s.warnings ++ logged ∧ logged.Subperm writes ∧
    ∀ a, (c s).1 = .ok a → logged.Perm writes

namespace Logs

variable {α β : Type} {writes writes' : List RefusedWrite}

theorem pure (a : α) : Logs (pure a) [] :=
  fun _ => ⟨[], (List.append_nil _).symm, List.nil_subperm, fun _ _ => .nil⟩

theorem throw (cause : BuildFault) : Logs (throw cause : Compile α) writes := by
  refine fun s => ⟨[], (List.append_nil _).symm, List.nil_subperm, ?_⟩
  rintro a ⟨⟩

theorem silent {c : Compile α} (h : ∀ s, (c s).2.warnings = s.warnings) :
    Logs c [] :=
  fun s => ⟨[], by rw [h, List.append_nil], List.nil_subperm, fun _ _ => .nil⟩

theorem perm {c : Compile α} (h : Logs c writes) (hperm : writes.Perm writes') :
    Logs c writes' := by
  intro s
  obtain ⟨logged, hwarnings, hsub, hok⟩ := h s
  exact ⟨logged, hwarnings, hsub.trans hperm.subperm,
    fun a ha => (hok a ha).trans hperm⟩

theorem bind {c : Compile α} {rest : α → Compile β} (h : Logs c writes)
    (hrest : ∀ a, Logs (rest a) writes') :
    Logs (c >>= rest) (writes ++ writes') := by
  intro s
  obtain ⟨logged, hwarnings, hsub, hok⟩ := h s
  rw [fallible_bind_apply]
  rcases hc : c s with ⟨cause | a, s₁⟩
  · rw [hc] at hwarnings
    refine ⟨logged, hwarnings, hsub.trans ?_, ?_⟩
    · exact (List.sublist_append_left _ _).subperm
    · rintro b ⟨⟩
  · rw [hc] at hwarnings hok
    obtain ⟨logged', hwarnings', hsub', hok'⟩ := hrest a s₁
    refine ⟨logged ++ logged', ?_, ?_, fun b hb => ?_⟩
    · rw [hwarnings', hwarnings, List.append_assoc]
    · exact hsub.append hsub'
    · exact (hok a rfl).append (hok' b hb)

theorem after {c : Compile α} {rest : α → Compile β} (h : Logs c [])
    (hrest : ∀ a, Logs (rest a) writes) : Logs (c >>= rest) writes :=
  h.bind hrest

theorem map {c : Compile α} {f : α → β} (h : Logs c writes) :
    Logs (c >>= fun a => Pure.pure (f a)) writes := by
  have hbind := h.bind fun a => Logs.pure (f a)
  rwa [List.append_nil] at hbind

theorem mapM {f : α → Compile β} {items : List α} (h : ∀ a, Logs (f a) []) :
    Logs (items.mapM f) [] := by
  induction items with
  | nil =>
      rw [List.mapM_nil]
      exact .pure _
  | cons a rest ih =>
      rw [List.mapM_cons]
      exact (h a).after fun _ => ih.map

theorem openScope (scope : Nat) : Logs (Compile.openScope scope) [] :=
  silent fun _ => rfl

theorem bindParameter (scope : Nat) (p : NodeId) :
    Logs (Compile.bindParameter scope p) [] := by
  apply silent
  intro s
  unfold Compile.bindParameter
  rw [fallible_bind_apply]
  change ((set { s with scopes := (s.scopes.bind scope p).2 } >>= fun _ =>
    liftM (s.scopes.bind scope p).1 : Compile Nat) s).2.warnings = _
  rcases s.scopes.bind scope p with ⟨_ | _, _⟩ <;> rfl

theorem resolveParameter (scope : Nat) (p : NodeId) :
    Logs (Compile.resolveParameter scope p) [] := by
  apply silent
  intro s
  unfold Compile.resolveParameter
  rw [fallible_bind_apply]
  change ((liftM (s.scopes.resolve scope p) >>= _ : Compile Nat) s).2.warnings = _
  rw [fallible_bind_apply]
  rcases s.scopes.resolve scope p with _ | _ | _ <;> rfl

theorem finishOperator (context : CompileContext) (kind : TermKind)
    (operands : List Expr) (t : Term) :
    Logs (Compile.finishOperator context kind operands t)
      (Compile.refusals context kind operands) := by
  intro s
  rw [Compile.finishOperator_apply]
  exact ⟨_, rfl, List.Subperm.refl _, fun _ _ => .refl _⟩

end Logs

/-! ## Compiling -/

/-- A node other than an operator is not a write, and has no options. -/
theorem warned_nodes_of_shaped (context : CompileContext) {e : Expr}
    (he : e.Shaped) (hkind : e.operator? = none) :
    warned context e.nodes = warned context (operandNodes e.operands) := by
  have hnone := refusedWrite?_eq_none hkind
  cases he with
  | operator => cases hkind
  | _ =>
      rw [nodes, optionNodes, List.append_nil, warned_cons_of_none context hnone]

theorem warned_parameter (context : CompileContext) {x : Expr} (hx : x.Shaped)
    (hkind : x.kind = .parameter) : warned context x.nodes = [] := by
  have hoperator : x.operator? = none := by rw [operator?, hkind]
  rw [warned_nodes_of_shaped context hx hoperator]
  cases hx with
  | parameter => exact warned_nil context
  | _ => cases hkind

/-- A write comes before what is below it where nodes are listed, and after it
where they are compiled. -/
theorem perm_warned_operator (context : CompileContext) (i : NodeId)
    (kind : TermKind) (operands : List Expr) (options : Fields Expr) :
    (warned context (operandNodes operands) ++
      (warned context (optionNodes options) ++
        Compile.refusals context kind operands)).Perm
      (warned context (nodes ⟨i, .operator kind, operands, options⟩)) := by
  rw [nodes, ← List.singleton_append, warned_append, warned_append,
    warned_operator, ← List.append_assoc]
  exact List.perm_append_comm

mutual

theorem logs_expr (context : CompileContext) :
    ∀ (e : Expr) (scope : Nat), (∀ n ∈ e.nodes, n.Shaped) →
      Logs (Compile.expr context scope e) (warned context e.nodes)
  | ⟨i, kind, operands, options⟩, scope, hshaped => by
    obtain ⟨hself, hoperands, hoptions⟩ := forall_nodes.1 hshaped
    have hargs := logs_exprs context operands scope hoperands
    cases kind with
    | literal value =>
        rw [Compile.expr, warned_nodes_of_shaped context hself rfl]
        cases hself
        rw [operandNodes, warned_nil]
        split
        · exact .pure _
        · exact .throw _
    | database =>
        rw [Compile.expr, warned_nodes_of_shaped context hself rfl]
        exact hargs.map
    | table =>
        rw [Compile.expr, warned_nodes_of_shaped context hself rfl]
        exact hargs.map
    | parameter =>
        rw [Compile.expr, warned_parameter context hself rfl]
        exact (Logs.resolveParameter scope i).map
    | function =>
        rw [Compile.expr, warned_nodes_of_shaped context hself rfl]
        split
        · exact .throw _
        · apply (Logs.openScope scope).after
          intro inner
          have hnumbers : Logs (operands.dropLast.mapM fun x =>
              Compile.bindParameter inner x.id) [] :=
            .mapM fun x => .bindParameter inner x.id
          apply hnumbers.after
          intro numbers
          exact (logs_lastExpr context operands inner hoperands
            (hself.kind_of_mem_parameters rfl)).map
    | operator kind =>
        rw [Compile.expr]
        split
        · refine Logs.perm ?_ (perm_warned_operator context i kind operands options)
          apply hargs.bind
          intro args
          apply (logs_exprOptions context options scope hoptions).bind
          intro named
          exact .finishOperator context kind operands _
        · exact .throw _

theorem logs_exprs (context : CompileContext) :
    ∀ (es : List Expr) (scope : Nat), (∀ n ∈ operandNodes es, n.Shaped) →
      Logs (Compile.exprs context scope es) (warned context (operandNodes es))
  | [], _, _ => by
    rw [operandNodes, warned_nil]
    exact .pure _
  | e :: rest, scope, hshaped => by
    rw [operandNodes, List.forall_mem_append] at hshaped
    rw [Compile.exprs, operandNodes, warned_append]
    apply (logs_expr context e scope hshaped.1).bind
    intro t
    exact (logs_exprs context rest scope hshaped.2).map

theorem logs_lastExpr (context : CompileContext) :
    ∀ (es : List Expr) (scope : Nat), (∀ n ∈ operandNodes es, n.Shaped) →
      (∀ x ∈ es.dropLast, x.kind = .parameter) →
      Logs (Compile.lastExpr context scope es)
        (warned context (operandNodes es))
  | [], _, _, _ => .throw _
  | [e], scope, hshaped, _ => by
    rw [operandNodes, List.forall_mem_append] at hshaped
    rw [operandNodes, operandNodes, List.append_nil]
    exact logs_expr context e scope hshaped.1
  | x :: e :: rest, scope, hshaped, hkinds => by
    rw [operandNodes, List.forall_mem_append] at hshaped
    rw [List.dropLast_cons_cons, List.forall_mem_cons] at hkinds
    have hx : x.Shaped := (forall_nodes.1 hshaped.1).1
    rw [operandNodes, warned_append, warned_parameter context hx hkinds.1,
      List.nil_append]
    exact logs_lastExpr context (e :: rest) scope hshaped.2 hkinds.2

theorem logs_exprOptions (context : CompileContext) :
    ∀ (es : List (String × Expr)) (scope : Nat),
      (∀ n ∈ optionNodes es, n.Shaped) →
      Logs (Compile.exprOptions context scope es)
        (warned context (optionNodes es))
  | [], _, _ => by
    rw [optionNodes, warned_nil]
    exact .pure _
  | (name, e) :: rest, scope, hshaped => by
    rw [optionNodes, List.forall_mem_append] at hshaped
    rw [Compile.exprOptions, optionNodes, warned_append]
    apply (logs_expr context e scope hshaped.1).bind
    intro t
    exact (logs_exprOptions context rest scope hshaped.2).map

end

theorem Expr.Obtainable.logged {e : Expr} (he : e.Obtainable)
    (context : CompileContext) :
    (e.compileWithWarnings context).2.Subperm (warned context e.nodes) ∧
      ∀ t, e.compile context = .ok t →
        (e.compileWithWarnings context).2.Perm (warned context e.nodes) := by
  obtain ⟨logged, hwarnings, hsub, hok⟩ :=
    logs_expr context e Scopes.root he.sound.shaped ⟨.start, []⟩
  have hlogged : (e.compileWithWarnings context).2 = logged := hwarnings
  rw [hlogged]
  exact ⟨hsub, hok⟩

/-- The warnings of an atomic compilation are the writes that the query reports,
in another order, with one for each path that leads to such a write.  If it
fails, it has warned of some of them.  Writes that are not atomic are neither
warned of nor reported. -/
theorem Expr.Obtainable.warnings_perm {e : Expr} (he : e.Obtainable)
    (defaultDatabase : Option String) :
    (∀ t warnings,
      (Query.mk e true).compileWithWarnings defaultDatabase = (.ok t, warnings) →
      warnings.Perm e.refusedWrites ∧
      ∃ refusals : List (List Nat × RefusedWrite),
        (refusals.map Prod.fst).Nodup ∧
        (∀ path write, (path, write) ∈ refusals ↔ e.RefusedAt path write) ∧
        (refusals.map Prod.snd).Perm warnings) ∧
    (∀ cause warnings,
      (Query.mk e true).compileWithWarnings defaultDatabase =
        (.error cause, warnings) →
      warnings.Subperm e.refusedWrites) ∧
    (Query.mk e true).refusedWrites = e.refusedWrites ∧
    ((Query.mk e false).compileWithWarnings defaultDatabase).2 = [] ∧
    (Query.mk e false).refusedWrites = [] := by
  obtain ⟨hsub, hperm⟩ := he.logged ⟨defaultDatabase, true⟩
  refine ⟨fun t warnings hrun => ?_, fun cause warnings hrun => ?_, rfl, ?_, rfl⟩
  · rw [Query.compileWithWarnings] at hrun
    have hwarnings : warnings.Perm e.refusedWrites := by
      have hok := hperm t (congrArg Prod.fst hrun)
      rw [hrun] at hok
      exact hok
    obtain ⟨refusals, hnodup, hpaths, hwrites⟩ := e.exists_refusals
    refine ⟨hwarnings, refusals, hnodup, hpaths, ?_⟩
    rw [hwrites]
    exact hwarnings.symm
  · rw [Query.compileWithWarnings] at hrun
    rw [hrun] at hsub
    exact hsub
  · have hnone := (he.logged ⟨defaultDatabase, false⟩).1
    exact List.subperm_nil.1 hnone

/-- A union of one refused update with itself. -/
def Expr.refusedTwice : Expr :=
  ⟨5, .operator .union, [selfReading, selfReading], []⟩

theorem Expr.refusedTwice_obtainable : refusedTwice.Obtainable := by
  refine ⟨Expr.table "t" >>= fun t => (Expr.update t fun _ => pure t) >>= fun u =>
    Expr.union u u, ?_, rfl⟩
  refine .bind .table fun t => .bind (.update ?_ fun _ => .give ?_) fun u =>
    .union ?_ ?_
  all_goals simp

/-- The shared update is warned of and reported twice. -/
theorem Expr.refusedTwice_warnings :
    refusedTwice.refusedWrites =
        [⟨.update, .readsTable "t"⟩, ⟨.update, .readsTable "t"⟩] ∧
      (refusedTwice.compileWithWarnings {}).2.Perm refusedTwice.refusedWrites := by
  obtain ⟨hok, _⟩ := refusedTwice_obtainable.warnings_perm none
  obtain ⟨t, hcompile⟩ : ∃ t, refusedTwice.compile {} = .ok t := ⟨_, rfl⟩
  exact ⟨rfl, (hok t _ (Prod.ext hcompile rfl)).1⟩

end DocumentQuery
