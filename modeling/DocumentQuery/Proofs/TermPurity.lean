import DocumentQuery.Proofs.NamelessForm

/-!
# Determinism of what is sent

Whether a body is deterministic is decided on its expression, but the server
evaluates the term.  Compiling drops the parameters of functions, puts databases
before tables and replaces options, and still the two agree: the analysis finds
a reason exactly if some term, at any depth, reads stored data, runs a script or
writes.
-/

open DocumentQuery.Expr

namespace DocumentQuery

/-! ## Pure terms -/

/-- The kinds of terms that depend on more than the row they are evaluated for. -/
def TermKind.impure : List TermKind :=
  [.javascript, .db, .table, .get, .between, .insert, .update, .replace, .delete,
    .forEach, .dbCreate, .dbDrop, .tableCreate, .tableDrop]

/-- No kind among them makes a term depend on more than the row. -/
def PureKinds (kinds : List TermKind) : Prop :=
  ∀ kind ∈ kinds, kind ∉ TermKind.impure

/-- No term at any depth is of one of these kinds. -/
def Term.IsPure (t : Term) : Prop := PureKinds t.kinds

theorem pureKinds_cons {kind : TermKind} {kinds : List TermKind} :
    PureKinds (kind :: kinds) ↔ kind ∉ TermKind.impure ∧ PureKinds kinds :=
  List.forall_mem_cons

theorem pureKinds_append {kinds kinds' : List TermKind} :
    PureKinds (kinds ++ kinds') ↔ PureKinds kinds ∧ PureKinds kinds' :=
  List.forall_mem_append

theorem pureKinds_nil : PureKinds [] := fun _ hkind => absurd hkind List.not_mem_nil

namespace Term

theorem isPure_mk {kind : TermKind} {args : List Term} {options : Fields Term}
    {value : Option Datum} :
    IsPure ⟨kind, args, options, value⟩ ↔
      kind ∉ TermKind.impure ∧ PureKinds (argKinds args) ∧
        PureKinds (optionKinds options) := by
  rw [IsPure, kinds, pureKinds_cons, pureKinds_append]

theorem isPure_ofArgs {kind : TermKind} {args : List Term} :
    (ofArgs kind args).IsPure ↔ kind ∉ TermKind.impure ∧ PureKinds (argKinds args) := by
  rw [ofArgs, isPure_mk, optionKinds, and_iff_left pureKinds_nil]

theorem isPure_literal (d : Datum) : (literal d).IsPure := by
  rw [literal, isPure_mk]
  exact ⟨by decide, pureKinds_nil, pureKinds_nil⟩

theorem pureKinds_argKinds_cons {arg : Term} {rest : List Term} :
    PureKinds (argKinds (arg :: rest)) ↔
      arg.IsPure ∧ PureKinds (argKinds rest) := by
  rw [argKinds, pureKinds_append, IsPure]

theorem isPure_variable (d : Datum) : (ofArgs .var [.literal d]).IsPure := by
  rw [isPure_ofArgs, pureKinds_argKinds_cons]
  exact ⟨by decide, isPure_literal d, pureKinds_nil⟩

theorem isPure_function {ids : Datum} {body : Term} :
    (ofArgs .func [.literal ids, body]).IsPure ↔ body.IsPure := by
  have hkind : TermKind.func ∉ TermKind.impure := by decide
  rw [isPure_ofArgs, pureKinds_argKinds_cons, pureKinds_argKinds_cons, argKinds,
    and_iff_left pureKinds_nil, and_iff_right (isPure_literal ids),
    and_iff_right hkind]

end Term

theorem TermKind.mem_impure_of_isRowWrite {kind : TermKind}
    (hwrite : kind.isRowWrite) : kind ∈ impure := by
  rcases isRowWrite_iff.1 hwrite with rfl | rfl <;> simp [impure]

/-- The flag of an update or replace makes no difference: the write is impure
itself. -/
theorem Compile.isPure_finished (context : CompileContext) {kind : TermKind}
    {args : List Term} {options : Fields Term} :
    (finished context kind ⟨kind, args, options, none⟩).IsPure ↔
      kind ∉ TermKind.impure ∧ PureKinds (Term.argKinds args) ∧
        PureKinds (Term.optionKinds options) := by
  unfold finished
  split
  · next hwrite =>
      have himpure := TermKind.mem_impure_of_isRowWrite hwrite
      rw [Term.withOption, Term.isPure_mk]
      exact iff_of_false (fun h => h.1 himpure) fun h => h.1 himpure
  · exact Term.isPure_mk

/-! ## Deterministic expressions -/

theorem NodeKind.impurity?_operator {kind : TermKind} {operands : List Expr} :
    (NodeKind.operator kind).impurity? operands = none ↔ kind ∉ TermKind.impure := by
  cases kind <;> simp [impurity?, TermKind.impure, TermKind.isRelationSource,
    TermKind.isWrite, TermKind.isAdmin]

namespace Expr

theorem orElse_eq_none {α : Type} {a b : Option α} :
    (a <|> b) = none ↔ a = none ∧ b = none := by
  cases a <;> simp

theorem impurity?_mk {i : NodeId} {kind : NodeKind} {operands : List Expr}
    {options : Fields Expr} :
    impurity? ⟨i, kind, operands, options⟩ = none ↔
      kind.impurity? operands = none ∧ operandsImpurity? operands = none ∧
        optionsImpurity? options = none := by
  rw [impurity?, orElse_eq_none, orElse_eq_none]

theorem operandsImpurity?_cons {e : Expr} {rest : List Expr} :
    operandsImpurity? (e :: rest) = none ↔
      e.impurity? = none ∧ operandsImpurity? rest = none := by
  rw [operandsImpurity?, orElse_eq_none]

theorem optionsImpurity?_cons {name : String} {e : Expr}
    {rest : Fields Expr} :
    optionsImpurity? ((name, e) :: rest) = none ↔
      e.impurity? = none ∧ optionsImpurity? rest = none := by
  rw [optionsImpurity?, orElse_eq_none]

/-- A parameter has nothing below it that could be a reason. -/
theorem Shaped.impurity?_parameter {x : Expr} (hx : x.Shaped)
    (hkind : x.kind = .parameter) : x.impurity? = none := by
  cases hx with
  | parameter => rfl
  | _ => cases hkind

end Expr

/-! ## Compiling -/

/-- Wherever the step starts, what it gives has the property. -/
def Yields {α : Type} (c : Compile α) (P : α → Prop) : Prop :=
  ∀ (s s' : CompileState) (a : α), c s = (.ok a, s') → P a

namespace Yields

variable {α β : Type} {P : α → Prop} {Q : β → Prop}

theorem pure {a : α} (h : P a) : Yields (pure a) P := by
  rintro s s' _ ⟨⟩
  exact h

theorem throw (cause : BuildFault) : Yields (throw cause) P := by
  rintro s s' a ⟨⟩

theorem bind {c : Compile α} {rest : α → Compile β} (h : Yields c P)
    (hrest : ∀ a, P a → Yields (rest a) Q) : Yields (c >>= rest) Q := by
  intro s s' b hrun
  obtain ⟨a, s₁, hfirst, hlater⟩ := fallible_bind_ok hrun
  exact hrest a (h s s₁ a hfirst) s₁ s' b hlater

theorem after {c : Compile α} {rest : α → Compile β}
    (hrest : ∀ a, Yields (rest a) Q) : Yields (c >>= rest) Q :=
  bind (P := fun _ => True) (fun _ _ _ _ => trivial) fun a _ => hrest a

theorem finishOperator {context : CompileContext} {kind : TermKind}
    {operands : List Expr} {t : Term} {P : Term → Prop}
    (h : P (Compile.finished context kind t)) :
    Yields (Compile.finishOperator context kind operands t) P := by
  intro s s' a hrun
  rw [Compile.finishOperator_apply] at hrun
  cases hrun
  exact h

end Yields

mutual

theorem yields_expr (context : CompileContext) :
    ∀ (e : Expr) (scope : Nat), (∀ n ∈ e.nodes, n.Shaped) →
      Yields (Compile.expr context scope e)
        fun t => e.impurity? = none ↔ t.IsPure
  | ⟨i, kind, operands, options⟩, scope, hshaped => by
    obtain ⟨hself, hoperands, hoptions⟩ := forall_nodes.1 hshaped
    have hargs := yields_exprs context operands scope hoperands
    cases kind with
    | literal value =>
        cases hself
        rw [Compile.expr]
        split
        · exact .pure (iff_of_true rfl (Term.isPure_literal value))
        · exact .throw _
    | database =>
        rw [Compile.expr]
        refine .after fun args => .pure ?_
        rw [impurity?_mk, Term.isPure_ofArgs]
        exact iff_of_false (fun h => nomatch h.1) fun h => h.1 (by simp [TermKind.impure])
    | table =>
        rw [Compile.expr]
        refine .after fun args => .pure ?_
        rw [impurity?_mk, Term.isPure_ofArgs]
        exact iff_of_false (fun h => nomatch h.1) fun h => h.1 (by simp [TermKind.impure])
    | parameter =>
        have hnone := hself.impurity?_parameter rfl
        rw [Compile.expr]
        exact .after fun number =>
          .pure (iff_of_true hnone (Term.isPure_variable _))
    | function =>
        have hkinds := hself.kind_of_mem_parameters rfl
        have hnone : impurity? ⟨i, .function, operands, options⟩ = none ↔
            operandsImpurity? operands = none := by
          cases hself
          rw [impurity?_mk]
          simp [NodeKind.impurity?, optionsImpurity?]
        rw [Compile.expr]
        split
        · exact .throw _
        · refine .after fun inner => .after fun numbers => ?_
          have hbody := yields_lastExpr context operands inner hoperands hkinds
          refine hbody.bind fun body hsame => .pure ?_
          rw [hnone, hsame, Term.isPure_function]
    | operator kind =>
        rw [Compile.expr]
        split
        · refine hargs.bind fun args hsame => ?_
          have hnamed := yields_exprOptions context options scope hoptions
          refine hnamed.bind fun named hsame' => .finishOperator ?_
          rw [impurity?_mk, NodeKind.impurity?_operator, hsame, hsame',
            Compile.isPure_finished]
        · exact .throw _

theorem yields_exprs (context : CompileContext) :
    ∀ (es : List Expr) (scope : Nat), (∀ n ∈ operandNodes es, n.Shaped) →
      Yields (Compile.exprs context scope es)
        fun ts => operandsImpurity? es = none ↔ PureKinds (Term.argKinds ts)
  | [], _, _ => .pure (iff_of_true rfl pureKinds_nil)
  | e :: rest, scope, hshaped => by
    rw [operandNodes, List.forall_mem_append] at hshaped
    rw [Compile.exprs]
    refine (yields_expr context e scope hshaped.1).bind fun t hsame => ?_
    refine (yields_exprs context rest scope hshaped.2).bind fun ts hsame' => ?_
    refine .pure ?_
    rw [operandsImpurity?_cons, Term.pureKinds_argKinds_cons, hsame, hsame']

theorem yields_lastExpr (context : CompileContext) :
    ∀ (es : List Expr) (scope : Nat), (∀ n ∈ operandNodes es, n.Shaped) →
      (∀ x ∈ es.dropLast, x.kind = .parameter) →
      Yields (Compile.lastExpr context scope es)
        fun t => operandsImpurity? es = none ↔ t.IsPure
  | [], _, _, _ => .throw _
  | [e], scope, hshaped, _ => by
    rw [operandNodes, List.forall_mem_append] at hshaped
    intro s s' t hrun
    have hrest : operandsImpurity? [] = none := rfl
    rw [operandsImpurity?_cons, and_iff_left hrest]
    exact yields_expr context e scope hshaped.1 s s' t hrun
  | x :: e :: rest, scope, hshaped, hkinds => by
    rw [operandNodes, List.forall_mem_append] at hshaped
    rw [List.dropLast_cons_cons, List.forall_mem_cons] at hkinds
    have hx : x.Shaped := (forall_nodes.1 hshaped.1).1
    have hlast := yields_lastExpr context (e :: rest) scope hshaped.2 hkinds.2
    intro s s' t hrun
    rw [operandsImpurity?_cons, and_iff_right (hx.impurity?_parameter hkinds.1)]
    exact hlast s s' t hrun

theorem yields_exprOptions (context : CompileContext) :
    ∀ (es : List (String × Expr)) (scope : Nat),
      (∀ n ∈ optionNodes es, n.Shaped) →
      Yields (Compile.exprOptions context scope es)
        fun ts => optionsImpurity? es = none ↔ PureKinds (Term.optionKinds ts)
  | [], _, _ => .pure (iff_of_true rfl pureKinds_nil)
  | (name, e) :: rest, scope, hshaped => by
    rw [optionNodes, List.forall_mem_append] at hshaped
    rw [Compile.exprOptions]
    refine (yields_expr context e scope hshaped.1).bind fun t hsame => ?_
    refine (yields_exprOptions context rest scope hshaped.2).bind ?_
    intro ts hsame'
    refine .pure ?_
    rw [optionsImpurity?_cons, Term.optionKinds, pureKinds_append, hsame, hsame',
      Term.IsPure]

end

/-- In whatever scopes and under whatever context an expression is compiled, the
analysis calls it deterministic exactly if its term is pure.  The verdict is the
same for every expression with the same tree, and so is that on their terms,
whatever the default database and the atomic flag were. -/
theorem Expr.Obtainable.impurity?_eq_none_iff {e : Expr} (he : e.Obtainable) :
    (∀ (context : CompileContext) (scope : Nat) (s s' : CompileState) (t : Term),
      Compile.expr context scope e s = (.ok t, s') →
      (e.impurity? = none ↔ t.IsPure)) ∧
    ∀ e' : Expr, e'.Obtainable → ∀ enclosing enclosing' : List Expr,
      e'.nameless enclosing' = e.nameless enclosing →
      e'.impurity? = e.impurity? ∧
      ∀ (context context' : CompileContext) (scope scope' : Nat)
        (s s₁ s' s₁' : CompileState) (t t' : Term),
        Compile.expr context scope e s = (.ok t, s₁) →
        Compile.expr context' scope' e' s' = (.ok t', s₁') →
        (t'.IsPure ↔ t.IsPure) := by
  have hverdict : ∀ {e : Expr}, e.Obtainable → ∀ (context : CompileContext)
      (scope : Nat) (s s' : CompileState) (t : Term),
      Compile.expr context scope e s = (.ok t, s') →
      (e.impurity? = none ↔ t.IsPure) := by
    intro e he context scope
    exact yields_expr context e scope he.sound.shaped
  refine ⟨hverdict he, fun e' he' enclosing enclosing' hsame => ?_⟩
  have heq : e'.impurity? = e.impurity? :=
    impurity?_of_nameless e' e enclosing' enclosing hsame
  refine ⟨heq, fun context context' scope scope' s s₁ s' s₁' t t' hrun hrun' => ?_⟩
  rw [← hverdict he' context' scope' s' s₁' t' hrun',
    ← hverdict he context scope s s₁ t hrun, heq]

/-- A map with a function that runs a script. -/
def Expr.mapScript : Expr :=
  let row : Expr := ⟨1, .parameter, [], []⟩
  let script : Expr :=
    ⟨3, .operator .javascript, [⟨2, .literal (.string "random()"), [], []⟩], []⟩
  ⟨5, .operator .map,
    [⟨0, .literal .null, [], []⟩, ⟨4, .function, [row, script], []⟩], []⟩

theorem Expr.mapScript_obtainable : mapScript.Obtainable := by
  refine ⟨Expr.null >>= fun e => Expr.map e fun _ => Expr.javascript "random()", ?_, rfl⟩
  apply Program.bind .null
  intro e
  apply Program.map
  · exact Set.mem_insert _ _
  · intro row
    exact .javascript

/-- The shared map and its copy are deterministic, and so is the term; the map
with the script is not, and its term is impure. -/
theorem Expr.mapTwice_isPure_mapScript_not :
    mapTwice.impurity? = none ∧ mapCopied.impurity? = none ∧
      (∃ t, mapTwice.compile {} = .ok t ∧ t.IsPure) ∧
      mapScript.impurity? = some .runsScript ∧
      ∃ t, mapScript.compile {} = .ok t ∧ ¬ t.IsPure := by
  obtain ⟨hterm, hcopied⟩ := mapTwice_obtainable.impurity?_eq_none_iff
  have hnone : mapTwice.impurity? = none := rfl
  obtain ⟨t, hcompile⟩ : ∃ t, mapTwice.compile {} = .ok t := ⟨_, rfl⟩
  have hpure : t.IsPure :=
    (hterm {} Scopes.root ⟨.start, []⟩ _ t (Prod.ext hcompile rfl)).1 hnone
  have hcopy : mapCopied.impurity? = none :=
    (hcopied mapCopied mapCopied_obtainable [] [] rfl).1.trans hnone
  have hscript := mapScript_obtainable.impurity?_eq_none_iff.1
  obtain ⟨t', hcompile'⟩ : ∃ t, mapScript.compile {} = .ok t := ⟨_, rfl⟩
  have himpure : ¬ t'.IsPure := by
    rw [← hscript {} Scopes.root ⟨.start, []⟩ _ t' (Prod.ext hcompile' rfl)]
    exact nofun
  exact ⟨hnone, hcopy, ⟨t, hcompile, hpure⟩, rfl, t', hcompile', himpure⟩

end DocumentQuery
