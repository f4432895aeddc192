import DocumentQuery.Proofs.AtomicFlag
import DocumentQuery.Proofs.DefaultDatabase
import DocumentQuery.Proofs.NodePath

/-!
# Well-formed terms

Every term that compiling makes takes as many arguments as its kind allows, and has a
value exactly as literals have them.  This follows from what the builders keep of each
node and from where each term comes from: the compiler adds a database before the
name of a table, a flag to a write and the numbers of parameters, and no argument
besides.  Databases and tables that were made as such have literal names.
-/

open DocumentQuery.Expr

namespace DocumentQuery

/-- As many arguments as the kind allows; a literal has nothing but its value, which is
not null, and everything else has no value. -/
structure Term.WellFormed (t : Term) : Prop where
  arity : t.kind.arity.accepts t.args.length = true
  literal : t.kind = .datum → t.args = [] ∧ t.options = [] ∧ t.value ≠ some .null
  other : t.kind ≠ .datum → t.value = none

/-- A database by a literal name. -/
def Term.IsDatabase (t : Term) : Prop :=
  ∃ name, t = .ofArgs .db [.literal (.string name)]

/-- A table by a plain literal name, which a database may stand before. -/
def Term.IsTable (t : Term) : Prop :=
  ∃ name, IsPlainName name ∧
    (t = .ofArgs .table [.literal (.string name)] ∨
      ∃ db : Term, db.IsDatabase ∧ t = .ofArgs .table [db, .literal (.string name)])

theorem Term.wellFormed_literal (d : Datum) : (Term.literal d).WellFormed := by
  refine ⟨rfl, fun _ => ⟨rfl, rfl, ?_⟩, fun h => absurd rfl h⟩
  unfold literal
  cases d <;> simp [Datum.isNull]

theorem Term.wellFormed_ofArgs {kind : TermKind} {args : List Term}
    (hkind : kind ≠ .datum) (harity : kind.arity.accepts args.length = true) :
    (Term.ofArgs kind args).WellFormed :=
  ⟨harity, fun h => absurd h hkind, fun _ => rfl⟩

theorem TracesAll.length_eq {context : CompileContext} {binders : List Binder}
    {es : List Expr} {ts : List Term} (h : TracesAll context binders es ts) :
    ts.length = es.length := by
  induction es generalizing ts with
  | nil => cases h; rfl
  | cons e es ih =>
      cases h with
      | cons _ hrest => exact congrArg (· + 1) (ih hrest)

theorem Compile.wellFormed_finished (context : CompileContext) {kind : TermKind}
    {args : List Term} {named : Fields Term} (hkind : kind ≠ .datum)
    (harity : kind.arity.accepts args.length = true) :
    (finished context kind ⟨kind, args, named, none⟩).WellFormed := by
  unfold finished
  split <;> exact ⟨harity, fun h => absurd h hkind, fun _ => rfl⟩

/-- A name stays the last argument of a table, and at most a database comes before. -/
theorem Compile.accepts_qualify (context : CompileContext) {args : List Term}
    (h : TermKind.table.arity.accepts args.length = true) :
    TermKind.table.arity.accepts (qualify context args).length = true := by
  unfold qualify
  split
  · rfl
  · exact h

theorem Traces.wellFormed {context : CompileContext} {binders : List Binder} {n : Expr}
    {t : Term} (hshaped : n.Shaped) (h : Traces context binders n t) : t.WellFormed := by
  cases h with
  | literal => exact Term.wellFormed_literal _
  | database hargs =>
      have hlength := hargs.length_eq
      cases hshaped
      exact Term.wellFormed_ofArgs (by simp) (by rw [hlength]; rfl)
  | table hargs =>
      have hlength := hargs.length_eq
      refine Term.wellFormed_ofArgs (by simp) (Compile.accepts_qualify context ?_)
      rw [hlength]
      cases hshaped with
      | @table _ db => cases db <;> rfl
  | parameter => exact Term.wellFormed_ofArgs (by simp) rfl
  | function => exact Term.wellFormed_ofArgs (by simp) rfl
  | operator hargs hnamed =>
      have hlength := hargs.length_eq
      cases hshaped with
      | operator hplain harity _ =>
          exact Compile.wellFormed_finished context hplain.1 (by rwa [hlength])

theorem Origin.wellFormed {context : CompileContext} {ns : List Expr}
    (hshaped : ∀ n ∈ ns, n.Shaped) {t : Term} (h : Origin context ns t) :
    t.WellFormed := by
  cases h with
  | node hn htraces => exact htraces.wellFormed (hshaped _ hn)
  | constant d => exact Term.wellFormed_literal d
  | database _ => exact Term.wellFormed_ofArgs (by simp) rfl

/-! ## Databases and tables -/

/-- A literal operand becomes that literal. -/
theorem Traces.eq_literal {context : CompileContext} {binders : List Binder} {n : Expr}
    {t : Term} (h : Traces context binders n t) {value : Datum}
    (hkind : n.kind = .literal value) : t = .literal value := by
  cases h with
  | literal => cases hkind; rfl
  | @function _ binder => cases hkind.symm.trans binder.isFunction
  | _ => cases hkind

theorem Traces.of_database {context : CompileContext} {binders : List Binder} {n : Expr}
    {t : Term} (h : Traces context binders n t) (hkind : n.kind = .database) :
    ∃ args, TracesAll context binders n.operands args ∧ t = .ofArgs .db args := by
  cases h with
  | database hargs => exact ⟨_, hargs, rfl⟩
  | @function _ binder => cases hkind.symm.trans binder.isFunction
  | _ => cases hkind

theorem Traces.of_table {context : CompileContext} {binders : List Binder} {n : Expr}
    {t : Term} (h : Traces context binders n t) (hkind : n.kind = .table) :
    ∃ args, TracesAll context binders n.operands args ∧
      t = .ofArgs .table (Compile.qualify context args) := by
  cases h with
  | table hargs => exact ⟨_, hargs, rfl⟩
  | @function _ binder => cases hkind.symm.trans binder.isFunction
  | _ => cases hkind

theorem Traces.isDatabase {context : CompileContext} {binders : List Binder} {n : Expr}
    {t : Term} (hshaped : n.Shaped) (h : Traces context binders n t)
    (hkind : n.kind = .database) : t.IsDatabase := by
  obtain ⟨args, hargs, rfl⟩ := h.of_database hkind
  cases hshaped with
  | @database _ name text hname =>
      cases hargs with
      | cons hfirst hnone =>
          cases hnone
          rw [hfirst.eq_literal hname]
          exact ⟨text, rfl⟩
  | _ => cases hkind

/-- A table keeps its own database; one without gets the default one, if there is
one. -/
theorem Traces.isTable {context : CompileContext} {binders : List Binder} {n : Expr}
    {t : Term} (hshaped : n.Shaped) (hoperands : ∀ x ∈ n.operands, x.Shaped)
    (h : Traces context binders n t) (hkind : n.kind = .table) : t.IsTable := by
  obtain ⟨args, hargs, rfl⟩ := h.of_table hkind
  cases hshaped with
  | @table _ db name text hdb hname hplain =>
      refine ⟨text, hplain, ?_⟩
      cases db with
      | none =>
          cases hargs with
          | cons hfirst hnone =>
              cases hnone
              rw [hfirst.eq_literal hname]
              obtain ⟨_ | database, atomic⟩ := context
              · exact .inl rfl
              · exact .inr ⟨_, ⟨database, rfl⟩, rfl⟩
      | some db =>
          cases hargs with
          | cons hfirst hrest =>
              cases hrest with
              | cons hlast hnone =>
                  cases hnone
                  rw [hlast.eq_literal hname]
                  have hdatabase := hfirst.isDatabase (hoperands db List.mem_cons_self)
                    (hdb db rfl)
                  exact .inr ⟨_, hdatabase, rfl⟩
  | _ => cases hkind

/-- The kind of a term tells which kind of node it was compiled from. -/
theorem Traces.kind_cases {context : CompileContext} {binders : List Binder} {n : Expr}
    {t : Term} (h : Traces context binders n t) :
    n.kind = .operator t.kind ∨ (n.kind = .database ∧ t.kind = .db) ∨
      (n.kind = .table ∧ t.kind = .table) ∨ ¬ IsPlain t.kind := by
  cases h with
  | literal => exact .inr (.inr (.inr fun hplain => hplain.1 rfl))
  | database => exact .inr (.inl ⟨rfl, rfl⟩)
  | table => exact .inr (.inr (.inl ⟨rfl, rfl⟩))
  | parameter => exact .inr (.inr (.inr fun hplain => hplain.2.1 rfl))
  | function => exact .inr (.inr (.inr fun hplain => hplain.2.2 rfl))
  | operator => exact .inl (by rw [Compile.finished_kind])

/-- Some node was made as an operator of the term's kind, and the term is compiled from
it. -/
def OfOperator (context : CompileContext) (ns : List Expr) (t : Term) : Prop :=
  ∃ n ∈ ns, n.kind = .operator t.kind ∧ ∃ within, Traces context within n t

theorem Origin.isDatabase {context : CompileContext} {ns : List Expr}
    (hshaped : ∀ n ∈ ns, n.Shaped) {t : Term} (h : Origin context ns t)
    (hkind : t.kind = .db) : t.IsDatabase ∨ OfOperator context ns t := by
  cases h with
  | constant d => cases hkind
  | @database name _ => exact .inl ⟨name, rfl⟩
  | @node within n _ hn htraces =>
      rcases htraces.kind_cases with hoperator | ⟨hdatabase, _⟩ | ⟨_, htable⟩ | hother
      · exact .inr ⟨n, hn, hoperator, within, htraces⟩
      · exact .inl (htraces.isDatabase (hshaped n hn) hdatabase)
      · cases hkind.symm.trans htable
      · rw [hkind] at hother
        exact absurd (by simp [IsPlain]) hother

theorem Origin.isTable {context : CompileContext} {ns : List Expr}
    (hshaped : ∀ n ∈ ns, n.Shaped) (hoperands : ∀ n ∈ ns, ∀ x ∈ n.operands, x.Shaped)
    {t : Term} (h : Origin context ns t) (hkind : t.kind = .table) :
    t.IsTable ∨ OfOperator context ns t := by
  cases h with
  | constant d => cases hkind
  | database _ => cases hkind
  | @node within n _ hn htraces =>
      rcases htraces.kind_cases with hoperator | ⟨_, hdb⟩ | ⟨htable, _⟩ | hother
      · exact .inr ⟨n, hn, hoperator, within, htraces⟩
      · cases hkind.symm.trans hdb
      · exact .inl (htraces.isTable (hshaped n hn) (hoperands n hn) htable)
      · rw [hkind] at hother
        exact absurd (by simp [IsPlain]) hother

/-! ## Finite numbers -/

namespace Term

mutual

theorem Canonical.of_mem_nodes : ∀ {t : Term}, t.Canonical → ∀ u ∈ t.nodes, u.Canonical
  | ⟨kind, args, options, value⟩, .mk hargs hsorted hoptions hvalue, u, hu => by
    rw [nodes, List.mem_cons, List.mem_append] at hu
    rcases hu with rfl | hu | hu
    · exact .mk hargs hsorted hoptions hvalue
    · exact canonical_of_mem_argNodes hargs u hu
    · exact canonical_of_mem_optionNodes hoptions u hu

theorem canonical_of_mem_argNodes : ∀ {args : List Term}, (∀ arg ∈ args, arg.Canonical) →
    ∀ u ∈ argNodes args, u.Canonical
  | [], _, u, hu => by cases hu
  | arg :: rest, hargs, u, hu => by
    rw [List.forall_mem_cons] at hargs
    rw [argNodes, List.mem_append] at hu
    rcases hu with hu | hu
    · exact hargs.1.of_mem_nodes u hu
    · exact canonical_of_mem_argNodes hargs.2 u hu

theorem canonical_of_mem_optionNodes : ∀ {options : List (String × Term)},
    (∀ option ∈ options, option.2.Canonical) → ∀ u ∈ optionNodes options, u.Canonical
  | [], _, u, hu => by cases hu
  | (_, option) :: rest, hoptions, u, hu => by
    rw [List.forall_mem_cons] at hoptions
    rw [optionNodes, List.mem_append] at hu
    rcases hu with hu | hu
    · exact hoptions.1.of_mem_nodes u hu
    · exact canonical_of_mem_optionNodes hoptions.2 u hu

end

theorem Canonical.isFinite {t : Term} (h : t.Canonical) {d : Datum} (hd : t.value = some d) :
    d.isFinite = true := by
  cases h with
  | mk _ _ _ hvalue => exact (hvalue d hd).2.2

end Term

/-! ## Compiled terms -/

theorem Expr.Sound.shaped_operands {e : Expr} (he : e.Sound) {n : Expr}
    (hn : n ∈ e.nodes) : ∀ x ∈ n.operands, x.Shaped := by
  intro x hx
  refine he.shaped x (nodes_subset_nodes hn ?_)
  exact operandNodes_subset_nodes n (mem_operandNodes hx (mem_nodes_self x))

/-- Whatever an expression was built with, all terms that it compiles to are well
formed, and their numbers are finite, if the numbers of parameters are words.  A
database is compiled to a database by a literal name, and the default one is too; a
table is compiled to a table by a plain literal name.  There are no other databases and
tables in a term but those that were made as operators. -/
theorem Expr.Obtainable.compile_wellFormed {e : Expr} (he : e.Obtainable)
    {context : CompileContext} {t : Term} (h : e.compile context = .ok t) :
    (∀ u ∈ t.nodes, u.WellFormed) ∧
    (e.parametersBound context < 2 ^ 64 →
      ∀ u ∈ t.nodes, ∀ d, u.value = some d → d.isFinite = true) ∧
    (∀ n ∈ e.nodes, ∀ within u, Traces context within n u →
      (n.kind = .database → u.IsDatabase) ∧ (n.kind = .table → u.IsTable)) ∧
    ∀ u ∈ t.nodes, Origin context e.nodes u ∧
      (u.kind = .db → u.IsDatabase ∨ OfOperator context e.nodes u) ∧
      (u.kind = .table → u.IsTable ∨ OfOperator context e.nodes u) := by
  have hsound := he.sound
  have hoperands := fun n hn => hsound.shaped_operands (n := n) hn
  have hcompiled := h
  rw [hsound.compile_eq] at hcompiled
  have horigin := (traces_of_lexical _ [] e hsound.shaped _ _ _
    (Prod.ext hcompiled rfl)).1.origin
  refine ⟨fun u hu => (horigin u hu).wellFormed hsound.shaped, fun hwords u hu d hd => ?_,
    fun n hn within u htraces => ⟨?_, ?_⟩, fun u hu => ⟨horigin u hu, ?_, ?_⟩⟩
  · exact ((he.canonical_compile h hwords).of_mem_nodes u hu).isFinite hd
  · exact htraces.isDatabase (hsound.shaped n hn)
  · exact htraces.isTable (hsound.shaped n hn) (hoperands n hn)
  · exact (horigin u hu).isDatabase hsound.shaped
  · exact (horigin u hu).isTable hsound.shaped hoperands

/-- The table gets the default database, and the update its flag. -/
theorem Expr.selfReading_compile_wellFormed :
    ∃ t, selfReading.compile ⟨some "prod", true⟩ = .ok t ∧
      t.kinds.count .table = 2 ∧ (∀ u ∈ t.nodes, u.WellFormed) ∧
      (∀ u ∈ t.nodes, ∀ d, u.value = some d → d.isFinite = true) ∧
      ∀ u ∈ t.nodes, u.kind = .table → u.IsTable := by
  have hcompile : selfReading.compile ⟨some "prod", true⟩ = .ok _ := rfl
  have hoperators : ∀ n ∈ selfReading.nodes, n.kind ≠ .operator .table := by
    simp [selfReading, nodes, operandNodes, optionNodes]
  obtain ⟨hwellFormed, hfinite, _, hnodes⟩ := selfReading_obtainable.compile_wellFormed hcompile
  refine ⟨_, hcompile, rfl, hwellFormed, hfinite (by decide), fun u hu hkind => ?_⟩
  rcases (hnodes u hu).2.2 hkind with htable | ⟨n, hn, hoperator, _⟩
  · exact htable
  · rw [hkind] at hoperator
    exact absurd hoperator (hoperators n hn)

end DocumentQuery
