import DocumentQuery.Proofs.ExactInteger
import DocumentQuery.Proofs.ProgramSoundness
import DocumentQuery.Proofs.ScopeSimulation

/-!
# Binder hygiene

A compiled term traces back to its expression node by node, and so does every
variable: its number is the one that the nearest function around it, among those
that have its parameter, lists at the parameter's position.  The numbers are
drawn from one counter in the order in which the functions of the term are met
on a walk, so that they ascend along it however often one function of the
expression was compiled.
-/

open DocumentQuery.Expr

namespace DocumentQuery

-- Powers are those of the core library, whatever else is imported.
attribute [local instance (2000)] instPowNat

/-! ## What a term lists and uses -/

namespace Term

/-- What a function lists as its parameters. -/
def parameterIds (t : Term) : List Datum :=
  match t.kind, t.args with
  | .func, ⟨_, _, _, some (.array ids)⟩ :: _ => ids
  | _, _ => []

mutual

/-- All that the functions of a term list as their parameters, in the order of a
walk: the term itself, then its arguments, then its options by name. -/
def listed : Term → List Datum
  | ⟨kind, args, options, value⟩ =>
    parameterIds ⟨kind, args, options, value⟩ ++
      (argsListed args ++ optionsListed options)

def argsListed : List Term → List Datum
  | [] => []
  | arg :: rest => listed arg ++ argsListed rest

def optionsListed : List (String × Term) → List Datum
  | [] => []
  | (_, option) :: rest => listed option ++ optionsListed rest

end

/-- Every variable of a term stands for something bound outside, or in the body
of a function that lists it. -/
inductive Scoped : List Datum → Term → Prop where
  | variable {bound : List Datum} {id : Datum} :
      id ∈ bound → Scoped bound (.ofArgs .var [.literal id])
  | function {bound ids : List Datum} {body : Term} :
      Scoped (ids ++ bound) body →
      Scoped bound (.ofArgs .func [.literal (.array ids), body])
  | other {bound : List Datum} {t : Term} :
      t.kind ≠ .var → t.kind ≠ .func → (∀ arg ∈ t.args, Scoped bound arg) →
      (∀ option ∈ t.options, Scoped bound option.2) → Scoped bound t

end Term

/-! ## Where a term comes from -/

/-- The number of a parameter is the one that the nearest function among those
that have it lists at its position. -/
inductive Binds : List Binder → NodeId → Nat → Prop where
  | nearest {binder : Binder} {outer : List Binder} {p : NodeId}
      {number : Nat} :
      binder.function.Introduces p →
      binder.numbers[(binder.function.parameters.map Expr.id).idxOf p]? =
        some number →
      Binds (binder :: outer) p number
  | outer {binder : Binder} {outer : List Binder} {p : NodeId} {number : Nat} :
      ¬ binder.function.Introduces p → Binds outer p number →
      Binds (binder :: outer) p number

mutual

/-- A term is compiled from an expression inside some functions. -/
inductive Traces (context : CompileContext) :
    List Binder → Expr → Term → Prop where
  | literal {binders : List Binder} {i : NodeId} {value : Datum}
      {operands : List Expr}
      {options : Fields Expr} :
      Traces context binders ⟨i, .literal value, operands, options⟩
        (.literal value)
  | database {binders : List Binder} {i : NodeId} {operands : List Expr}
      {options : Fields Expr} {args : List Term} :
      TracesAll context binders operands args →
      Traces context binders ⟨i, .database, operands, options⟩
        (.ofArgs .db args)
  | table {binders : List Binder} {i : NodeId} {operands : List Expr}
      {options : Fields Expr} {args : List Term} :
      TracesAll context binders operands args →
      Traces context binders ⟨i, .table, operands, options⟩
        (.ofArgs .table (Compile.qualify context args))
  | parameter {binders : List Binder} {p : NodeId} {operands : List Expr}
      {options : Fields Expr} {number : Nat} :
      Binds binders p number →
      Traces context binders ⟨p, .parameter, operands, options⟩
        (.ofArgs .var [.literal (.ofNat number)])
  | function {binders : List Binder} {binder : Binder} {body : Expr}
      {t : Term} :
      binder.function.operands.getLast? = some body →
      Traces context (binder :: binders) body t →
      Traces context binders binder.function
        (.ofArgs .func [.literal (.array (binder.numbers.map .ofNat)), t])
  | operator {binders : List Binder} {i : NodeId} {kind : TermKind}
      {operands : List Expr}
      {options : Fields Expr} {args : List Term} {named : Fields Term} :
      TracesAll context binders operands args →
      TracesOptions context binders options named →
      Traces context binders ⟨i, .operator kind, operands, options⟩
        (Compile.finished context kind ⟨kind, args, named, none⟩)

inductive TracesAll (context : CompileContext) :
    List Binder → List Expr → List Term → Prop where
  | nil {binders : List Binder} : TracesAll context binders [] []
  | cons {binders : List Binder} {e : Expr} {t : Term} {es : List Expr}
      {ts : List Term} :
      Traces context binders e t → TracesAll context binders es ts →
      TracesAll context binders (e :: es) (t :: ts)

inductive TracesOptions (context : CompileContext) :
    List Binder → List (String × Expr) → List (String × Term) → Prop where
  | nil {binders : List Binder} : TracesOptions context binders [] []
  | cons {binders : List Binder} {name : String} {e : Expr} {t : Term}
      {es : List (String × Expr)} {ts : List (String × Term)} :
      Traces context binders e t → TracesOptions context binders es ts →
      TracesOptions context binders ((name, e) :: es) ((name, t) :: ts)

end

theorem Binds.of_numberOf {binders : List Binder} {p : NodeId} {number : Nat}
    (h : numberOf binders p = some number) : Binds binders p number := by
  induction binders with
  | nil => cases h
  | cons binder outer ih =>
      rw [numberOf, List.findSome?_cons] at h
      by_cases hp : binder.function.Introduces p
      · obtain ⟨number', hposition, hlookup⟩ := Binder.lookup_of_introduces hp
        rw [hlookup] at h
        cases h
        exact .nearest hp hposition
      · rw [Binder.lookup_eq_none hp] at h
        exact .outer hp (ih h)

/-! ## Drawing numbers -/

/-- What is listed are ascending numbers, drawn from `next` on and before
`next'`. -/
def Draws (next : Nat) (listed : List Datum) (next' : Nat) : Prop :=
  next ≤ next' ∧ ∃ ids : List Nat, listed = ids.map .ofNat ∧
    ids.Pairwise (· < ·) ∧
    ∀ id ∈ ids, next ≤ id ∧ id < next'

theorem Draws.nothing (next : Nat) : Draws next [] next :=
  ⟨le_rfl, [], rfl, .nil, by simp⟩

theorem Draws.numbers (binder : Binder) :
    Draws binder.first (binder.numbers.map .ofNat)
      (binder.first + binder.function.parameters.length) := by
  refine ⟨Nat.le_add_right _ _, binder.numbers, rfl, ?_, ?_⟩
  · exact List.pairwise_lt_range'
  · intro id hid
    exact List.mem_range'_1.1 hid

theorem Draws.append {next₁ next₂ next₃ : Nat} {listed listed' : List Datum}
    (h : Draws next₁ listed next₂) (h' : Draws next₂ listed' next₃) :
    Draws next₁ (listed ++ listed') next₃ := by
  obtain ⟨hle, ids, rfl, hids, hbetween⟩ := h
  obtain ⟨hle', ids', rfl, hids', hbetween'⟩ := h'
  refine ⟨hle.trans hle', ids ++ ids', List.map_append.symm, ?_, ?_⟩
  · rw [List.pairwise_append]
    refine ⟨hids, hids', fun a ha b hb => ?_⟩
    exact (hbetween a ha).2.trans_le (hbetween' b hb).1
  · intro id hid
    rcases List.mem_append.1 hid with hid | hid
    · exact ⟨(hbetween id hid).1, (hbetween id hid).2.trans_le hle'⟩
    · exact ⟨hle.trans (hbetween' id hid).1, (hbetween' id hid).2⟩

/-- What is left out of a term later on leaves a gap between the numbers. -/
theorem Draws.sublist {next next' : Nat} {listed listed' : List Datum}
    (h : Draws next listed next') (hsublist : listed'.Sublist listed) :
    Draws next listed' next' := by
  obtain ⟨hle, ids, rfl, hids, hbetween⟩ := h
  obtain ⟨ids', hsub, rfl⟩ := List.sublist_map_iff.1 hsublist
  exact ⟨hle, ids', rfl, hids.sublist hsub, fun id hid =>
    hbetween id (hsub.subset hid)⟩

/-! ## What terms list -/

namespace Term

theorem listed_eq_of_ne {kind : TermKind} (hkind : kind ≠ .func)
    (args : List Term) (options : Fields Term) (value : Option Datum) :
    listed ⟨kind, args, options, value⟩ =
      argsListed args ++ optionsListed options := by
  have hnone : parameterIds ⟨kind, args, options, value⟩ = [] := by
    unfold parameterIds
    split
    · exact absurd ‹_› hkind
    · rfl
  rw [listed, hnone, List.nil_append]

theorem listed_literal (d : Datum) : (literal d).listed = [] := by
  rw [literal, listed_eq_of_ne (by decide), argsListed, optionsListed,
    List.append_nil]

theorem listed_ofArgs {kind : TermKind} (hkind : kind ≠ .func) (args : List Term) :
    (ofArgs kind args).listed = argsListed args := by
  rw [ofArgs, listed_eq_of_ne hkind, optionsListed, List.append_nil]

theorem listed_variable (d : Datum) : (ofArgs .var [.literal d]).listed = [] := by
  rw [listed_ofArgs (by decide), argsListed, listed_literal, argsListed,
    List.append_nil]

theorem listed_function (ids : List Datum) (body : Term) :
    (ofArgs .func [.literal (.array ids), body]).listed =
      ids ++ body.listed := by
  have hids : parameterIds (ofArgs .func [.literal (.array ids), body]) = ids :=
    rfl
  rw [ofArgs] at hids ⊢
  rw [listed, hids, argsListed, listed_literal, argsListed, argsListed,
    optionsListed, List.nil_append, List.append_nil, List.append_nil]

theorem optionsListed_insert_literal (name : String) (d : Datum)
    (options : Fields Term) :
    (optionsListed (Fields.insert name (.literal d) options)).Sublist
      (optionsListed options) := by
  induction options with
  | nil => simp [Fields.insert, optionsListed, listed_literal]
  | cons option rest ih =>
      obtain ⟨other, old⟩ := option
      rw [Fields.insert]
      by_cases hlt : name < other
      · rw [if_pos hlt, optionsListed, listed_literal, List.nil_append]
      · rw [if_neg hlt]
        by_cases heq : name = other
        · rw [if_pos heq, optionsListed, optionsListed, listed_literal,
            List.nil_append]
          exact List.sublist_append_right _ _
        · rw [if_neg heq, optionsListed, optionsListed]
          exact ih.append_left _

end Term

theorem Compile.listed_finished {kind : TermKind} (hkind : kind ≠ .func)
    (context : CompileContext) (args : List Term) (options : Fields Term) :
    (finished context kind ⟨kind, args, options, none⟩).listed.Sublist
      (Term.argsListed args ++ Term.optionsListed options) := by
  unfold finished
  by_cases hwrite : kind.isRowWrite
  · rw [if_pos hwrite, Term.withOption, Term.listed_eq_of_ne hkind]
    exact (Term.optionsListed_insert_literal _ _ _).append_left _
  · rw [if_neg hwrite, Term.listed_eq_of_ne hkind]

theorem Compile.listed_qualify (context : CompileContext) (args : List Term) :
    Term.argsListed (qualify context args) = Term.argsListed args := by
  unfold qualify
  split
  · rw [Term.argsListed, Term.listed_ofArgs (by decide), Term.argsListed,
      Term.listed_literal]
    rfl
  · rfl

/-! ## Successful compilations -/

theorem Lexical.resolve_ok {binders : List Binder} {p : NodeId}
    {progress progress' : Progress} {number : Nat}
    (h : Lexical.resolve binders p progress = (.ok number, progress')) :
    numberOf binders p = some number ∧ progress' = progress := by
  rw [Lexical.resolve] at h
  cases hnumber : numberOf binders p with
  | none =>
      rw [hnumber] at h
      cases h
  | some found =>
      rw [hnumber] at h
      cases h
      exact ⟨rfl, rfl⟩

mutual

theorem traces_of_lexical (context : CompileContext) (binders : List Binder) :
    ∀ e : Expr, (∀ n ∈ e.nodes, n.Shaped) →
    ∀ (progress progress' : Progress) (t : Term),
      Lexical.expr context binders e progress = (.ok t, progress') →
      Traces context binders e t ∧ Draws progress.next t.listed progress'.next
  | ⟨i, kind, operands, options⟩, hshaped, progress, progress', t, h => by
    obtain ⟨hself, hoperands, hoptions⟩ := forall_nodes.1 hshaped
    have hargs := tracesAll_of_lexical context binders operands hoperands
    cases kind with
    | literal value =>
        rw [Lexical.expr] at h
        by_cases hfinite : value.isFinite
        · rw [if_pos hfinite] at h
          cases h
          rw [Term.listed_literal]
          exact ⟨.literal, .nothing _⟩
        · rw [if_neg hfinite] at h
          cases h
    | database =>
        rw [Lexical.expr] at h
        obtain ⟨args, progress₁, hrun, h⟩ := fallible_bind_ok h
        cases h
        obtain ⟨htraces, hdraws⟩ := hargs _ _ _ hrun
        rw [Term.listed_ofArgs (by decide)]
        exact ⟨.database htraces, hdraws⟩
    | table =>
        rw [Lexical.expr] at h
        obtain ⟨args, progress₁, hrun, h⟩ := fallible_bind_ok h
        cases h
        obtain ⟨htraces, hdraws⟩ := hargs _ _ _ hrun
        rw [Term.listed_ofArgs (by decide), Compile.listed_qualify]
        exact ⟨.table htraces, hdraws⟩
    | parameter =>
        rw [Lexical.expr] at h
        obtain ⟨number, progress₁, hrun, h⟩ := fallible_bind_ok h
        cases h
        obtain ⟨hnumber, rfl⟩ := Lexical.resolve_ok hrun
        rw [Term.listed_variable]
        exact ⟨.parameter (.of_numberOf hnumber), .nothing _⟩
    | function =>
        rw [Lexical.expr] at h
        by_cases hempty : operands.isEmpty
        · rw [if_pos hempty] at h
          cases h
        · rw [if_neg hempty] at h
          obtain ⟨first, progress₁, htake, h⟩ := fallible_bind_ok h
          cases htake
          obtain ⟨body, progress₂, hrun, h⟩ := fallible_bind_ok h
          cases h
          obtain ⟨e, hlast, htraces, hdraws⟩ :=
            traces_of_lexicalLast context _ operands hoperands _ _ _ hrun
          let binder : Binder :=
            ⟨⟨i, .function, operands, options⟩, rfl, progress.next⟩
          have hfunction : Traces context binders binder.function
              (.ofArgs .func
                [.literal (.array (binder.numbers.map .ofNat)), body]) :=
            .function hlast htraces
          refine ⟨hfunction, ?_⟩
          rw [Term.listed_function]
          exact (Draws.numbers binder).append hdraws
    | operator kind =>
        rw [Lexical.expr] at h
        have hplain : IsPlain kind := by
          cases hself
          assumption
        by_cases harity : kind.arity.accepts operands.length
        · rw [if_pos harity] at h
          obtain ⟨args, progress₁, hrun, h⟩ := fallible_bind_ok h
          obtain ⟨named, progress₂, hrun', h⟩ := fallible_bind_ok h
          cases h
          obtain ⟨htraces, hdraws⟩ := hargs _ _ _ hrun
          obtain ⟨htraces', hdraws'⟩ :=
            tracesOptions_of_lexical context binders options hoptions _ _ _
              hrun'
          refine ⟨.operator htraces htraces', ?_⟩
          exact (hdraws.append hdraws').sublist
            (Compile.listed_finished hplain.2.2 _ _ _)
        · rw [if_neg harity] at h
          cases h

theorem tracesAll_of_lexical (context : CompileContext)
    (binders : List Binder) :
    ∀ es : List Expr, (∀ n ∈ operandNodes es, n.Shaped) →
      ∀ (progress progress' : Progress) (ts : List Term),
      Lexical.exprs context binders es progress = (.ok ts, progress') →
      TracesAll context binders es ts ∧
        Draws progress.next (Term.argsListed ts) progress'.next
  | [], _, progress, progress', ts, h => by
    cases h
    exact ⟨.nil, .nothing _⟩
  | e :: rest, hshaped, progress, progress', ts, h => by
    rw [operandNodes, List.forall_mem_append] at hshaped
    rw [Lexical.exprs] at h
    obtain ⟨term, progress₁, hrun, h⟩ := fallible_bind_ok h
    obtain ⟨terms, progress₂, hrun', h⟩ := fallible_bind_ok h
    cases h
    obtain ⟨htraces, hdraws⟩ :=
      traces_of_lexical context binders e hshaped.1 _ _ _ hrun
    obtain ⟨htraces', hdraws'⟩ :=
      tracesAll_of_lexical context binders rest hshaped.2 _ _ _ hrun'
    exact ⟨.cons htraces htraces', hdraws.append hdraws'⟩

theorem traces_of_lexicalLast (context : CompileContext)
    (binders : List Binder) :
    ∀ es : List Expr, (∀ n ∈ operandNodes es, n.Shaped) →
      ∀ (progress progress' : Progress) (t : Term),
      Lexical.lastExpr context binders es progress = (.ok t, progress') →
      ∃ e, es.getLast? = some e ∧ Traces context binders e t ∧
        Draws progress.next t.listed progress'.next
  | [], _, progress, progress', t, h => by cases h
  | [e], hshaped, progress, progress', t, h => by
    rw [operandNodes, List.forall_mem_append] at hshaped
    exact ⟨e, rfl, traces_of_lexical context binders e hshaped.1 _ _ _ h⟩
  | _ :: e :: rest, hshaped, progress, progress', t, h => by
    rw [operandNodes, List.forall_mem_append] at hshaped
    rw [List.getLast?_cons_cons]
    exact traces_of_lexicalLast context binders (e :: rest) hshaped.2 _ _ _ h

theorem tracesOptions_of_lexical (context : CompileContext)
    (binders : List Binder) :
    ∀ es : List (String × Expr), (∀ n ∈ optionNodes es, n.Shaped) →
      ∀ (progress progress' : Progress) (ts : List (String × Term)),
      Lexical.exprOptions context binders es progress = (.ok ts, progress') →
      TracesOptions context binders es ts ∧
        Draws progress.next (Term.optionsListed ts) progress'.next
  | [], _, progress, progress', ts, h => by
    cases h
    exact ⟨.nil, .nothing _⟩
  | (name, e) :: rest, hshaped, progress, progress', ts, h => by
    rw [optionNodes, List.forall_mem_append] at hshaped
    rw [Lexical.exprOptions] at h
    obtain ⟨term, progress₁, hrun, h⟩ := fallible_bind_ok h
    obtain ⟨terms, progress₂, hrun', h⟩ := fallible_bind_ok h
    cases h
    obtain ⟨htraces, hdraws⟩ :=
      traces_of_lexical context binders e hshaped.1 _ _ _ hrun
    obtain ⟨htraces', hdraws'⟩ :=
      tracesOptions_of_lexical context binders rest hshaped.2 _ _ _ hrun'
    exact ⟨.cons htraces htraces', hdraws.append hdraws'⟩

end

/-! ## Variables lie in the bodies of their functions -/

/-- All that some functions list. -/
def bound (binders : List Binder) : List Datum :=
  binders.flatMap fun binder => binder.numbers.map .ofNat

theorem Binds.mem_bound {binders : List Binder} {p : NodeId} {number : Nat}
    (h : Binds binders p number) : .ofNat number ∈ bound binders := by
  induction h with
  | nearest _ hposition =>
      rw [bound, List.flatMap_cons, List.mem_append]
      exact .inl (List.mem_map_of_mem (List.mem_of_getElem? hposition))
  | outer _ _ ih =>
      rw [bound, List.flatMap_cons, List.mem_append]
      exact .inr ih

theorem Term.Scoped.ofArgs {within : List Datum} {kind : TermKind}
    (hvar : kind ≠ .var) (hfunc : kind ≠ .func) {args : List Term}
    (hargs : ∀ arg ∈ args, arg.Scoped within) :
    (Term.ofArgs kind args).Scoped within := by
  apply Term.Scoped.other hvar hfunc hargs
  simp [Term.ofArgs]

theorem Term.Scoped.literal {within : List Datum} (d : Datum) :
    (Term.literal d).Scoped within := by
  apply Term.Scoped.other <;> simp [Term.literal]

theorem Term.Scoped.finished {within : List Datum} {kind : TermKind}
    (hplain : IsPlain kind)
    (context : CompileContext) {args : List Term} {options : Fields Term}
    (hargs : ∀ arg ∈ args, arg.Scoped within)
    (hoptions : ∀ option ∈ options, option.2.Scoped within) :
    (Compile.finished context kind ⟨kind, args, options, none⟩).Scoped within := by
  unfold Compile.finished
  by_cases hwrite : kind.isRowWrite
  · rw [if_pos hwrite]
    refine .other hplain.2.1 hplain.2.2 hargs fun option hoption => ?_
    rcases Fields.mem_insert hoption with rfl | hold
    · exact .literal _
    · exact hoptions option hold
  · rw [if_neg hwrite]
    exact .other hplain.2.1 hplain.2.2 hargs hoptions

theorem Term.Scoped.qualify {within : List Datum} (context : CompileContext)
    {args : List Term} (hargs : ∀ arg ∈ args, arg.Scoped within) :
    ∀ arg ∈ Compile.qualify context args, arg.Scoped within := by
  unfold Compile.qualify
  split
  · next name database _ =>
    have hdatabase :
        (Term.ofArgs .db [.literal (.string database)]).Scoped within :=
      .ofArgs (by decide) (by decide) (by simp [Term.Scoped.literal])
    simp only [List.forall_mem_cons, hdatabase, true_and]
    simpa using hargs
  · exact hargs

mutual

theorem Traces.scoped {context : CompileContext} {binders : List Binder}
    {e : Expr} {t : Term}
    (hshaped : ∀ n ∈ e.nodes, n.Shaped) :
    Traces context binders e t → t.Scoped (bound binders)
  | .literal => .literal _
  | .database hargs => by
    obtain ⟨_, hoperands, _⟩ := forall_nodes.1 hshaped
    exact .ofArgs (by decide) (by decide) (hargs.scoped hoperands)
  | .table hargs => by
    obtain ⟨_, hoperands, _⟩ := forall_nodes.1 hshaped
    exact .ofArgs (by decide) (by decide)
      (.qualify context (hargs.scoped hoperands))
  | .parameter hbinds => .variable hbinds.mem_bound
  | .function hlast hbody => by
    obtain ⟨_, hoperands, _⟩ := forall_nodes.1 hshaped
    have hlast := List.mem_of_getLast? hlast
    exact .function
      (hbody.scoped fun n hn => hoperands n (mem_operandNodes hlast hn))
  | .operator hargs hnamed => by
    obtain ⟨hself, hoperands, hoptions⟩ := forall_nodes.1 hshaped
    cases hself with
    | operator hplain _ _ =>
        exact .finished hplain context (hargs.scoped hoperands)
          (hnamed.scoped hoptions)

theorem TracesAll.scoped {context : CompileContext} {binders : List Binder}
    {es : List Expr}
    {ts : List Term} (hshaped : ∀ n ∈ operandNodes es, n.Shaped) :
    TracesAll context binders es ts → ∀ t ∈ ts, t.Scoped (bound binders)
  | .nil => by simp
  | .cons hfirst hrest => by
    rw [operandNodes, List.forall_mem_append] at hshaped
    rw [List.forall_mem_cons]
    exact ⟨hfirst.scoped hshaped.1, hrest.scoped hshaped.2⟩

theorem TracesOptions.scoped {context : CompileContext} {binders : List Binder}
    {es : List (String × Expr)} {ts : List (String × Term)}
    (hshaped : ∀ n ∈ optionNodes es, n.Shaped) :
    TracesOptions context binders es ts → ∀ t ∈ ts, t.2.Scoped (bound binders)
  | .nil => by simp
  | .cons hfirst hrest => by
    rw [optionNodes, List.forall_mem_append] at hshaped
    rw [List.forall_mem_cons]
    exact ⟨hfirst.scoped hshaped.1, hrest.scoped hshaped.2⟩

end

/-! ## Hygiene -/

/-- How many parameters a compilation numbers, until its end or its failure. -/
def Expr.parametersBound (context : CompileContext) (e : Expr) : Nat :=
  ((Compile.expr context Scopes.root e).run ⟨.start, []⟩).2.scopes.next -
    Scopes.start.next

theorem Expr.Sound.parametersBound_eq {e : Expr} (he : e.Sound)
    (context : CompileContext) :
    e.parametersBound context =
      (Lexical.expr context [] e ⟨1, []⟩).2.next - 1 := by
  obtain ⟨_, hprogress⟩ := he.compile_run context
  rw [← hprogress]
  rfl

theorem Draws.exists_words {listed : List Datum} {next' : Nat}
    (h : Draws 1 listed next') (hfew : next' - 1 < 2 ^ 53) :
    ∃ ids : List Nat, listed.map Datum.asWord? = ids.map some ∧
    ids.Pairwise (· < ·) ∧
      ∀ id ∈ ids, 1 ≤ id := by
  obtain ⟨_, ids, rfl, hids, hbetween⟩ := h
  refine ⟨ids, ?_, hids, fun id hid => (hbetween id hid).1⟩
  rw [List.map_map]
  apply List.map_congr_left
  intro id hid
  have hlt := (hbetween id hid).2
  have hle : id ≤ 2 ^ 53 := by omega
  rw [Function.comp_apply, Datum.asWord?_ofNat hle]

/-- The numbers of parameters ascend along the term, every variable lies in the
body of a function that lists it, and it has the number that the nearest
function around it compiled from the one that introduced its parameter lists at
the parameter's position. -/
theorem Expr.Obtainable.compile_hygienic {e : Expr} (he : e.Obtainable)
    {context : CompileContext} {t : Term} (h : e.compile context = .ok t)
    (hfew : e.parametersBound context < 2 ^ 53) :
    (∃ ids : List Nat, t.listed.map Datum.asWord? = ids.map some ∧
      ids.Pairwise (· < ·) ∧
      ∀ id ∈ ids, 1 ≤ id) ∧
    t.Scoped [] ∧
    Traces context [] e t ∧
    ∀ f ∈ e.nodes, ∀ g ∈ e.nodes, ∀ p, f.Introduces p → g.Introduces p →
    f = g := by
  have hsound := he.sound
  rw [hsound.compile_eq] at h
  rcases hrun : Lexical.expr context [] e ⟨1, []⟩ with ⟨result, progress⟩
  rw [hrun] at h
  simp only at h
  subst h
  obtain ⟨htraces, hdraws⟩ :=
    traces_of_lexical context [] e hsound.shaped _ _ _ hrun
  have hnext : progress.next - 1 < 2 ^ 53 := by
    rwa [hsound.parametersBound_eq, hrun] at hfew
  refine ⟨hdraws.exists_words hnext, ?_, htraces, hsound.introducer⟩
  exact htraces.scoped hsound.shaped

/-- A map of one function, taken twice by a union. -/
def Expr.mapTwice : Expr :=
  let row : Expr := ⟨1, .parameter, [], []⟩
  let mapped : Expr :=
    ⟨3, .operator .map,
      [⟨0, .literal .null, [], []⟩, ⟨2, .function, [row, row], []⟩], []⟩
  ⟨4, .operator .union, [mapped, mapped], []⟩

theorem Expr.mapTwice_obtainable : mapTwice.Obtainable := by
  refine ⟨Expr.null >>= fun e => Expr.map e pure >>= fun mapped =>
    Expr.union mapped mapped, ?_, rfl⟩
  refine .bind .null fun e => .bind (.map ?_ fun row => .give ?_) fun mapped =>
    .union ?_ ?_
  all_goals exact Set.mem_insert _ _

/-- The function is compiled twice, and each time its parameter has a number of
its own. -/
theorem Expr.mapTwice_compile_hygienic :
    ∃ t, mapTwice.compile {} = .ok t ∧ t.listed = [.ofNat 1, .ofNat 2] ∧
      mapTwice.parametersBound {} < 2 ^ 53 ∧
      (∃ ids : List Nat, t.listed.map Datum.asWord? = ids.map some ∧
        ids.Pairwise (· < ·) ∧
        ∀ id ∈ ids, 1 ≤ id) ∧
      t.Scoped [] ∧ Traces {} [] mapTwice t := by
  have hfew : mapTwice.parametersBound {} < 2 ^ 53 := by decide
  obtain ⟨hids, hscoped, htraces, _⟩ :=
    mapTwice_obtainable.compile_hygienic rfl hfew
  exact ⟨_, rfl, rfl, hfew, hids, hscoped, htraces⟩

end DocumentQuery
