import DocumentQuery.Proofs.CanonicalTerm

/-!
# The atomic flag

Whether writes are atomic reaches a term as one option of every update and
replace, and in no other way.  Two compilations of an expression, an atomic one
and one that is not, run side by side: they fail at the same step, and their
terms are the same up to that option.  A term has no other options than the
node it traces back to.
-/

namespace DocumentQuery

/-! ## Erasing the flag -/

theorem Fields.filter_insert {α : Type} (name : String) (value : α)
    (fields : Fields α) :
    (Fields.insert name value fields).filter (·.1 ≠ name) =
      fields.filter (·.1 ≠ name) := by
  induction fields with
  | nil => simp [Fields.insert]
  | cons first rest ih =>
      obtain ⟨taken, old⟩ := first
      unfold Fields.insert
      split
      · simp
      · split
        · next htaken => simp [htaken]
        · rw [List.filter_cons, List.filter_cons, ih]

theorem Fields.mem_names_insert {α : Type} {name other : String} {value : α}
    {fields : Fields α} :
    other ∈ Fields.names (Fields.insert name value fields) ↔
      other ∈ Fields.names fields ∨ other = name := by
  induction fields with
  | nil => simp [Fields.insert, Fields.names]
  | cons first rest ih =>
      obtain ⟨taken, old⟩ := first
      simp only [Fields.names] at ih
      unfold Fields.insert
      split
      · simp [Fields.names, or_comm]
      · split
        · next htaken => simp [Fields.names, htaken, or_comm]
        · simp [Fields.names, ih, or_assoc]

/-- The inserted value is the only one under its name. -/
theorem Fields.Sorted.mem_insert_iff {α : Type} {fields : Fields α}
    (h : Fields.Sorted fields) {name : String} {value other : α} :
    (name, other) ∈ Fields.insert name value fields ↔ other = value := by
  induction fields with
  | nil => simp [Fields.insert]
  | cons first rest ih =>
      obtain ⟨taken, old⟩ := first
      obtain ⟨hfirst, hrest⟩ := List.pairwise_cons.1 h
      unfold Fields.insert
      split
      · next hlt =>
          have habsent : (name, other) ∉ (taken, old) :: rest := by
            intro hmem
            rcases List.mem_cons.1 hmem with heq | hmem
            · cases heq
              exact String.lt_irrefl _ hlt
            · exact String.lt_irrefl _ (String.lt_trans hlt (hfirst _ hmem))
          simp [habsent]
      · split
        · next htaken =>
            subst htaken
            have habsent : (name, other) ∉ rest := fun hmem =>
              String.lt_irrefl _ (hfirst (name, other) hmem)
            simp [habsent]
        · next hne => simp [hne, ih hrest]

namespace Term

mutual

/-- A term and all terms below it. -/
def nodes : Term → List Term
  | ⟨kind, args, options, value⟩ =>
    ⟨kind, args, options, value⟩ :: (argNodes args ++ optionNodes options)

def argNodes : List Term → List Term
  | [] => []
  | arg :: rest => nodes arg ++ argNodes rest

def optionNodes : List (String × Term) → List Term
  | [] => []
  | (_, option) :: rest => nodes option ++ optionNodes rest

end

mutual

/-- A term without the flags of its updates and replaces. -/
def withoutAtomic : Term → Term
  | ⟨kind, args, options, value⟩ =>
    ⟨kind, argsWithoutAtomic args,
      if kind = .update ∨ kind = .replace then
        (optionsWithoutAtomic options).filter (·.1 ≠ "atomic")
      else optionsWithoutAtomic options, value⟩

def argsWithoutAtomic : List Term → List Term
  | [] => []
  | arg :: rest => withoutAtomic arg :: argsWithoutAtomic rest

def optionsWithoutAtomic : List (String × Term) → List (String × Term)
  | [] => []
  | (name, option) :: rest =>
    (name, withoutAtomic option) :: optionsWithoutAtomic rest

end

theorem optionsWithoutAtomic_eq_mapValues (options : Fields Term) :
    optionsWithoutAtomic options = Fields.mapValues withoutAtomic options := by
  induction options with
  | nil => rfl
  | cons first rest ih =>
      rw [optionsWithoutAtomic, ih]
      rfl

theorem withoutAtomic_withOption {t : Term}
    (hwrite : t.kind = .update ∨ t.kind = .replace) (flag : Term) :
    (t.withOption "atomic" flag).withoutAtomic = t.withoutAtomic := by
  obtain ⟨kind, args, options, value⟩ := t
  have hkept : ∀ named : Fields Term,
      (optionsWithoutAtomic named).filter (·.1 ≠ "atomic") =
        Fields.mapValues withoutAtomic (named.filter (·.1 ≠ "atomic")) := by
    intro named
    rw [optionsWithoutAtomic_eq_mapValues]
    exact List.filter_map
  rw [withOption, withoutAtomic, withoutAtomic, if_pos hwrite, if_pos hwrite,
    hkept, hkept, Fields.filter_insert]

end Term

theorem Compile.withoutAtomic_finished (context : CompileContext)
    (kind : TermKind) (args : List Term) (options : Fields Term) :
    (finished context kind ⟨kind, args, options, none⟩).withoutAtomic =
      (⟨kind, args, options, none⟩ : Term).withoutAtomic := by
  unfold finished
  split
  · next hwrite =>
      exact Term.withoutAtomic_withOption (TermKind.isRowWrite_iff.1 hwrite) _
  · rfl

/-- The database that is put before a table's name has no flag. -/
theorem Compile.argsWithoutAtomic_qualify (context : CompileContext)
    (args : List Term) :
    Term.argsWithoutAtomic (qualify context args) =
      qualify context (Term.argsWithoutAtomic args) := by
  match args with
  | [] => rfl
  | [name] =>
      obtain ⟨_ | database, atomic⟩ := context <;> rfl
  | first :: second :: rest => rfl

/-! ## Two compilations side by side -/

/-- From states with the same next number, the two steps fail alike or have
results that are equal once erased, and the next number is the same again. -/
def RunsAlike {α β : Type} (erase : α → β) (l l' : Lexical α) : Prop :=
  ∀ progress progress' : Progress, progress.next = progress'.next →
    (l progress).1.map erase = (l' progress').1.map erase ∧
      (l progress).2.next = (l' progress').2.next

namespace RunsAlike

variable {α β γ δ : Type}

theorem pure {erase : α → β} {a a' : α} (h : erase a = erase a') :
    RunsAlike erase (pure a) (pure a') :=
  fun _ _ hnext => ⟨congrArg Except.ok h, hnext⟩

theorem throw (erase : α → β) (cause : BuildFault) :
    RunsAlike erase (throw cause) (throw cause) :=
  fun _ _ hnext => ⟨rfl, hnext⟩

theorem bind {erase : α → β} {erase' : γ → δ} {l l' : Lexical α}
    {rest rest' : α → Lexical γ} (h : RunsAlike erase l l')
    (hrest : ∀ a a', erase a = erase a' → RunsAlike erase' (rest a) (rest' a')) :
    RunsAlike erase' (l >>= rest) (l' >>= rest') := by
  intro progress progress' hnext
  have hboth := h progress progress' hnext
  rw [fallible_bind_apply, fallible_bind_apply]
  generalize l progress = found, l' progress' = found' at hboth
  obtain ⟨hresult, hnext⟩ := hboth
  match found, found' with
  | (.error cause, middle), (.error cause', middle') =>
      cases hresult
      exact ⟨rfl, hnext⟩
  | (.ok a, middle), (.ok a', middle') =>
      exact hrest a a' (Except.ok.inj hresult) middle middle' hnext

theorem take (count : Nat) :
    RunsAlike id (Lexical.take count) (Lexical.take count) := by
  intro progress progress' hnext
  exact ⟨congrArg Except.ok hnext, congrArg (· + count) hnext⟩

theorem resolve (binders : List Binder) (p : NodeId) :
    RunsAlike id (Lexical.resolve binders p) (Lexical.resolve binders p) := by
  rw [Lexical.resolve]
  cases numberOf binders p with
  | none => exact .throw _ _
  | some number => exact .pure rfl

theorem warn (writes writes' : List RefusedWrite) :
    RunsAlike id (Lexical.warn writes) (Lexical.warn writes') :=
  fun _ _ hnext => ⟨rfl, hnext⟩

end RunsAlike

mutual

theorem runsAlike_expr (database : Option String) :
    ∀ (e : Expr) (binders : List Binder),
      RunsAlike Term.withoutAtomic (Lexical.expr ⟨database, true⟩ binders e)
        (Lexical.expr ⟨database, false⟩ binders e)
  | ⟨i, kind, operands, options⟩, binders => by
    have hargs := runsAlike_exprs database operands binders
    cases kind with
    | literal value =>
        rw [Lexical.expr, Lexical.expr]
        split
        · exact .pure rfl
        · exact .throw _ _
    | database =>
        rw [Lexical.expr, Lexical.expr]
        refine hargs.bind fun args args' hsame => .pure ?_
        simp only [Term.ofArgs, Term.withoutAtomic, hsame]
    | table =>
        rw [Lexical.expr, Lexical.expr]
        refine hargs.bind fun args args' hsame => .pure ?_
        simp only [Term.ofArgs, Term.withoutAtomic,
          Compile.argsWithoutAtomic_qualify, hsame]
        rfl
    | parameter =>
        rw [Lexical.expr, Lexical.expr]
        refine (RunsAlike.resolve binders i).bind fun number number' hsame => .pure ?_
        rw [id_eq, id_eq] at hsame
        rw [hsame]
    | function =>
        rw [Lexical.expr, Lexical.expr]
        split
        · exact .throw _ _
        · refine (RunsAlike.take _).bind fun first first' hsame => ?_
          rw [id_eq, id_eq] at hsame
          subst hsame
          refine (runsAlike_lastExpr database operands _).bind ?_
          intro body body' hsame
          refine .pure ?_
          simp only [Term.ofArgs, Term.withoutAtomic, Term.argsWithoutAtomic, hsame]
    | operator kind =>
        rw [Lexical.expr, Lexical.expr]
        split
        · refine hargs.bind fun args args' hsame => ?_
          refine (runsAlike_exprOptions database options binders).bind ?_
          intro named named' hnamed
          refine (RunsAlike.warn _ _).bind fun _ _ _ => .pure ?_
          rw [Compile.withoutAtomic_finished, Compile.withoutAtomic_finished,
            Term.withoutAtomic, Term.withoutAtomic, hsame, hnamed]
        · exact .throw _ _

theorem runsAlike_exprs (database : Option String) :
    ∀ (es : List Expr) (binders : List Binder),
      RunsAlike Term.argsWithoutAtomic (Lexical.exprs ⟨database, true⟩ binders es)
        (Lexical.exprs ⟨database, false⟩ binders es)
  | [], _ => .pure rfl
  | e :: rest, binders => by
    rw [Lexical.exprs, Lexical.exprs]
    refine (runsAlike_expr database e binders).bind fun t t' ht => ?_
    refine (runsAlike_exprs database rest binders).bind fun ts ts' hts => .pure ?_
    rw [Term.argsWithoutAtomic, Term.argsWithoutAtomic, ht, hts]

theorem runsAlike_lastExpr (database : Option String) :
    ∀ (es : List Expr) (binders : List Binder),
      RunsAlike Term.withoutAtomic (Lexical.lastExpr ⟨database, true⟩ binders es)
        (Lexical.lastExpr ⟨database, false⟩ binders es)
  | [], _ => .throw _ _
  | [e], binders => runsAlike_expr database e binders
  | _ :: e :: rest, binders => runsAlike_lastExpr database (e :: rest) binders

theorem runsAlike_exprOptions (database : Option String) :
    ∀ (es : List (String × Expr)) (binders : List Binder),
      RunsAlike Term.optionsWithoutAtomic
        (Lexical.exprOptions ⟨database, true⟩ binders es)
        (Lexical.exprOptions ⟨database, false⟩ binders es)
  | [], _ => .pure rfl
  | (name, e) :: rest, binders => by
    rw [Lexical.exprOptions, Lexical.exprOptions]
    refine (runsAlike_expr database e binders).bind fun t t' ht => ?_
    refine (runsAlike_exprOptions database rest binders).bind ?_
    intro ts ts' hts
    refine .pure ?_
    rw [Term.optionsWithoutAtomic, Term.optionsWithoutAtomic, ht, hts]

end

/-! ## The options of a term -/

/-- A term that stands for one of some nodes, or one that compiling adds: a
constant, or the default database. -/
inductive Origin (context : CompileContext) (ns : List Expr) : Term → Prop where
  | node {within : List Binder} {n : Expr} {t : Term} :
      n ∈ ns → Traces context within n t → Origin context ns t
  | constant (d : Datum) : Origin context ns (.literal d)
  | database {name : String} :
      context.defaultDatabase = some name →
      Origin context ns (.ofArgs .db [.literal (.string name)])

theorem Origin.mono {context : CompileContext} {ns ns' : List Expr}
    (hsub : ns ⊆ ns') {t : Term} (h : Origin context ns t) :
    Origin context ns' t := by
  cases h with
  | node hn htraces => exact .node (hsub hn) htraces
  | constant d => exact .constant d
  | database hname => exact .database hname

theorem Expr.mem_nodes_self (e : Expr) : e ∈ e.nodes :=
  (forall_nodes.1 fun _ hn => hn).1

theorem Expr.operandNodes_subset_nodes (e : Expr) :
    operandNodes e.operands ⊆ e.nodes :=
  fun n => (forall_nodes.1 fun _ hn => hn).2.1 n

theorem Expr.optionNodes_subset_nodes (e : Expr) :
    optionNodes e.options ⊆ e.nodes :=
  fun n => (forall_nodes.1 fun _ hn => hn).2.2 n

namespace Term

theorem nodes_ofArgs (kind : TermKind) (args : List Term) :
    (ofArgs kind args).nodes = ofArgs kind args :: argNodes args := by
  rw [ofArgs, nodes, optionNodes, List.append_nil]

theorem mem_optionNodes {options : Fields Term} {u : Term} :
    u ∈ optionNodes options ↔ ∃ option ∈ options, u ∈ option.2.nodes := by
  induction options with
  | nil => simp [optionNodes]
  | cons first rest ih => simp [optionNodes, ih]

/-- A flag is the only term that finishing an operator adds. -/
theorem mem_nodes_finished {context : CompileContext} {kind : TermKind}
    {args : List Term} {options : Fields Term} {u : Term}
    (hu : u ∈ (Compile.finished context kind ⟨kind, args, options, none⟩).nodes) :
    u = Compile.finished context kind ⟨kind, args, options, none⟩ ∨
      u ∈ argNodes args ∨ u ∈ optionNodes options ∨
      u = .literal (.bool context.atomic) := by
  unfold Compile.finished at hu ⊢
  split at hu
  · next hwrite =>
      rw [if_pos hwrite]
      rw [withOption, nodes, List.mem_cons, List.mem_append] at hu
      refine hu.imp_right fun hbelow => hbelow.imp_right fun hoptions => ?_
      obtain ⟨option, hoption, hu⟩ := mem_optionNodes.1 hoptions
      rcases Fields.mem_insert hoption with rfl | hoption
      · exact .inr (List.mem_singleton.1 hu)
      · exact .inl (mem_optionNodes.2 ⟨option, hoption, hu⟩)
  · next hwrite =>
      rw [if_neg hwrite]
      rw [nodes, List.mem_cons, List.mem_append] at hu
      exact hu.imp_right fun hbelow => hbelow.imp_right .inl

theorem mem_argNodes_qualify {context : CompileContext} {args : List Term}
    {u : Term} (hu : u ∈ argNodes (Compile.qualify context args)) :
    u ∈ argNodes args ∨ (∃ d, u = .literal d) ∨
      ∃ name, context.defaultDatabase = some name ∧
        u = .ofArgs .db [.literal (.string name)] := by
  unfold Compile.qualify at hu
  split at hu
  · next name database hdefault =>
      rw [argNodes, List.mem_append, nodes_ofArgs, List.mem_cons] at hu
      rcases hu with (hu | hu) | hu
      · exact .inr (.inr ⟨database, hdefault, hu⟩)
      · exact .inr (.inl ⟨_, List.mem_singleton.1 hu⟩)
      · exact .inl hu
  · exact .inl hu

end Term

mutual

theorem Traces.origin {context : CompileContext} {binders : List Binder}
    {e : Expr} {t : Term} :
    Traces context binders e t → ∀ u ∈ t.nodes, Origin context e.nodes u
  | .literal, u, hu => by
    rw [List.mem_singleton.1 hu]
    exact .constant _
  | .database hargs, u, hu => by
    rw [Term.nodes_ofArgs, List.mem_cons] at hu
    rcases hu with rfl | hu
    · exact .node (Expr.mem_nodes_self _) (.database hargs)
    · exact (hargs.origin u hu).mono (Expr.operandNodes_subset_nodes _)
  | .table hargs, u, hu => by
    rw [Term.nodes_ofArgs, List.mem_cons] at hu
    rcases hu with rfl | hu
    · exact .node (Expr.mem_nodes_self _) (.table hargs)
    · rcases Term.mem_argNodes_qualify hu with hu | ⟨d, rfl⟩ | ⟨name, hname, rfl⟩
      · exact (hargs.origin u hu).mono (Expr.operandNodes_subset_nodes _)
      · exact .constant d
      · exact .database hname
  | .parameter hbinds, u, hu => by
    rw [Term.nodes_ofArgs, List.mem_cons] at hu
    rcases hu with rfl | hu
    · exact .node (Expr.mem_nodes_self _) (.parameter hbinds)
    · rw [List.mem_singleton.1 hu]
      exact .constant _
  | @Traces.function _ binders binder body t hlast hbody, u, hu => by
    rw [Term.nodes_ofArgs, List.mem_cons] at hu
    rcases hu with rfl | hu
    · exact .node (Expr.mem_nodes_self _) (.function hlast hbody)
    · rw [Term.argNodes, List.mem_append, Term.argNodes, Term.argNodes,
        List.append_nil] at hu
      rcases hu with hu | hu
      · rw [List.mem_singleton.1 hu]
        exact .constant _
      · refine (hbody.origin u hu).mono fun n hn => ?_
        exact Expr.operandNodes_subset_nodes _
          (Expr.mem_operandNodes (List.mem_of_getLast? hlast) hn)
  | .operator hargs hnamed, u, hu => by
    rcases Term.mem_nodes_finished hu with rfl | hu | hu | rfl
    · exact .node (Expr.mem_nodes_self _) (.operator hargs hnamed)
    · exact (hargs.origin u hu).mono (Expr.operandNodes_subset_nodes _)
    · exact (hnamed.origin u hu).mono (Expr.optionNodes_subset_nodes _)
    · exact .constant _

theorem TracesAll.origin {context : CompileContext} {binders : List Binder}
    {es : List Expr} {ts : List Term} :
    TracesAll context binders es ts →
      ∀ u ∈ Term.argNodes ts, Origin context (Expr.operandNodes es) u
  | .nil, u, hu => by cases hu
  | .cons hfirst hrest, u, hu => by
    rw [Term.argNodes, List.mem_append] at hu
    rw [Expr.operandNodes]
    rcases hu with hu | hu
    · exact (hfirst.origin u hu).mono (List.subset_append_left _ _)
    · exact (hrest.origin u hu).mono (List.subset_append_right _ _)

theorem TracesOptions.origin {context : CompileContext} {binders : List Binder}
    {es : List (String × Expr)} {ts : List (String × Term)} :
    TracesOptions context binders es ts →
      ∀ u ∈ Term.optionNodes ts, Origin context (Expr.optionNodes es) u
  | .nil, u, hu => by cases hu
  | .cons hfirst hrest, u, hu => by
    rw [Term.optionNodes, List.mem_append] at hu
    rw [Expr.optionNodes]
    rcases hu with hu | hu
    · exact (hfirst.origin u hu).mono (List.subset_append_left _ _)
    · exact (hrest.origin u hu).mono (List.subset_append_right _ _)

end

theorem Compile.finished_kind (context : CompileContext) (kind : TermKind)
    (t : Term) : (finished context kind t).kind = t.kind := by
  unfold finished
  split <;> rfl

theorem Compile.mem_names_finished {context : CompileContext} {kind : TermKind}
    {t : Term} {name : String} :
    name ∈ Fields.names (finished context kind t).options ↔
      name ∈ Fields.names t.options ∨
        ((kind = .update ∨ kind = .replace) ∧ name = "atomic") := by
  rw [← TermKind.isRowWrite_iff]
  unfold finished
  split
  · next hwrite =>
      rw [Term.withOption, Fields.mem_names_insert, and_iff_right hwrite]
  · next hwrite => simp [hwrite]

theorem Expr.Shaped.options_eq_nil {n : Expr} (hshaped : n.Shaped)
    (hkind : ∀ kind, n.kind ≠ .operator kind) : n.options = [] := by
  cases hshaped with
  | operator => exact absurd rfl (hkind _)
  | _ => rfl

/-- The options of a term have the names of those of its node, but for the flag
of an update or replace. -/
theorem Traces.mem_names {context : CompileContext} {binders : List Binder}
    {n : Expr} {t : Term} (hshaped : n.Shaped) (h : Traces context binders n t)
    (name : String) :
    name ∈ Fields.names t.options ↔
      name ∈ Fields.names n.options ∨
        ((t.kind = .update ∨ t.kind = .replace) ∧ name = "atomic") := by
  cases h with
  | operator hargs hnamed =>
      rw [Compile.finished_kind, Compile.mem_names_finished, hnamed.names_eq]
  | @function _ binder =>
      have hnone := hshaped.options_eq_nil (by simp [binder.isFunction])
      simp [hnone, Term.ofArgs, Fields.names]
  | literal =>
      have hnone := hshaped.options_eq_nil (by simp)
      rw [hnone]
      simp [Term.literal, Fields.names]
  | _ =>
      have hnone := hshaped.options_eq_nil (by simp)
      rw [hnone]
      simp [Term.ofArgs, Fields.names]

/-- An update or replace has one flag, whatever its node has. -/
theorem Origin.mem_atomic {context : CompileContext} {ns : List Expr}
    (hshaped : ∀ n ∈ ns, n.Shaped) {t : Term} (h : Origin context ns t)
    (hwrite : t.kind = .update ∨ t.kind = .replace) (flag : Term) :
    ("atomic", flag) ∈ t.options ↔ flag = .literal (.bool context.atomic) := by
  rw [← TermKind.isRowWrite_iff] at hwrite
  cases h with
  | constant d => cases hwrite
  | database hname => cases hwrite
  | node hn htraces =>
      have hself := hshaped _ hn
      cases htraces with
      | operator hargs hnamed =>
          rw [Compile.finished_kind] at hwrite
          cases hself with
          | operator _ _ hsorted =>
              rw [Fields.sorted_iff_names, ← hnamed.names_eq,
                ← Fields.sorted_iff_names] at hsorted
              rw [Compile.finished, if_pos hwrite]
              exact hsorted.mem_insert_iff
      | _ => cases hwrite

/-- A compilation that is atomic succeeds if one that is not does, and their
terms differ in the flags alone.  Every update and replace in a term has the
flag, and no term has other options than the node it traces back to. -/
theorem Expr.Obtainable.compile_atomic {e : Expr} (he : e.Obtainable)
    (database : Option String) :
    ((∃ t, e.compile ⟨database, true⟩ = .ok t) ↔
      ∃ t, e.compile ⟨database, false⟩ = .ok t) ∧
    (e.compile ⟨database, true⟩).map Term.withoutAtomic =
      (e.compile ⟨database, false⟩).map Term.withoutAtomic ∧
    ∀ atomic t, e.compile ⟨database, atomic⟩ = .ok t →
      (∀ u ∈ t.nodes, u.kind = .update ∨ u.kind = .replace → ∀ flag,
        ("atomic", flag) ∈ u.options ↔ flag = .literal (.bool atomic)) ∧
      Traces ⟨database, atomic⟩ [] e t ∧
      (∀ u ∈ t.nodes, Origin ⟨database, atomic⟩ e.nodes u) ∧
      ∀ n ∈ e.nodes, ∀ within u, Traces ⟨database, atomic⟩ within n u →
        ∀ name, name ∈ Fields.names u.options ↔
          name ∈ Fields.names n.options ∨
            ((u.kind = .update ∨ u.kind = .replace) ∧ name = "atomic") := by
  have hsound := he.sound
  have hsame : (e.compile ⟨database, true⟩).map Term.withoutAtomic =
      (e.compile ⟨database, false⟩).map Term.withoutAtomic := by
    rw [hsound.compile_eq, hsound.compile_eq]
    exact (runsAlike_expr database e [] ⟨1, []⟩ ⟨1, []⟩ rfl).1
  refine ⟨?_, hsame, fun atomic t ht => ?_⟩
  · generalize e.compile ⟨database, true⟩ = c,
      e.compile ⟨database, false⟩ = c' at hsame
    match c, c' with
    | .error _, .error _ => simp
    | .ok _, .ok _ => simp
  · rw [hsound.compile_eq] at ht
    have htraces :=
      (traces_of_lexical _ [] e hsound.shaped _ _ _ (Prod.ext ht rfl)).1
    have horigin := htraces.origin
    exact ⟨fun u hu => (horigin u hu).mem_atomic hsound.shaped, htraces, horigin,
      fun n hn within u hu => hu.mem_names (hsound.shaped n hn)⟩

/-- An update inside a function, whose own flag is a map of another function. -/
def Expr.ownFlag : Expr :=
  let nothing : Expr := ⟨0, .literal .null, [], []⟩
  let row : Expr := ⟨1, .parameter, [], []⟩
  let mapped : Expr :=
    ⟨3, .operator .map, [nothing, ⟨2, .function, [row, row], []⟩], []⟩
  let written : Expr :=
    ⟨5, .operator .update, [nothing, nothing], [("atomic", mapped)]⟩
  ⟨7, .operator .forEach,
    [nothing, ⟨6, .function, [⟨4, .parameter, [], []⟩, written], []⟩], []⟩

theorem Expr.ownFlag_obtainable : ownFlag.Obtainable := by
  refine ⟨Expr.null >>= fun e => Expr.map e pure >>= fun mapped =>
    Expr.forEach e fun _ =>
      Expr.tryOperator .update [e, e] [("atomic", mapped)], ?_, rfl⟩
  refine .bind .null fun e => .bind (.map ?_ fun row => .give ?_) fun mapped =>
    .forEach ?_ fun _ => .tryOperator ?_ ?_ ?_
  all_goals simp [Fields.Sorted]

/-- The caller's flag is compiled and then replaced. -/
theorem Expr.ownFlag_compile_atomic :
    (ownFlag.compile ⟨none, true⟩).map Term.withoutAtomic =
      (ownFlag.compile ⟨none, false⟩).map Term.withoutAtomic ∧
    ∃ t, ownFlag.compile ⟨none, false⟩ = .ok t ∧
      t.kinds.count .update = 1 ∧
      ∀ u ∈ t.nodes, u.kind = .update ∨ u.kind = .replace → ∀ flag,
        ("atomic", flag) ∈ u.options ↔ flag = .literal (.bool false) := by
  obtain ⟨_, hsame, hflags⟩ := ownFlag_obtainable.compile_atomic none
  exact ⟨hsame, _, rfl, rfl, (hflags false _ rfl).1⟩

end DocumentQuery
