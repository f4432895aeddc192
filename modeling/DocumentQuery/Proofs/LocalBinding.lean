import DocumentQuery.Proofs.BinderHygiene

/-!
# Local bindings

A local binding is a call of a function.  Its names exist only while the body is
being built, its parameters only as nodes, and the numbers of the parameters only
in the term.  Here the three are tied together: a name is asked for and gives
the parameter at its place in the list, the parameter becomes the number at that
place wherever it stands in the body, and the values are compiled outside.  What
the names are does not matter, as long as they are told apart.
-/

open DocumentQuery.Expr

namespace DocumentQuery

-- Powers are those of the core library, whatever else is imported.
attribute [local instance (2000)] instPowNat

/-! ## Parameters in a term -/

mutual

/-- A term is made from an expression node by node, and each parameter becomes a
variable with a number that it may have. -/
inductive Renders (context : CompileContext) (mayHave : NodeId → Nat → Prop) :
    Expr → Term → Prop where
  | literal {i : NodeId} {value : Datum} {operands : List Expr}
      {options : Fields Expr} :
      Renders context mayHave ⟨i, .literal value, operands, options⟩
        (.literal value)
  | database {i : NodeId} {operands : List Expr} {options : Fields Expr}
      {args : List Term} :
      RendersAll context mayHave operands args →
      Renders context mayHave ⟨i, .database, operands, options⟩ (.ofArgs .db args)
  | table {i : NodeId} {operands : List Expr} {options : Fields Expr}
      {args : List Term} :
      RendersAll context mayHave operands args →
      Renders context mayHave ⟨i, .table, operands, options⟩
        (.ofArgs .table (Compile.qualify context args))
  | parameter {p : NodeId} {operands : List Expr} {options : Fields Expr}
      {number : Nat} :
      mayHave p number →
      Renders context mayHave ⟨p, .parameter, operands, options⟩
        (.ofArgs .var [.literal (.ofNat number)])
  | function {i : NodeId} {operands : List Expr} {options : Fields Expr}
      {body : Expr} {ids : List Datum} {t : Term} :
      operands.getLast? = some body → Renders context mayHave body t →
      Renders context mayHave ⟨i, .function, operands, options⟩
        (.ofArgs .func [.literal (.array ids), t])
  | operator {i : NodeId} {kind : TermKind} {operands : List Expr}
      {options : Fields Expr} {args : List Term} {named : Fields Term} :
      RendersAll context mayHave operands args →
      RendersOptions context mayHave options named →
      Renders context mayHave ⟨i, .operator kind, operands, options⟩
        (Compile.finished context kind ⟨kind, args, named, none⟩)

inductive RendersAll (context : CompileContext)
    (mayHave : NodeId → Nat → Prop) : List Expr → List Term → Prop where
  | nil : RendersAll context mayHave [] []
  | cons {e : Expr} {t : Term} {es : List Expr} {ts : List Term} :
      Renders context mayHave e t → RendersAll context mayHave es ts →
      RendersAll context mayHave (e :: es) (t :: ts)

inductive RendersOptions (context : CompileContext)
    (mayHave : NodeId → Nat → Prop) : Fields Expr → Fields Term → Prop where
  | nil : RendersOptions context mayHave [] []
  | cons {name : String} {e : Expr} {t : Term} {es : Fields Expr}
      {ts : Fields Term} :
      Renders context mayHave e t → RendersOptions context mayHave es ts →
      RendersOptions context mayHave ((name, e) :: es) ((name, t) :: ts)

end

theorem Renders.of_function {context : CompileContext}
    {mayHave : NodeId → Nat → Prop} {f body : Expr} {ids : List Datum} {t : Term}
    (hkind : f.kind = .function) (hlast : f.operands.getLast? = some body)
    (hbody : Renders context mayHave body t) :
    Renders context mayHave f (.ofArgs .func [.literal (.array ids), t]) := by
  obtain ⟨i, kind, operands, options⟩ := f
  cases hkind
  exact .function hlast hbody

/-- Entering one more function does not change which numbers parameters may have
that it does not introduce. -/
theorem Binds.mayHave_cons {mayHave : NodeId → Nat → Prop} {binder : Binder}
    {binders : List Binder}
    (hfree : ∀ p, binder.function.Introduces p → ∀ number, mayHave p number)
    (hbinders : ∀ p number, Binds binders p number → mayHave p number) :
    ∀ p number, Binds (binder :: binders) p number → mayHave p number
  | _, _, .nearest hp _ => hfree _ hp _
  | _, _, .outer _ h => hbinders _ _ h

mutual

/-- The functions inside an expression leave alone what they do not introduce. -/
theorem Traces.renders {context : CompileContext} {mayHave : NodeId → Nat → Prop}
    {binders : List Binder} {e : Expr} {t : Term}
    (hfree : ∀ f ∈ e.nodes, ∀ p, f.Introduces p → ∀ number, mayHave p number)
    (hbinders : ∀ p number, Binds binders p number → mayHave p number) :
    Traces context binders e t → Renders context mayHave e t
  | .literal => .literal
  | .database hargs => .database (hargs.renders (forall_nodes.1 hfree).2.1 hbinders)
  | .table hargs => .table (hargs.renders (forall_nodes.1 hfree).2.1 hbinders)
  | .parameter hbinds => .parameter (hbinders _ _ hbinds)
  | @Traces.function _ _ binder body _ hlast hbody => by
    obtain ⟨hself, hoperands, -⟩ := forall_nodes.1 hfree
    have hmem := List.mem_of_getLast? hlast
    have hrenders := hbody.renders
      (fun n hn => hoperands n (mem_operandNodes hmem hn))
      (Binds.mayHave_cons hself hbinders)
    exact .of_function binder.isFunction hlast hrenders
  | .operator hargs hnamed => by
    obtain ⟨-, hoperands, hoptions⟩ := forall_nodes.1 hfree
    exact .operator (hargs.renders hoperands hbinders)
      (hnamed.renders hoptions hbinders)

theorem TracesAll.renders {context : CompileContext}
    {mayHave : NodeId → Nat → Prop} {binders : List Binder} {es : List Expr}
    {ts : List Term}
    (hfree : ∀ f ∈ operandNodes es, ∀ p, f.Introduces p →
      ∀ number, mayHave p number)
    (hbinders : ∀ p number, Binds binders p number → mayHave p number) :
    TracesAll context binders es ts → RendersAll context mayHave es ts
  | .nil => .nil
  | .cons hfirst hrest => by
    rw [operandNodes, List.forall_mem_append] at hfree
    exact .cons (hfirst.renders hfree.1 hbinders) (hrest.renders hfree.2 hbinders)

theorem TracesOptions.renders {context : CompileContext}
    {mayHave : NodeId → Nat → Prop} {binders : List Binder} {es : Fields Expr}
    {ts : Fields Term}
    (hfree : ∀ f ∈ optionNodes es, ∀ p, f.Introduces p →
      ∀ number, mayHave p number)
    (hbinders : ∀ p number, Binds binders p number → mayHave p number) :
    TracesOptions context binders es ts → RendersOptions context mayHave es ts
  | .nil => .nil
  | .cons hfirst hrest => by
    rw [optionNodes, List.forall_mem_append] at hfree
    exact .cons (hfirst.renders hfree.1 hbinders) (hrest.renders hfree.2 hbinders)

end

/-! ## Names -/

theorem duplicate?_eq_none_iff {seen names : List String} :
    duplicate? seen names = none ↔ names.Nodup ∧ ∀ name ∈ names, name ∉ seen := by
  induction names generalizing seen with
  | nil => simp [duplicate?]
  | cons name rest ih =>
      rw [duplicate?, List.nodup_cons, List.forall_mem_cons]
      by_cases hseen : name ∈ seen
      · simp [hseen]
      · rw [if_neg (by simpa using hseen), ih]
        simp only [List.mem_cons, not_or, hseen, not_false_eq_true, true_and]
        constructor
        · rintro ⟨hnodup, hrest⟩
          exact ⟨⟨fun hmem => (hrest name hmem).1 rfl, hnodup⟩,
            fun other hother => (hrest other hother).2⟩
        · rintro ⟨⟨hname, hnodup⟩, hrest⟩
          refine ⟨hnodup, fun other hother => ⟨?_, hrest other hother⟩⟩
          rintro rfl
          exact hname hother

theorem duplicate?_eq_some {seen names : List String} {name : String}
    (h : duplicate? seen names = some name) :
    ∃ before after, names = before ++ name :: after ∧
      (name ∈ seen ∨ name ∈ before) := by
  induction names generalizing seen with
  | nil => cases h
  | cons first rest ih =>
      rw [duplicate?] at h
      by_cases hseen : first ∈ seen
      · rw [if_pos (by simpa using hseen)] at h
        cases h
        exact ⟨[], rest, rfl, .inl hseen⟩
      · rw [if_neg (by simpa using hseen)] at h
        obtain ⟨before, after, rfl, hmem⟩ := ih h
        refine ⟨first :: before, after, rfl, ?_⟩
        rw [List.mem_cons] at hmem ⊢
        tauto

namespace Expr

/-- The scope that the body of a local binding gets, `next` being the next
identity. -/
def LetScope.fresh (names : List String) (next : NodeId) : LetScope :=
  ⟨names.zip (parametersFrom next names.length)⟩

theorem find?_zip_parametersFrom {names : List String} (hnodup : names.Nodup)
    {next : NodeId} {k : Nat} {name : String} (hname : names[k]? = some name) :
    (names.zip (parametersFrom next names.length)).find? (·.1 == name) =
      some (name, parameterNode (next + k)) := by
  induction names generalizing next k with
  | nil => cases hname
  | cons first rest ih =>
      rw [List.length_cons, parametersFrom_succ, List.zip_cons_cons]
      obtain ⟨hfirst, hnodup⟩ := List.nodup_cons.1 hnodup
      cases k with
      | zero =>
          cases hname
          rw [List.find?_cons_of_pos (by simp), Nat.add_zero]
      | succ k =>
          rw [List.getElem?_cons_succ] at hname
          have hne : first ≠ name := by
            rintro rfl
            exact hfirst (List.mem_of_getElem? hname)
          rw [List.find?_cons_of_neg (by simpa using hne), ih hnodup hname,
            Nat.add_assoc, Nat.add_comm 1]

theorem LetScope.variable_fresh {names : List String} (hnodup : names.Nodup)
    {next : NodeId} {k : Nat} {name : String} (hname : names[k]? = some name) :
    (LetScope.fresh names next).variable name =
      (pure (parameterNode (next + k)) : Caller Expr) := by
  rw [LetScope.variable, LetScope.fresh, find?_zip_parametersFrom hnodup hname]

theorem LetScope.variable_unknown {names : List String} {next : NodeId}
    {name : String} (hname : name ∉ names) :
    (LetScope.fresh names next).variable name =
      (Build.fail (.unknownBinding name) : Caller Expr) := by
  have hnone : (LetScope.fresh names next).bindings.find? (·.1 == name) = none := by
    rw [List.find?_eq_none]
    intro binding hbinding hsame
    have hmem : binding.1 ∈ names := (List.of_mem_zip hbinding).1
    exact hname (beq_iff_eq.1 hsame ▸ hmem)
  rw [LetScope.variable, hnone]

/-! ## Building -/

def letFunction (i next : NodeId) (count : Nat) (body : Expr) : Expr :=
  ⟨i, .function, parametersFrom next count ++ [body], []⟩

def letNode (i next : NodeId) (values : List Expr) (body : Expr) : Expr :=
  ⟨i + 1, .operator .funcall, letFunction i next values.length body :: values, []⟩

variable {bindings : List (String × Expr)}

theorem letIn_repeated (hrepeated : ¬ (bindings.map Prod.fst).Nodup)
    (body : LetScope → Caller Expr) :
    ∃ name before after, bindings.map Prod.fst = before ++ name :: after ∧
      name ∈ before ∧
      letIn bindings body = Build.fail (.duplicateBinding name) := by
  cases hname : duplicate? [] (bindings.map Prod.fst) with
  | none => exact absurd (duplicate?_eq_none_iff.1 hname).1 hrepeated
  | some name =>
      obtain ⟨before, after, hsplit, hmem⟩ := duplicate?_eq_some hname
      refine ⟨name, before, after, hsplit, hmem.resolve_left List.not_mem_nil, ?_⟩
      simp only [letIn, hname]

theorem letIn_apply (hnodup : (bindings.map Prod.fst).Nodup)
    (body : LetScope → Caller Expr) (next : NodeId) (kept : List Expr) :
    letIn bindings body next kept =
      match body (.fresh (bindings.map Prod.fst) next) (next + bindings.length)
          kept with
      | ((.ok b, i), kept) =>
        ((.ok (letNode i next (bindings.map Prod.snd) b), i + 2), kept)
      | ((.error cause, i), kept) => ((.error cause, i), kept) := by
  have hnone : duplicate? [] (bindings.map Prod.fst) = none :=
    duplicate?_eq_none_iff.2 ⟨hnodup, by simp⟩
  simp only [letIn, hnone]
  rw [Caller.bind_apply, mapM_parameter_apply, List.length_map]
  simp only
  rw [Caller.bind_apply]
  have hscope : LetScope.mk ((bindings.map Prod.fst).zip
      (parametersFrom next bindings.length)) =
        .fresh (bindings.map Prod.fst) next := by
    rw [LetScope.fresh, List.length_map]
  rw [hscope]
  rcases body (.fresh (bindings.map Prod.fst) next) (next + bindings.length) kept
    with ⟨⟨cause | b, i⟩, kept₁⟩
  · rfl
  · simp only [letNode, letFunction, List.length_map]
    rfl

end Expr

/-! ## Compiling -/

/-- A scope that a compilation has come to: it binds what the binders around it
bind, and their numbers have been drawn. -/
structure Encloses (s : CompileState) (scope : Nat) (binders : List Binder) :
    Prop where
  represents : Represents s.scopes.scopes scope binders
  drawn : ∀ binder ∈ binders, ∀ number ∈ binder.numbers, number < s.scopes.next

theorem encloses_start : Encloses ⟨.start, []⟩ Scopes.root [] :=
  ⟨.root rfl, by simp⟩

section

variable {context : CompileContext} {scope : Nat} {binders : List Binder}
  {s s' : CompileState}

theorem Encloses.compile (h : Encloses s scope binders) {e : Expr}
    (hshaped : ∀ n ∈ e.nodes, n.Shaped) {t : Term}
    (hrun : Compile.expr context scope e s = (.ok t, s')) :
    Lexical.expr context binders e s.progress = (.ok t, s'.progress) ∧
      Draws s.scopes.next t.listed s'.scopes.next ∧ Encloses s' scope binders := by
  obtain ⟨hresult, hprogress, hgrown⟩ :=
    simulates_expr context scope binders e hshaped s h.represents
  rw [hrun] at hresult hprogress hgrown
  have hlexical : Lexical.expr context binders e s.progress =
      (.ok t, s'.progress) :=
    Prod.ext hresult.symm hprogress.symm
  obtain ⟨-, hdraws⟩ := traces_of_lexical context binders e hshaped _ _ _ hlexical
  refine ⟨hlexical, hdraws, h.represents.mono hgrown, ?_⟩
  intro binder hbinder number hnumber
  exact (h.drawn binder hbinder number hnumber).trans_le hdraws.1

theorem Encloses.function (h : Encloses s scope binders) {f : Expr}
    (hf : f.kind = .function) (hnodup : (f.parameters.map Expr.id).Nodup) :
    ∃ s₁ s₂, Compile.openScope scope s = (.ok s.scopes.scopes.length, s₁) ∧
      (f.parameters.mapM fun x =>
          Compile.bindParameter s.scopes.scopes.length x.id) s₁ =
        (.ok (List.range' s.scopes.next f.parameters.length), s₂) ∧
      Encloses s₂ s.scopes.scopes.length (⟨f, hf, s.scopes.next⟩ :: binders) := by
  obtain ⟨s₁, s₂, hopen, hbind, hinner, -, hprogress⟩ :=
    h.represents.function hf hnodup
  have hnext : s₂.scopes.next = s.scopes.next + f.parameters.length :=
    congrArg Progress.next hprogress
  refine ⟨s₁, s₂, hopen, hbind, hinner, ?_⟩
  rw [hnext, List.forall_mem_cons]
  refine ⟨fun number hnumber => (List.mem_range'_1.1 hnumber).2, ?_⟩
  intro binder hbinder number hnumber
  exact (h.drawn binder hbinder number hnumber).trans_le (Nat.le_add_right _ _)

theorem Encloses.next_le (h : Encloses s scope binders) {es : List Expr}
    (hshaped : ∀ n ∈ operandNodes es, n.Shaped) {terms : List Term}
    (hrun : Compile.exprs context scope es s = (.ok terms, s')) :
    s.scopes.next ≤ s'.scopes.next := by
  obtain ⟨hresult, hprogress, -⟩ :=
    simulates_exprs context scope binders es hshaped s h.represents
  rw [hrun] at hresult hprogress
  have hlexical : Lexical.exprs context binders es s.progress =
      (.ok terms, s'.progress) :=
    Prod.ext hresult.symm hprogress.symm
  exact (tracesAll_of_lexical context binders es hshaped _ _ _ hlexical).2.1

theorem Compile.letNode_ok {i next : NodeId} {values : List Expr} {body : Expr}
    {t : Term}
    (hrun : Compile.expr context scope (letNode i next values body) s =
      (.ok t, s')) :
    ∃ F args s₁, t = .ofArgs .funcall (F :: args) ∧
      Compile.expr context scope (letFunction i next values.length body) s =
        (.ok F, s₁) ∧
      Compile.exprs context scope values s₁ = (.ok args, s') := by
  have haccepts : TermKind.funcall.arity.accepts
      (letFunction i next values.length body :: values).length := rfl
  rw [letNode, Compile.expr, if_pos haccepts] at hrun
  obtain ⟨terms, s₂, hterms, hrun⟩ := fallible_bind_ok hrun
  obtain ⟨options, s₃, hoptions, hrun⟩ := fallible_bind_ok hrun
  -- The function is the first operand, so the values come after it.
  rw [Compile.exprs] at hterms
  obtain ⟨F, s₁, hF, hterms⟩ := fallible_bind_ok hterms
  obtain ⟨args, s₄, hargs, hterms⟩ := fallible_bind_ok hterms
  cases hterms
  cases hoptions
  cases hrun
  exact ⟨F, args, s₁, rfl, hF, hargs⟩

theorem Lexical.letFunction_ok {i next : NodeId} {count : Nat} {body : Expr}
    (hshaped : ∀ n ∈ (letFunction i next count body).nodes, n.Shaped)
    {progress progress' : Progress} {t : Term}
    (hrun : Lexical.expr context binders (letFunction i next count body) progress =
      (.ok t, progress')) :
    ∃ B, t = .ofArgs .func [.literal (.array
          ((List.range' progress.next count).map .ofNat)), B] ∧
      Traces context
        (⟨letFunction i next count body, rfl, progress.next⟩ :: binders) body B ∧
      progress.next + count ≤ progress'.next := by
  obtain ⟨-, hoperands, -⟩ := forall_nodes.1 hshaped
  have hcount : (parametersFrom next count ++ [body]).dropLast.length = count := by
    rw [List.dropLast_concat, parametersFrom, List.length_map, List.length_range']
  have hnumbers : Binder.numbers ⟨letFunction i next count body, rfl, progress.next⟩ =
      List.range' progress.next count :=
    congrArg (List.range' progress.next) hcount
  rw [letFunction, Lexical.expr, if_neg (by simp)] at hrun
  obtain ⟨first, progress₁, htake, hrun⟩ := fallible_bind_ok hrun
  cases htake
  obtain ⟨B, progress₂, hbody, hrun⟩ := fallible_bind_ok hrun
  cases hrun
  obtain ⟨e, hlast, htraces, hdraws⟩ :=
    traces_of_lexicalLast context _ _ hoperands _ _ _ hbody
  rw [letFunction, List.getLast?_concat] at hlast
  cases hlast
  refine ⟨B, ?_, htraces, ?_⟩
  · rw [← hnumbers]
    rfl
  · rw [← hcount]
    exact hdraws.1

theorem Binds.eq_add {binder : Binder} {count next k number : Nat}
    (hids : binder.function.parameters.map Expr.id = List.range' next count)
    (hk : k < count) (h : Binds (binder :: binders) (next + k) number) :
    number = binder.first + k := by
  have hlength : binder.function.parameters.length = count := by
    have hmapped := congrArg List.length hids
    rwa [List.length_map, List.length_range'] at hmapped
  cases h with
  | nearest _ hposition =>
      have hidx : (List.range' next count).idxOf (next + k) = k := by
        have hlt : k < (List.range' next count).length := by
          rwa [List.length_range']
        have hget : (List.range' next count).get ⟨k, hlt⟩ = next + k := by simp
        have hnodup : (List.range' next count).Nodup := List.nodup_range'
        rw [← hget, List.get_eq_getElem, hnodup.idxOf_getElem]
      rw [hids, hidx, Binder.numbers, hlength, List.getElem?_range' hk,
        Nat.one_mul] at hposition
      exact (Option.some.inj hposition).symm
  | outer hnot _ =>
      refine absurd ((binder.introduces_iff _).2 ?_) hnot
      rw [hids, List.mem_range'_1]
      exact ⟨Nat.le_add_right _ _, Nat.add_lt_add_left hk _⟩

theorem ofNat_injOn {a b : Nat} (ha : a ≤ 2 ^ 53) (hb : b ≤ 2 ^ 53)
    (h : Datum.ofNat a = Datum.ofNat b) : a = b := by
  have hwords := congrArg Datum.asWord? h
  rw [Datum.asWord?_ofNat ha, Datum.asWord?_ofNat hb] at hwords
  exact Option.some.inj hwords

/-- What a local binding compiles to: a call of a function with as many numbers
as there are values, with the body and with the values. -/
structure CallsWith (context : CompileContext) (scope : Nat)
    (binders : List Binder) (next : NodeId) (values : List Expr) (body : Expr)
    (s s' : CompileState) (ids : List Nat) (B : Term) (args : List Term) : Prop where
  length_eq : ids.length = values.length
  /-- The numbers are different on the wire, from each other and from all others
  that are listed below and around. -/
  nodup : (ids.map Datum.ofNat ++ (B.listed ++ Term.argsListed args)).Nodup
  fresh : ∀ id ∈ ids, Datum.ofNat id ∉ bound binders
  /-- The values are compiled in the same scope as the call. -/
  values_compiled : ∃ s₁, Encloses s₁ scope binders ∧
    Compile.exprs context scope values s₁ = (.ok args, s')
  values_scoped : ∀ arg ∈ args, arg.Scoped (bound binders)
  /-- Wherever the body has one of the parameters, the term has its number. -/
  renders : Renders context
    (fun p number => ∀ k, k < values.length → p = next + k → ids[k]? = some number)
    body B

theorem Draws.nodup {next next' : Nat} {listed : List Datum}
    (h : Draws next listed next') (hfew : next' - 1 < 2 ^ 53) : listed.Nodup := by
  obtain ⟨-, ids, rfl, hids, hbetween⟩ := h
  refine List.Nodup.map_on (fun a ha b hb => ofNat_injOn ?_ ?_) (hids.imp Nat.ne_of_lt)
  · have hlt := (hbetween a ha).2
    omega
  · have hlt := (hbetween b hb).2
    omega

theorem Term.Scoped.call {within ids : List Datum} {B : Term} {args : List Term}
    (h : (Term.ofArgs .funcall
      (.ofArgs .func [.literal (.array ids), B] :: args)).Scoped within) :
    ∀ arg ∈ args, arg.Scoped within := by
  cases h with
  | other _ _ hargs _ => exact (List.forall_mem_cons.1 hargs).2

theorem Encloses.letNode (h : Encloses s scope binders) {i next : NodeId}
    {values : List Expr} {body : Expr}
    (hsound : (letNode i next values body).Sound)
    (hfree : ∀ f ∈ body.nodes, ∀ p, f.Introduces p →
      p < next ∨ next + values.length ≤ p)
    {t : Term}
    (hrun : Compile.expr context scope (letNode i next values body) s =
      (.ok t, s'))
    (hfew : s'.scopes.next - 1 < 2 ^ 53) :
    ∃ ids B args, t = .ofArgs .funcall
        (.ofArgs .func [.literal (.array (ids.map .ofNat)), B] :: args) ∧
      CallsWith context scope binders next values body s s' ids B args := by
  have hshaped := hsound.shaped
  obtain ⟨hlexical, hdraws, -⟩ := h.compile hshaped hrun
  obtain ⟨htraces, -⟩ := traces_of_lexical context binders _ hshaped _ _ _ hlexical
  have hscoped := htraces.scoped hshaped
  obtain ⟨-, hoperands, -⟩ := forall_nodes.1 hshaped
  simp only [Expr.letNode, operandNodes, List.forall_mem_append] at hoperands
  obtain ⟨hfunction, hvalues⟩ := hoperands
  obtain ⟨F, args, s₁, rfl, hF, hargs⟩ := Compile.letNode_ok hrun
  obtain ⟨hlexicalF, -, hencloses⟩ := h.compile hfunction hF
  obtain ⟨B, rfl, htracesB, hle⟩ := Lexical.letFunction_ok hfunction hlexicalF
  have hids : (letFunction i next values.length body).parameters.map Expr.id =
      List.range' next values.length := by
    rw [letFunction, parameters, List.dropLast_concat, parametersFrom_ids]
  refine ⟨_, B, args, rfl, List.length_range', ?_, ?_, ⟨s₁, hencloses, hargs⟩,
    hscoped.call, ?_⟩
  · have hnodup := hdraws.nodup hfew
    rwa [Term.listed_ofArgs (by decide), Term.argsListed, Term.listed_function,
      List.append_assoc] at hnodup
  · intro id hid hbound
    obtain ⟨binder, hbinder, hnumber⟩ := List.mem_flatMap.1 hbound
    obtain ⟨number, hnumber, heq⟩ := List.mem_map.1 hnumber
    have hdrawn := h.drawn binder hbinder number hnumber
    have hlast : s₁.scopes.next ≤ s'.scopes.next := hencloses.next_le hvalues hargs
    rw [List.mem_range'_1] at hid
    simp only [CompileState.progress] at hid hle
    have hsame := ofNat_injOn (by omega) (by omega) heq
    omega
  -- A function in the body takes none of the parameters, and the binder itself
  -- gives each of them the number at its place.
  · refine htracesB.renders (fun f hf p hp number k hk heq => ?_)
      fun p number hbinds k hk heq => ?_
    · subst heq
      rcases hfree f hf _ hp with hlt | hge
      · exact absurd hlt (Nat.not_lt.2 (Nat.le_add_right _ _))
      · exact absurd hge (Nat.not_le.2 (Nat.add_lt_add_left hk _))
    · subst heq
      rw [hbinds.eq_add hids hk, List.getElem?_range' hk, Nat.one_mul]

end

/-! ## Hygiene -/

/-- A point to which a program can come that knows some expressions: these and
all that is in the store were built before. -/
def Reached (known : Set Expr) (next : NodeId) (kept : List Expr) : Prop :=
  ∃ built, Valid next built ∧ known ⊆ built ∧ {e | e ∈ kept} ⊆ built

section

variable {known : Set Expr} {next : NodeId} {kept : List Expr}
  {bindings : List (String × Expr)} {body : LetScope → Caller Expr}

/-- What a body builds has no function that takes the parameters of the local
binding: such a function was there before, or is built meanwhile. -/
theorem Reached.free_of_letIn (hreached : Reached known next kept)
    (hbody : ∀ scope : LetScope, Program
      (known ∪ {x | ∃ binding ∈ scope.bindings, binding.2 = x}) (body scope))
    {b : Expr} {i : NodeId} {kept' : List Expr}
    (hrun : body (.fresh (bindings.map Prod.fst) next) (next + bindings.length)
      kept = ((.ok b, i), kept')) :
    ∀ f ∈ b.nodes, ∀ p, f.Introduces p →
      p < next ∨ next + bindings.length ≤ p := by
  obtain ⟨built, hvalid, hknown, hkept⟩ := hreached
  have hparameters := Grows.parameters hvalid bindings.length
  have hhandles : known ∪ {x | ∃ binding ∈
        (LetScope.fresh (bindings.map Prod.fst) next).bindings, binding.2 = x} ⊆
      built ∪ several (parametersFrom next bindings.length) := by
    refine Set.union_subset_union hknown ?_
    rintro x ⟨binding, hbinding, rfl⟩
    have hmem := (List.of_mem_zip hbinding).2
    rwa [List.length_map] at hmem
  obtain ⟨built₁, hgrows, -, hgives, -⟩ := (hbody _).keeps _ _ kept hparameters.valid
    hhandles (hkept.trans Set.subset_union_left)
  rw [hrun] at hgrows hgives
  intro f hf p hp
  have hbuilt : f ∈ built₁ := hgrows.valid.nodes_subset b (hgives b rfl rfl) f hf
  -- The function is older than the parameters, is one of them, or is newer.
  rcases hgrows.fresh f hbuilt with (hold | hparameter) | hnew
  · exact .inl (hvalid.introduces_lt hold hp)
  · rw [(mem_parametersFrom hparameter).1] at hp
    cases hp.1
  · exact .inr (hnew p hp)

theorem Reached.sound_of_letIn (hreached : Reached known next kept)
    (hbindings : ∀ binding ∈ bindings, binding.2 ∈ known)
    (hbody : ∀ scope : LetScope, Program
      (known ∪ {x | ∃ binding ∈ scope.bindings, binding.2 = x}) (body scope))
    {e : Expr} {i : NodeId} {kept' : List Expr}
    (hrun : letIn bindings body next kept = ((.ok e, i), kept')) : e.Sound := by
  obtain ⟨built, hvalid, hknown, hkept⟩ := hreached
  obtain ⟨built', hgrows, -, hgives, -⟩ :=
    (Program.letIn hbindings hbody).keeps next built kept hvalid hknown hkept
  rw [hrun] at hgrows hgives
  exact hgrows.valid.sound (hgives e rfl rfl)

/-- A body that asks for names cannot tell them from others that are told apart
in the same way. -/
theorem letIn_rename {used : Set String}
    {make : (String → Caller Expr) → Caller Expr} {rename : String → String}
    (hmake : ∀ v v', (∀ name ∈ used, v name = v' name) → make v = make v')
    (hnodup : (bindings.map Prod.fst).Nodup)
    (hinjective : Set.InjOn rename (used ∪ {name | name ∈ bindings.map Prod.fst}))
    (hfixed : ∀ name ∈ used, name ∉ bindings.map Prod.fst → rename name = name) :
    letIn (bindings.map fun binding => (rename binding.1, binding.2))
        (fun scope => make fun name => scope.variable (rename name)) =
      letIn bindings (fun scope => make scope.variable) := by
  have hnames : (bindings.map fun binding => (rename binding.1, binding.2)).map
      Prod.fst = (bindings.map Prod.fst).map rename := by
    rw [List.map_map, List.map_map]
    rfl
  have hvalues : (bindings.map fun binding => (rename binding.1, binding.2)).map
      Prod.snd = bindings.map Prod.snd := by
    rw [List.map_map]
    rfl
  have hnodup' : ((bindings.map Prod.fst).map rename).Nodup :=
    List.Nodup.map_on
      (fun a ha b hb heq => hinjective (.inr ha) (.inr hb) heq) hnodup
  funext next kept
  have hbody : (make fun name => (LetScope.fresh ((bindings.map Prod.fst).map rename)
        next).variable (rename name)) =
      make (LetScope.fresh (bindings.map Prod.fst) next).variable := by
    refine hmake _ _ fun name hused => ?_
    by_cases hname : name ∈ bindings.map Prod.fst
    · obtain ⟨k, hk⟩ := List.mem_iff_getElem?.1 hname
      have hk' : ((bindings.map Prod.fst).map rename)[k]? = some (rename name) := by
        rw [List.getElem?_map, hk]
        rfl
      rw [LetScope.variable_fresh hnodup hk, LetScope.variable_fresh hnodup' hk']
    · have hname' : rename name ∉ (bindings.map Prod.fst).map rename := by
        intro hmem
        obtain ⟨other, hother, heq⟩ := List.mem_map.1 hmem
        exact hname (hinjective (.inr hother) (.inl hused) heq ▸ hother)
      rw [LetScope.variable_unknown hname, LetScope.variable_unknown hname',
        hfixed name hused hname]
  rw [letIn_apply (by rwa [hnames]), letIn_apply hnodup, hnames, hvalues, hbody,
    List.length_map]

/-- A local binding fails just if a name is repeated or its body fails.  The body
gets the parameter at the place of a name, and nothing for other names.  Wherever
the result is compiled, it becomes a call with the values, compiled outside, of a
function that lists new numbers, and each parameter becomes the number at its
place.  Other names that are told apart in the same way lead to the same. -/
theorem letIn_hygienic (hreached : Reached known next kept)
    (hbindings : ∀ binding ∈ bindings, binding.2 ∈ known)
    (hbody : ∀ scope : LetScope, Program
      (known ∪ {x | ∃ binding ∈ scope.bindings, binding.2 = x}) (body scope)) :
    (¬ (bindings.map Prod.fst).Nodup →
      ∃ name before after, bindings.map Prod.fst = before ++ name :: after ∧
        name ∈ before ∧
        letIn bindings body = Build.fail (.duplicateBinding name)) ∧
    ((bindings.map Prod.fst).Nodup →
      (∀ k name, (bindings.map Prod.fst)[k]? = some name →
        (LetScope.fresh (bindings.map Prod.fst) next).variable name =
          (pure (parameterNode (next + k)) : Caller Expr)) ∧
      (∀ name ∉ bindings.map Prod.fst,
        (LetScope.fresh (bindings.map Prod.fst) next).variable name =
          (Build.fail (.unknownBinding name) : Caller Expr)) ∧
      (∀ cause i kept', body (.fresh (bindings.map Prod.fst) next)
          (next + bindings.length) kept = ((.error cause, i), kept') →
        letIn bindings body next kept = ((.error cause, i), kept')) ∧
      ∀ b i kept', body (.fresh (bindings.map Prod.fst) next)
          (next + bindings.length) kept = ((.ok b, i), kept') →
        letIn bindings body next kept =
          ((.ok (letNode i next (bindings.map Prod.snd) b), i + 2), kept') ∧
        ∀ context scope binders s s' t, Encloses s scope binders →
          Compile.expr context scope (letNode i next (bindings.map Prod.snd) b) s =
            (.ok t, s') →
          s'.scopes.next - 1 < 2 ^ 53 →
          ∃ ids B args, t = .ofArgs .funcall
              (.ofArgs .func [.literal (.array (ids.map .ofNat)), B] :: args) ∧
            CallsWith context scope binders next (bindings.map Prod.snd) b s s' ids
              B args) ∧
    ∀ (used : Set String) (make : (String → Caller Expr) → Caller Expr)
      (rename : String → String),
      (∀ v v' : String → Caller Expr, (∀ name ∈ used, v name = v' name) →
        make v = make v') →
      (bindings.map Prod.fst).Nodup →
      Set.InjOn rename (used ∪ {name | name ∈ bindings.map Prod.fst}) →
      (∀ name ∈ used, name ∉ bindings.map Prod.fst → rename name = name) →
      letIn (bindings.map fun binding => (rename binding.1, binding.2))
          (fun scope => make fun name => scope.variable (rename name)) =
        letIn bindings (fun scope => make scope.variable) := by
  refine ⟨fun hrepeated => letIn_repeated hrepeated body, fun hnodup => ?_,
    fun used make rename hmake hnodup hinjective hfixed =>
      letIn_rename hmake hnodup hinjective hfixed⟩
  refine ⟨fun k name => LetScope.variable_fresh hnodup,
    fun name => LetScope.variable_unknown, fun cause i kept' hrun => ?_,
    fun b i kept' hrun => ?_⟩
  · rw [letIn_apply hnodup, hrun]
  · have hlet : letIn bindings body next kept =
        ((.ok (letNode i next (bindings.map Prod.snd) b), i + 2), kept') := by
      rw [letIn_apply hnodup, hrun]
    refine ⟨hlet, fun context scope binders s s' t hencloses hcompile hfew => ?_⟩
    have hfree := hreached.free_of_letIn hbody hrun
    refine hencloses.letNode (hreached.sound_of_letIn hbindings hbody hlet) ?_
      hcompile hfew
    rwa [List.length_map]

end

/-! ## One name, bound twice -/

/-- A null that is bound to two names. -/
def boundNulls : List (String × Expr) :=
  [("a", ⟨0, .literal .null, [], []⟩), ("b", ⟨0, .literal .null, [], []⟩)]

/-- What the first name stands for is bound to the same name once more, and both
are compared inside. -/
def compareNested (scope : LetScope) : Caller Expr :=
  scope.variable "a" >>= fun outer =>
    letIn [("a", outer)] fun inner =>
      inner.variable "a" >>= fun a => Expr.eq a outer

def nestedLet : Expr :=
  letNode 5 3 [parameterNode 1]
    ⟨4, .operator .eq, [parameterNode 3, parameterNode 1], []⟩

theorem compareNested_program (scope : LetScope) :
    Program ({x | ∃ binding ∈ boundNulls, binding.2 = x} ∪
      {x | ∃ binding ∈ scope.bindings, binding.2 = x}) (compareNested scope) := by
  refine .bind (.scopeVariable fun binding hbinding => .inr ⟨binding, hbinding, rfl⟩)
    fun outer => .letIn ?_ fun inner => ?_
  · rintro binding hbinding
    rw [List.mem_singleton.1 hbinding]
    exact Set.mem_insert _ _
  · refine .bind (.scopeVariable fun binding hbinding =>
      .inr ⟨binding, hbinding, rfl⟩) fun a => .eq (Set.mem_insert _ _) ?_
    exact Set.mem_insert_of_mem _ (.inl (Set.mem_insert _ _))

theorem reached_boundNulls :
    Reached {x | ∃ binding ∈ boundNulls, binding.2 = x} 1 [] := by
  have hnull : Valid 1 (insert ⟨0, .literal .null, [], []⟩ ∅) :=
    valid_empty.insert rfl (.literal (by simp [Datum.Ordered])) (by simp) (by simp)
      (by simp)
  refine ⟨_, hnull, ?_, by simp⟩
  rintro x ⟨binding, hbinding, rfl⟩
  simp only [boundNulls, List.mem_cons, List.not_mem_nil, or_false] at hbinding
  rcases hbinding with rfl | rfl <;> exact Set.mem_insert _ _

theorem letIn_boundNulls :
    letIn boundNulls compareNested 1 [] =
        ((.ok (letNode 7 1 (boundNulls.map Prod.snd) nestedLet), 9), []) ∧
      ∃ t s', Compile.expr {} Scopes.root
          (letNode 7 1 (boundNulls.map Prod.snd) nestedLet) ⟨.start, []⟩ =
            (.ok t, s') ∧
        ∃ ids B args, t = .ofArgs .funcall
            (.ofArgs .func [.literal (.array (ids.map .ofNat)), B] :: args) ∧
          CallsWith {} Scopes.root [] 1 (boundNulls.map Prod.snd) nestedLet
            ⟨.start, []⟩ s' ids B args := by
  obtain ⟨-, hdistinct, -⟩ := letIn_hygienic reached_boundNulls
    (fun binding hbinding => ⟨binding, hbinding, rfl⟩) compareNested_program
  obtain ⟨-, -, -, hbuilds⟩ := hdistinct (by decide)
  obtain ⟨hlet, hcompile⟩ := hbuilds nestedLet 7 [] rfl
  exact ⟨hlet, _, _, rfl, hcompile _ _ _ _ _ _ encloses_start rfl (by decide)⟩

end DocumentQuery
