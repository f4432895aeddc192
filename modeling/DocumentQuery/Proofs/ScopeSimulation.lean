import DocumentQuery.Proofs.LexicalCompile

/-!
# Following scopes is lexical

A scope and the scopes around it say the same as a list of binders, and they go
on saying so while scopes are added behind them.  Hence a compilation that
follows scopes does what the one does that has the binders: it gives the same
result, draws the same numbers and warns of the same writes.
-/

open DocumentQuery.Expr

namespace DocumentQuery

/-! ## Running single steps -/

/-- A sequence of two steps that may fail and change a state. -/
theorem fallible_bind_apply {σ α β : Type} (p : ExceptT BuildFault (StateM σ) α)
    (rest : α → ExceptT BuildFault (StateM σ) β) (s : σ) :
    (p >>= rest) s =
      match p s with
      | (.ok a, s) => rest a s
      | (.error cause, s) => (.error cause, s) := by
  simp only [bind, ExceptT.bind, ExceptT.mk, ExceptT.bindCont, StateT.bind]
  rcases p s with ⟨_ | _, _⟩ <;> rfl

theorem fallible_bind_ok {σ α β : Type} {p : ExceptT BuildFault (StateM σ) α}
    {rest : α → ExceptT BuildFault (StateM σ) β} {s s' : σ} {b : β}
    (h : (p >>= rest) s = (.ok b, s')) :
    ∃ a s₁, p s = (.ok a, s₁) ∧ rest a s₁ = (.ok b, s') := by
  rw [fallible_bind_apply] at h
  rcases hp : p s with ⟨cause | a, s₁⟩
  · rw [hp] at h
    cases h
  · rw [hp] at h
    exact ⟨a, s₁, rfl, h⟩

/-! ## Scopes and binders -/

/-- The scope at a place and those around it bind what the binders bind. -/
inductive Represents (scopes : List Scope) : Nat → List Binder → Prop where
  | root :
      scopes[Scopes.root]? = some ⟨none, []⟩ → Represents scopes Scopes.root []
  | binder {parent scope : Nat} {binders : List Binder} {binder : Binder}
      {numbers : List (NodeId × Nat)} :
      Represents scopes parent binders →
      scopes[scope]? = some ⟨some parent, numbers⟩ →
      parent < scope → (∀ p, numbers.lookup p = binder.bindings.lookup p) →
      Represents scopes scope (binder :: binders)

theorem Represents.mono {scopes scopes' : List Scope} {scope : Nat}
    {binders : List Binder}
    (h : Represents scopes scope binders) (hgrown : scopes <+: scopes') :
    Represents scopes' scope binders := by
  obtain ⟨more, rfl⟩ := hgrown
  have hkeep : ∀ {place : Nat} {found : Scope}, scopes[place]? = some found →
      (scopes ++ more)[place]? = some found := by
    intro place found hfound
    obtain ⟨hlt, _⟩ := List.getElem?_eq_some_iff.1 hfound
    rw [List.getElem?_append_left hlt, hfound]
  induction h with
  | root hroot => exact .root (hkeep hroot)
  | binder _ hfound hparent hlookup ih =>
      exact .binder ih (hkeep hfound) hparent hlookup

theorem Represents.lt_length {scopes : List Scope} {scope : Nat}
    {binders : List Binder}
    (h : Represents scopes scope binders) : scope < scopes.length := by
  cases h with
  | root hroot => exact (List.getElem?_eq_some_iff.1 hroot).1
  | binder _ hfound _ _ => exact (List.getElem?_eq_some_iff.1 hfound).1

/-- Every step outwards goes to an earlier scope, so that the fuel is enough. -/
theorem Represents.resolveWithin {s : Scopes} {scope : Nat}
    {binders : List Binder}
    (h : Represents s.scopes scope binders) (p : NodeId) (fuel : Nat)
    (hfuel : scope < fuel) :
    s.resolveWithin p fuel scope = some (.ok (numberOf binders p)) := by
  induction h generalizing fuel with
  | root hroot =>
      obtain ⟨fuel, rfl⟩ :=
        Nat.exists_eq_succ_of_ne_zero (Nat.ne_zero_of_lt hfuel)
      simp [Scopes.resolveWithin, hroot, numberOf]
  | @binder parent scope binders binder numbers _ hfound hparent hlookup ih =>
      obtain ⟨fuel, rfl⟩ :=
        Nat.exists_eq_succ_of_ne_zero (Nat.ne_zero_of_lt hfuel)
      have houter := ih fuel (hparent.trans_le (Nat.lt_succ_iff.1 hfuel))
      rw [Scopes.resolveWithin, hfound]
      simp only [hlookup, numberOf, List.findSome?_cons]
      cases hnumber : binder.bindings.lookup p with
      | none => exact houter
      | some number => rfl

theorem Represents.resolve {s : Scopes} {scope : Nat} {binders : List Binder}
    (h : Represents s.scopes scope binders) (p : NodeId) :
    s.resolve scope p = .ok (numberOf binders p) := by
  rw [Scopes.resolve, h.resolveWithin p _ (h.lt_length.trans (Nat.lt_succ_self _))]
  rfl

/-! ## Simulation -/

/-- What a compilation has in common with one that opens no scopes. -/
def CompileState.progress (s : CompileState) : Progress :=
  ⟨s.scopes.next, s.warnings⟩

/-- In every state whose scopes say what the binders say, the two steps have the
same result and make the same progress; scopes are only added. -/
def Simulates {α : Type} (scope : Nat) (binders : List Binder) (c : Compile α)
    (l : Lexical α) : Prop :=
  ∀ s : CompileState, Represents s.scopes.scopes scope binders →
    (c s).1 = (l s.progress).1 ∧ (c s).2.progress = (l s.progress).2 ∧
      s.scopes.scopes <+: (c s).2.scopes.scopes

variable {α β : Type} {scope : Nat} {binders : List Binder}

theorem Simulates.pure (a : α) :
    Simulates scope binders (pure a : Compile α) (pure a : Lexical α) :=
  fun _ _ => ⟨rfl, rfl, List.prefix_rfl⟩

theorem Simulates.throw (cause : BuildFault) :
    Simulates scope binders (throw cause : Compile α)
      (throw cause : Lexical α) :=
  fun _ _ => ⟨rfl, rfl, List.prefix_rfl⟩

theorem Simulates.bind {c : Compile α} {l : Lexical α} {rest : α → Compile β}
    {rest' : α → Lexical β} (h : Simulates scope binders c l)
    (hrest : ∀ a, Simulates scope binders (rest a) (rest' a)) :
    Simulates scope binders (c >>= rest) (l >>= rest') := by
  intro s hs
  obtain ⟨hresult, hprogress, hgrown⟩ := h s hs
  rw [fallible_bind_apply, fallible_bind_apply]
  rcases hc : c s with ⟨cause | a, s₁⟩
  · rw [hc] at hresult hprogress hgrown
    rcases hl : l s.progress with ⟨result, progress⟩
    rw [hl] at hresult hprogress
    simp only at hresult hprogress
    subst hresult hprogress
    exact ⟨rfl, rfl, hgrown⟩
  · rw [hc] at hresult hprogress hgrown
    rcases hl : l s.progress with ⟨result, progress⟩
    rw [hl] at hresult hprogress
    simp only at hresult hprogress
    subst hresult hprogress
    obtain ⟨hresult₁, hprogress₁, hgrown₁⟩ := hrest a s₁ (hs.mono hgrown)
    exact ⟨hresult₁, hprogress₁, hgrown.trans hgrown₁⟩

theorem Simulates.resolve (p : NodeId) :
    Simulates scope binders (Compile.resolveParameter scope p)
      (Lexical.resolve binders p) := by
  intro s hs
  have hfound : Compile.resolveParameter scope p s =
      (numberOf binders p).elim (.error .escapedVariable, s)
        fun number => (.ok number, s) := by
    have hresolve := hs.resolve p
    unfold Compile.resolveParameter
    rw [fallible_bind_apply]
    change (liftM (s.scopes.resolve scope p) >>= _ : Compile Nat) s = _
    rw [fallible_bind_apply, hresolve]
    cases numberOf binders p with
    | none => rfl
    | some number => rfl
  rw [hfound, Lexical.resolve]
  cases numberOf binders p with
  | none => exact ⟨rfl, rfl, List.prefix_rfl⟩
  | some number => exact ⟨rfl, rfl, List.prefix_rfl⟩

theorem Simulates.finish (context : CompileContext) (kind : TermKind)
    (operands : List Expr) (t : Term) :
    Simulates scope binders (Compile.finishOperator context kind operands t) (do
      Lexical.warn (Compile.refusals context kind operands)
      return Compile.finished context kind t) := by
  intro s hs
  rw [Compile.finishOperator_apply]
  exact ⟨rfl, rfl, List.prefix_rfl⟩

/-! ## Functions -/

theorem lookup_filter_ne {numbers : List (NodeId × Nat)} {p q : NodeId}
    (hne : q ≠ p) :
    (numbers.filter (·.1 ≠ p)).lookup q = numbers.lookup q := by
  induction numbers with
  | nil => rfl
  | cons first rest ih =>
      obtain ⟨r, number⟩ := first
      by_cases hr : r = p
      · subst hr
        have hq : (q == r) = false := beq_false_of_ne hne
        rw [List.filter_cons_of_neg (by simp), ih, List.lookup_cons, hq]
      · rw [List.filter_cons_of_pos (by simpa using hr), List.lookup_cons,
          List.lookup_cons, ih]

/-- A scope in which a parameter got a number. -/
def Scope.numbered (found : Scope) (p : NodeId) (number : Nat) : Scope :=
  { found with numbers := (p, number) :: found.numbers.filter (·.1 ≠ p) }

/-- The new number of a parameter hides its older ones and no other's. -/
theorem Scope.lookup_numbered (found : Scope) (p q : NodeId) (number : Nat) :
    (found.numbered p number).numbers.lookup q =
      if q = p then some number else found.numbers.lookup q := by
  rw [Scope.numbered, List.lookup_cons]
  by_cases hq : q = p
  · rw [if_pos hq, hq, beq_self_eq_true]
  · rw [if_neg hq, beq_false_of_ne hq]
    exact lookup_filter_ne hq

/-- The state in which a parameter got the next number in a scope. -/
def CompileState.bound (s : CompileState) (scope : Nat) (found : Scope)
    (p : NodeId) : CompileState :=
  ⟨⟨s.scopes.scopes.set scope (found.numbered p s.scopes.next), s.scopes.next + 1⟩,
    s.warnings⟩

/-- A parameter that has no number yet gets the next one. -/
theorem bindParameter_apply {s : CompileState} {scope : Nat} {found : Scope}
    {p : NodeId} (hfound : s.scopes.scopes[scope]? = some found)
    (hfree : found.numbers.lookup p = none) :
    Compile.bindParameter scope p s =
      (.ok s.scopes.next, s.bound scope found p) := by
  have hbind : s.scopes.bind scope p =
      (.ok s.scopes.next, (s.bound scope found p).scopes) := by
    unfold Scopes.bind
    rw [hfound]
    simp only [hfree, Option.isSome_none, Bool.false_eq_true, if_false]
    rfl
  unfold Compile.bindParameter
  rw [fallible_bind_apply]
  change (set { s with scopes := (s.scopes.bind scope p).2 } >>= fun _ =>
    liftM (s.scopes.bind scope p).1 : Compile Nat) s = _
  rw [hbind]
  rfl

/-- Binding distinct parameters in a scope that binds none of them gives them
the next numbers. -/
theorem bindParameters_apply {scope : Nat} {parameters : List Expr}
    (hnodup : (parameters.map Expr.id).Nodup) (s : CompileState) {found : Scope}
    (hfound : s.scopes.scopes[scope]? = some found)
    (hfree : ∀ p ∈ parameters.map Expr.id, found.numbers.lookup p = none) :
    ∃ numbers, (parameters.mapM fun x => Compile.bindParameter scope x.id) s =
        (.ok (List.range' s.scopes.next parameters.length),
          ⟨⟨s.scopes.scopes.set scope { found with numbers := numbers },
            s.scopes.next + parameters.length⟩, s.warnings⟩) ∧
      ∀ q, numbers.lookup q =
        (((parameters.map Expr.id).zip
          (List.range' s.scopes.next parameters.length)).lookup q).or
          (found.numbers.lookup q) := by
  induction parameters generalizing s found with
  | nil =>
      refine ⟨found.numbers, ?_, fun q => rfl⟩
      rw [List.mapM_nil]
      obtain ⟨hlt, rfl⟩ := List.getElem?_eq_some_iff.1 hfound
      rw [List.set_getElem_self]
      rfl
  | cons x rest ih =>
      obtain ⟨hx, hrest⟩ := List.nodup_cons.1 hnodup
      obtain ⟨hlt, _⟩ := List.getElem?_eq_some_iff.1 hfound
      have hfirst := bindParameter_apply hfound (hfree x.id List.mem_cons_self)
      have hfound₁ : (s.bound scope found x.id).scopes.scopes[scope]? =
          some (found.numbered x.id s.scopes.next) :=
        List.getElem?_set_self hlt
      have hfree₁ : ∀ p ∈ rest.map Expr.id,
          (found.numbered x.id s.scopes.next).numbers.lookup p = none := by
        intro p hp
        have hne : p ≠ x.id := by
          rintro rfl
          exact hx hp
        rw [Scope.lookup_numbered, if_neg hne]
        exact hfree p (List.mem_cons_of_mem _ hp)
      obtain ⟨numbers, hrun, hlookup⟩ := ih hrest _ hfound₁ hfree₁
      refine ⟨numbers, ?_, ?_⟩
      · rw [List.mapM_cons, fallible_bind_apply, hfirst]
        simp only
        rw [fallible_bind_apply, hrun, List.length_cons, List.range'_succ]
        simp only [CompileState.bound, Scope.numbered, List.set_set, Nat.add_assoc,
          Nat.add_comm 1]
        rfl
      · intro q
        rw [hlookup q, Scope.lookup_numbered, List.length_cons, List.range'_succ,
          List.map_cons, List.zip_cons_cons, List.lookup_cons]
        by_cases hq : q = x.id
        · rw [if_pos hq, hq, beq_self_eq_true, lookup_zip_eq_none _ hx]
          rfl
        · rw [if_neg hq, beq_false_of_ne hq]
          rfl

/-- Opening a scope and binding the parameters of a function in it leads to a
scope that represents one binder more. -/
theorem Represents.function {s : CompileState}
    (hs : Represents s.scopes.scopes scope binders) {f : Expr}
    (hf : f.kind = .function) (hnodup : (f.parameters.map Expr.id).Nodup) :
    ∃ s₁ s₂, Compile.openScope scope s = (.ok s.scopes.scopes.length, s₁) ∧
      (f.parameters.mapM fun x =>
          Compile.bindParameter s.scopes.scopes.length x.id) s₁ =
        (.ok (List.range' s.scopes.next f.parameters.length), s₂) ∧
      Represents s₂.scopes.scopes s.scopes.scopes.length
        (⟨f, hf, s.scopes.next⟩ :: binders) ∧
      s.scopes.scopes <+: s₂.scopes.scopes ∧
      s₂.progress =
        ⟨s.scopes.next + f.parameters.length, s.warnings⟩ := by
  let s₁ : CompileState := { s with scopes := (s.scopes.child scope).2 }
  have hopen : Compile.openScope scope s = (.ok s.scopes.scopes.length, s₁) :=
    rfl
  have hfound :
      s₁.scopes.scopes[s.scopes.scopes.length]? = some ⟨some scope, []⟩ :=
    List.getElem?_concat_length
  obtain ⟨numbers, hbind, hlookup⟩ :=
    bindParameters_apply hnodup s₁ hfound (fun _ _ => rfl)
  let s₂ : CompileState :=
    ⟨⟨s.scopes.scopes ++ [⟨some scope, numbers⟩],
      s.scopes.next + f.parameters.length⟩, s.warnings⟩
  have hset :
    s₁.scopes.scopes.set s.scopes.scopes.length ⟨some scope, numbers⟩ =
      s₂.scopes.scopes := by
    simp [s₁, s₂, Scopes.child, List.set_append_right]
  have hgrown : s.scopes.scopes <+: s₂.scopes.scopes := List.prefix_append _ _
  simp only [hset] at hbind
  refine ⟨s₁, s₂, hopen, hbind, ?_, hgrown, rfl⟩
  refine .binder (hs.mono hgrown) List.getElem?_concat_length hs.lt_length ?_
  intro q
  rw [hlookup q]
  exact Option.or_none

theorem Simulates.function {f : Expr} (hf : f.kind = .function)
    (hnodup : (f.parameters.map Expr.id).Nodup)
    {rest : Nat → List Nat → Compile α} {rest' : Nat → Lexical α}
    (hrest : ∀ inner first, Simulates inner (⟨f, hf, first⟩ :: binders)
      (rest inner (List.range' first f.parameters.length)) (rest' first)) :
    Simulates scope binders
      (do
        let inner ← Compile.openScope scope
        let numbers ← f.parameters.mapM fun x =>
          Compile.bindParameter inner x.id
        rest inner numbers)
      (do
        let first ← Lexical.take f.parameters.length
        rest' first) := by
  intro s hs
  obtain ⟨s₁, s₂, hopen, hbind, hinner, hgrown, hprogress⟩ := hs.function hf hnodup
  obtain ⟨hresult, hprogress', hgrown'⟩ := hrest _ _ s₂ hinner
  rw [fallible_bind_apply, hopen]
  simp only
  rw [fallible_bind_apply, hbind]
  rw [hprogress] at hresult hprogress'
  exact ⟨hresult, hprogress', hgrown.trans hgrown'⟩

/-! ## Expressions -/

mutual

theorem simulates_expr (context : CompileContext) (scope : Nat)
    (binders : List Binder) :
    ∀ e : Expr, (∀ n ∈ e.nodes, n.Shaped) →
      Simulates scope binders (Compile.expr context scope e)
        (Lexical.expr context binders e)
  | ⟨i, kind, operands, options⟩, hshaped => by
    obtain ⟨hself, hoperands, hoptions⟩ := forall_nodes.1 hshaped
    have hargs := simulates_exprs context scope binders operands hoperands
    cases kind with
    | literal value =>
        rw [Compile.expr, Lexical.expr]
        by_cases hfinite : value.isFinite
        · simp only [hfinite, if_true]
          exact .pure _
        · simp only [hfinite, Bool.false_eq_true, if_false]
          exact .throw _
    | database =>
        rw [Compile.expr, Lexical.expr]
        exact hargs.bind fun _ => .pure _
    | table =>
        rw [Compile.expr, Lexical.expr]
        exact hargs.bind fun _ => .pure _
    | parameter =>
        rw [Compile.expr, Lexical.expr]
        exact (Simulates.resolve i).bind fun _ => .pure _
    | function =>
        rw [Compile.expr, Lexical.expr]
        by_cases hempty : operands.isEmpty
        · simp only [hempty, if_true]
          exact .throw _
        · simp only [hempty, Bool.false_eq_true, if_false]
          refine Simulates.function rfl (hself.nodup_parameters rfl)
            fun inner first => ?_
          exact (simulates_lastExpr context inner _ operands hoperands).bind
            fun _ => .pure _
    | operator kind =>
        rw [Compile.expr, Lexical.expr]
        by_cases harity : kind.arity.accepts operands.length
        · simp only [harity, if_true]
          refine hargs.bind fun args => ?_
          refine
            (simulates_exprOptions context scope binders options hoptions).bind ?_
          intro options
          exact .finish context kind operands _
        · simp only [harity, Bool.false_eq_true, if_false]
          exact .throw _

theorem simulates_exprs (context : CompileContext) (scope : Nat)
    (binders : List Binder) :
    ∀ es : List Expr, (∀ n ∈ operandNodes es, n.Shaped) →
      Simulates scope binders (Compile.exprs context scope es)
        (Lexical.exprs context binders es)
  | [], _ => .pure _
  | e :: rest, hshaped => by
    rw [operandNodes, List.forall_mem_append] at hshaped
    rw [Compile.exprs, Lexical.exprs]
    refine (simulates_expr context scope binders e hshaped.1).bind ?_
    intro term
    exact (simulates_exprs context scope binders rest hshaped.2).bind
      fun _ => .pure _

theorem simulates_lastExpr (context : CompileContext) (scope : Nat)
    (binders : List Binder) :
    ∀ es : List Expr, (∀ n ∈ operandNodes es, n.Shaped) →
      Simulates scope binders (Compile.lastExpr context scope es)
        (Lexical.lastExpr context binders es)
  | [], _ => .throw _
  | [e], hshaped => by
    rw [operandNodes, List.forall_mem_append] at hshaped
    exact simulates_expr context scope binders e hshaped.1
  | _ :: e :: rest, hshaped => by
    rw [operandNodes, List.forall_mem_append] at hshaped
    exact simulates_lastExpr context scope binders (e :: rest) hshaped.2

theorem simulates_exprOptions (context : CompileContext) (scope : Nat)
    (binders : List Binder) :
    ∀ es : List (String × Expr), (∀ n ∈ optionNodes es, n.Shaped) →
      Simulates scope binders (Compile.exprOptions context scope es)
        (Lexical.exprOptions context binders es)
  | [], _ => .pure _
  | (name, e) :: rest, hshaped => by
    rw [optionNodes, List.forall_mem_append] at hshaped
    rw [Compile.exprOptions, Lexical.exprOptions]
    refine (simulates_expr context scope binders e hshaped.1).bind ?_
    intro term
    exact (simulates_exprOptions context scope binders rest hshaped.2).bind
      fun _ => .pure _

end

/-- A whole compilation, and the number that would have come next. -/
theorem Expr.compile_run_of_shaped {e : Expr} (hshaped : ∀ n ∈ e.nodes, n.Shaped)
    (context : CompileContext) :
    (Compile.expr context Scopes.root e ⟨.start, []⟩).1 =
        (Lexical.expr context [] e ⟨1, []⟩).1 ∧
      (Compile.expr context Scopes.root e ⟨.start, []⟩).2.progress =
        (Lexical.expr context [] e ⟨1, []⟩).2 := by
  have hstart : Represents Scopes.start.scopes Scopes.root [] := .root rfl
  obtain ⟨hresult, hprogress, _⟩ :=
    simulates_expr context Scopes.root [] e hshaped ⟨.start, []⟩ hstart
  exact ⟨hresult, hprogress⟩

theorem Expr.compileWithWarnings_of_shaped {e : Expr}
    (hshaped : ∀ n ∈ e.nodes, n.Shaped) (context : CompileContext) :
    e.compileWithWarnings context =
      ((Lexical.expr context [] e ⟨1, []⟩).1,
        (Lexical.expr context [] e ⟨1, []⟩).2.warnings) := by
  obtain ⟨hresult, hprogress⟩ := compile_run_of_shaped hshaped context
  rw [← hresult, ← hprogress]
  rfl

theorem Expr.Sound.compile_run {e : Expr} (he : e.Sound)
    (context : CompileContext) :
    (Compile.expr context Scopes.root e ⟨.start, []⟩).1 =
        (Lexical.expr context [] e ⟨1, []⟩).1 ∧
      (Compile.expr context Scopes.root e ⟨.start, []⟩).2.progress =
        (Lexical.expr context [] e ⟨1, []⟩).2 :=
  compile_run_of_shaped he.shaped context

theorem Expr.Sound.compile_eq {e : Expr} (he : e.Sound)
    (context : CompileContext) :
    e.compile context = (Lexical.expr context [] e ⟨1, []⟩).1 := by
  rw [Expr.compile, compileWithWarnings_of_shaped he.shaped]

end DocumentQuery
