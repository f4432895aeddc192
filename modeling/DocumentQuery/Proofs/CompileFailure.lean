import DocumentQuery.Proofs.ProgramSoundness
import DocumentQuery.Proofs.ScopeSimulation

/-!
# When compiling fails

A sound expression has only two ways to fail: a constant that holds a number
without a finite value, and a parameter outside of every function that
introduced it.  The paths to the nodes of an expression are listed in the order
in which they are compiled, and the first of them that leads to such a node
decides.
-/

open DocumentQuery.Expr

namespace DocumentQuery

/-! ## Numbers of a datum -/

namespace Datum

mutual

/-- The numbers in a datum, at any depth. -/
def numbers : Datum → List Number
  | .number value => [value]
  | .array items => itemsNumbers items
  | .object fields => fieldsNumbers fields
  | _ => []

def itemsNumbers : List Datum → List Number
  | [] => []
  | item :: rest => numbers item ++ itemsNumbers rest

def fieldsNumbers : List (String × Datum) → List Number
  | [] => []
  | (_, value) :: rest => numbers value ++ fieldsNumbers rest

end

mutual

theorem isFinite_iff : ∀ d : Datum, d.isFinite ↔ ∀ n ∈ d.numbers, n.isFinite
  | .null | .bool _ | .string _ => by simp [isFinite, numbers]
  | .number value => by simp [isFinite, numbers]
  | .array items => by
    rw [isFinite, numbers]
    exact itemsFinite_iff items
  | .object fields => by
    rw [isFinite, numbers]
    exact fieldsFinite_iff fields

theorem itemsFinite_iff :
    ∀ items : List Datum, itemsFinite items ↔
      ∀ n ∈ itemsNumbers items, n.isFinite
  | [] => by simp [itemsFinite, itemsNumbers]
  | item :: rest => by
    rw [itemsFinite, itemsNumbers, Bool.and_eq_true, List.forall_mem_append,
      isFinite_iff item, itemsFinite_iff rest]

theorem fieldsFinite_iff :
    ∀ fields : List (String × Datum), fieldsFinite fields ↔
      ∀ n ∈ fieldsNumbers fields, n.isFinite
  | [] => by simp [fieldsFinite, fieldsNumbers]
  | (_, value) :: rest => by
    rw [fieldsFinite, fieldsNumbers, Bool.and_eq_true, List.forall_mem_append,
      isFinite_iff value, fieldsFinite_iff rest]

end

end Datum

/-! ## Occurrences of nodes -/

/-- The end of a path from the top of an expression: a node, and the functions
that the path leads through, innermost first. -/
structure Occurrence where
  node : Expr
  enclosing : List Expr

mutual

/-- The occurrences of nodes in an expression, each before those below it, in
the order in which they are compiled.  Paths go through operands and options,
but not through the parameters of functions. -/
def Expr.occurrences (enclosing : List Expr) : Expr → List Occurrence
  | ⟨i, kind, operands, options⟩ =>
    ⟨⟨i, kind, operands, options⟩, enclosing⟩ ::
      match kind with
      | .function =>
        bodyOccurrences (⟨i, .function, operands, options⟩ :: enclosing)
          operands ++
          optionOccurrences (⟨i, .function, operands, options⟩ :: enclosing)
            options
      | _ =>
        operandOccurrences enclosing operands ++
          optionOccurrences enclosing options
termination_by structural e => e

def Expr.operandOccurrences (enclosing : List Expr) :
    List Expr → List Occurrence
  | [] => []
  | e :: rest => e.occurrences enclosing ++ operandOccurrences enclosing rest
termination_by structural es => es

/-- The occurrences in the body of a function, which is the last of its
operands. -/
def Expr.bodyOccurrences (enclosing : List Expr) : List Expr → List Occurrence
  | [] => []
  | [e] => e.occurrences enclosing
  | _ :: rest => bodyOccurrences enclosing rest
termination_by structural es => es

def Expr.optionOccurrences (enclosing : List Expr) :
    List (String × Expr) → List Occurrence
  | [] => []
  | (_, e) :: rest =>
    e.occurrences enclosing ++ optionOccurrences enclosing rest
termination_by structural es => es

end

namespace Occurrence

/-- What is wrong with an occurrence. -/
inductive Faulty (o : Occurrence) : BuildFault → Prop where
  | notFinite {value : Datum} {n : Number} :
      o.node.kind = .literal value → n ∈ value.numbers →
      (n = .nan ∨ ∃ negative, n = .infinite negative) →
      Faulty o (.notFinite value)
  | escaped :
      o.node.kind = .parameter → (∀ f ∈ o.enclosing, ¬ f.Introduces o.node.id) →
      Faulty o .escapedVariable

def fault? (o : Occurrence) : Option BuildFault :=
  match o.node.kind with
  | .literal value => if value.isFinite then none else some (.notFinite value)
  | .parameter =>
    if ∀ f ∈ o.enclosing, ¬ f.Introduces o.node.id then some .escapedVariable
    else none
  | _ => none

theorem not_isFinite_iff {value : Datum} :
    ¬ value.isFinite ↔
      ∃ n ∈ value.numbers, n = .nan ∨ ∃ negative, n = .infinite negative := by
  rw [Datum.isFinite_iff]
  push Not
  refine exists_congr fun n => and_congr_right fun _ => ?_
  cases n <;> simp [Binary.isFinite]

theorem fault?_eq_some_iff {o : Occurrence} {cause : BuildFault} :
    o.fault? = some cause ↔ o.Faulty cause := by
  constructor
  · intro h
    unfold fault? at h
    split at h
    · next value hkind =>
      split at h
      · cases h
      · next hinfinite =>
        cases h
        obtain ⟨n, hn, hvalue⟩ := not_isFinite_iff.1 hinfinite
        exact .notFinite hkind hn hvalue
    · next hkind =>
      split at h
      · next hescaped =>
        cases h
        exact .escaped hkind hescaped
      · cases h
    · cases h
  · intro h
    cases h with
    | notFinite hkind hn hvalue =>
        have hinfinite := not_isFinite_iff.2 ⟨_, hn, hvalue⟩
        simp only [fault?, hkind, hinfinite, Bool.false_eq_true, if_false]
    | escaped hkind hescaped =>
        simp only [fault?, hkind]
        rw [if_pos hescaped]

theorem fault?_eq_none_iff {o : Occurrence} :
    o.fault? = none ↔ ∀ cause, ¬ o.Faulty cause := by
  rw [Option.eq_none_iff_forall_not_mem]
  exact forall_congr' fun cause => not_congr fault?_eq_some_iff

end Occurrence

/-! ## Failing steps -/

/-- The cause of a failure. -/
def failure? {α : Type} : Except BuildFault α → Option BuildFault
  | .ok _ => none
  | .error cause => some cause

theorem failure?_eq_some_iff {α : Type} {result : Except BuildFault α}
    {cause : BuildFault} :
    failure? result = some cause ↔ result = .error cause := by
  cases result <;> simp [failure?]

/-- Wherever it starts, the step fails for the given cause, or does not fail. -/
def Fails {α : Type} (l : Lexical α) (fault : Option BuildFault) : Prop :=
  ∀ progress, failure? (l progress).1 = fault

section

variable {α β : Type}

theorem Fails.pure (a : α) : Fails (pure a : Lexical α) none := fun _ => rfl

theorem Fails.throw (cause : BuildFault) :
    Fails (throw cause : Lexical α) (some cause) :=
  fun _ => rfl

theorem Fails.bind {l : Lexical α} {rest : α → Lexical β}
    {fault fault' : Option BuildFault}
    (h : Fails l fault) (hrest : ∀ a, Fails (rest a) fault') :
    Fails (l >>= rest) (fault.or fault') := by
  intro progress
  have hfirst := h progress
  rw [fallible_bind_apply]
  rcases hl : l progress with ⟨cause | a, progress₁⟩
  · rw [hl] at hfirst
    rw [← hfirst]
    rfl
  · rw [hl] at hfirst
    rw [← hfirst]
    exact hrest a progress₁

theorem Fails.bind_ok {l : Lexical α} {rest : α → Lexical β}
    {fault : Option BuildFault}
    (h : Fails l fault) (hrest : ∀ a, Fails (rest a) none) :
    Fails (l >>= rest) fault := by
  have hbind := h.bind hrest
  rwa [Option.or_none] at hbind

theorem Fails.take_bind {count : Nat} {rest : Nat → Lexical β}
    {fault : Option BuildFault}
    (hrest : ∀ first, Fails (rest first) fault) :
    Fails (Lexical.take count >>= rest) fault :=
  fun progress => hrest progress.next _

theorem Fails.resolve (binders : List Binder) (i : NodeId)
    (operands : List Expr) (options : Fields Expr) :
    Fails (Lexical.resolve binders i)
      (Occurrence.fault? ⟨⟨i, .parameter, operands, options⟩,
        binders.map Binder.function⟩) := by
  have hfault : Occurrence.fault?
      ⟨⟨i, .parameter, operands, options⟩, binders.map Binder.function⟩ =
      if numberOf binders i = none then some .escapedVariable else none := by
    simp only [Occurrence.fault?, numberOf_eq_none_iff, List.forall_mem_map]
  rw [hfault, Lexical.resolve]
  cases numberOf binders i with
  | none => exact .throw _
  | some number => exact .pure _

end

/-! ## Sound expressions -/

/-- The first fault at a node other than a function and below it. -/
theorem first_fault {kind : NodeKind} (hkind : kind ≠ .function)
    (enclosing : List Expr)
    (i : NodeId) (operands : List Expr) (options : Fields Expr) :
    (occurrences enclosing ⟨i, kind, operands, options⟩).findSome?
      Occurrence.fault? =
      (Occurrence.fault? ⟨⟨i, kind, operands, options⟩, enclosing⟩).or
        (((operandOccurrences enclosing operands).findSome? Occurrence.fault?).or
          ((optionOccurrences enclosing options).findSome? Occurrence.fault?)) := by
  have hlist : occurrences enclosing ⟨i, kind, operands, options⟩ =
      ⟨⟨i, kind, operands, options⟩, enclosing⟩ ::
        (operandOccurrences enclosing operands ++
          optionOccurrences enclosing options) := by
    cases kind with
    | function => exact (hkind rfl).elim
    | _ => rfl
  rw [hlist, List.findSome?_cons, List.findSome?_append]
  cases Occurrence.fault? ⟨⟨i, kind, operands, options⟩, enclosing⟩ with
  | none => rfl
  | some cause => rfl

mutual

theorem fails_expr (context : CompileContext) (binders : List Binder) :
    ∀ e : Expr, (∀ n ∈ e.nodes, n.Shaped) →
      Fails (Lexical.expr context binders e)
        ((e.occurrences (binders.map Binder.function)).findSome?
          Occurrence.fault?)
  | ⟨i, kind, operands, options⟩, hshaped => by
    obtain ⟨hself, hoperands, hoptions⟩ := forall_nodes.1 hshaped
    have hargs := fails_operands context binders operands hoperands
    have hnamed := fails_options context binders options hoptions
    cases hself with
    | literal =>
        rw [Lexical.expr, first_fault (by simp)]
        simp only [operandOccurrences, optionOccurrences, List.findSome?_nil,
          Option.or_none, Occurrence.fault?]
        split
        · exact .pure _
        · exact .throw _
    | database =>
        rw [Lexical.expr, first_fault (by simp)]
        simp only [optionOccurrences, List.findSome?_nil, Option.or_none]
        exact hargs.bind_ok fun _ => .pure _
    | table =>
        rw [Lexical.expr, first_fault (by simp)]
        simp only [optionOccurrences, List.findSome?_nil, Option.or_none]
        exact hargs.bind_ok fun _ => .pure _
    | parameter =>
        rw [Lexical.expr, first_fault (by simp)]
        simp only [operandOccurrences, optionOccurrences, List.findSome?_nil,
          Option.or_none]
        exact (Fails.resolve binders i [] []).bind_ok fun _ => .pure _
    | @function _ parameters body hparameters _ =>
        have hne : parameters ++ [body] ≠ [] := by simp
        rw [Lexical.expr, if_neg (by simp)]
        simp only [occurrences, optionOccurrences, List.append_nil]
        refine .take_bind fun first => ?_
        exact (fails_body context (_ :: binders) _ hne hoperands).bind_ok
          fun _ => .pure _
    | operator _ harity _ =>
        rw [Lexical.expr, if_pos harity, first_fault (by simp)]
        refine hargs.bind fun args => ?_
        exact hnamed.bind_ok fun named _ => rfl

theorem fails_operands (context : CompileContext) (binders : List Binder) :
    ∀ es : List Expr, (∀ n ∈ operandNodes es, n.Shaped) →
      Fails (Lexical.exprs context binders es)
        ((operandOccurrences (binders.map Binder.function) es).findSome?
          Occurrence.fault?)
  | [], _ => by
    rw [Lexical.exprs, operandOccurrences]
    exact .pure _
  | e :: rest, hshaped => by
    rw [operandNodes, List.forall_mem_append] at hshaped
    rw [Lexical.exprs, operandOccurrences, List.findSome?_append]
    refine (fails_expr context binders e hshaped.1).bind fun term => ?_
    exact (fails_operands context binders rest hshaped.2).bind_ok
      fun _ => .pure _

theorem fails_body (context : CompileContext) (binders : List Binder) :
    ∀ es : List Expr, es ≠ [] → (∀ n ∈ operandNodes es, n.Shaped) →
      Fails (Lexical.lastExpr context binders es)
        ((bodyOccurrences (binders.map Binder.function) es).findSome?
          Occurrence.fault?)
  | [], hne, _ => (hne rfl).elim
  | [e], _, hshaped => by
    rw [operandNodes, List.forall_mem_append] at hshaped
    exact fails_expr context binders e hshaped.1
  | _ :: e :: rest, _, hshaped => by
    rw [operandNodes, List.forall_mem_append] at hshaped
    exact fails_body context binders (e :: rest) (List.cons_ne_nil _ _)
      hshaped.2

theorem fails_options (context : CompileContext) (binders : List Binder) :
    ∀ es : List (String × Expr), (∀ n ∈ optionNodes es, n.Shaped) →
      Fails (Lexical.exprOptions context binders es)
        ((optionOccurrences (binders.map Binder.function) es).findSome?
          Occurrence.fault?)
  | [], _ => by
    rw [Lexical.exprOptions, optionOccurrences]
    exact .pure _
  | (name, e) :: rest, hshaped => by
    rw [optionNodes, List.forall_mem_append] at hshaped
    rw [Lexical.exprOptions, optionOccurrences, List.findSome?_append]
    refine (fails_expr context binders e hshaped.1).bind fun term => ?_
    exact (fails_options context binders rest hshaped.2).bind_ok
      fun _ => .pure _

end

theorem Expr.Sound.compile_eq_error_iff {e : Expr} (he : e.Sound)
    {context : CompileContext} {cause : BuildFault} :
    e.compile context = .error cause ↔
      (e.occurrences []).findSome? Occurrence.fault? = some cause := by
  have hfails := fails_expr context [] e he.shaped ⟨1, []⟩
  rw [he.compile_eq, ← failure?_eq_some_iff, hfails]
  rfl

/-- Compiling an expression that a caller can build fails exactly for a constant
that is not finite and for a parameter outside of all functions that introduced
it, and for the first such occurrence.  No builder gives an operator the wrong
number of operands. -/
theorem compile_fails_exactly :
    (∀ e : Expr, e.Obtainable → ∀ context : CompileContext,
      ((∃ cause, e.compile context = .error cause) ↔
        ∃ o ∈ e.occurrences [], ∃ cause, o.Faulty cause) ∧
      ∀ cause, e.compile context = .error cause ↔
        ∃ before o after, e.occurrences [] = before ++ o :: after ∧
          (∀ earlier ∈ before, ∀ fault, ¬ earlier.Faulty fault) ∧
          o.Faulty cause) ∧
    ∀ p : Caller Expr, Program ∅ p →
      ∀ kind given, p.start ≠ .error (.brokenArity kind given) := by
  refine ⟨fun e he context => ⟨?_, fun cause => ?_⟩,
    fun p hp kind given hstart => ?_⟩
  · simp only [he.sound.compile_eq_error_iff, ← Option.isSome_iff_exists]
    rw [List.findSome?_isSome_iff]
    simp only [Option.isSome_iff_exists, Occurrence.fault?_eq_some_iff]
  · rw [he.sound.compile_eq_error_iff, List.findSome?_eq_some_iff]
    simp only [Occurrence.fault?_eq_some_iff, Occurrence.fault?_eq_none_iff]
    refine exists_congr fun before => ?_
    refine exists_congr fun o => exists_congr fun after => ?_
    exact and_congr_right fun _ => and_comm
  · exact hp.not_broken hstart trivial

/-- A union of a mapped constant with the parameter of the mapping function. -/
def Expr.leakedRow : Expr :=
  let row : Expr := ⟨1, .parameter, [], []⟩
  let mapped : Expr :=
    ⟨3, .operator .map,
      [⟨0, .literal .null, [], []⟩, ⟨2, .function, [row, row], []⟩], []⟩
  ⟨4, .operator .union, [mapped, row], []⟩

/-- The body of the function stores its parameter, and it is taken out of the
store again when the function is there. -/
theorem Expr.leakedRow_obtainable : leakedRow.Obtainable := by
  refine ⟨Expr.null >>= fun e =>
    (Expr.map e fun row => Caller.keep row >>= fun _ => pure row) >>=
    fun mapped => Caller.kept >>= fun kept =>
      Expr.union mapped (kept.headD mapped), ?_, rfl⟩
  refine .bind .null fun e => .bind (.map ?_ fun row => .keep ?_ (.give ?_))
    fun mapped =>
    .kept fun kept => .union ?_ ?_
  · exact Set.mem_insert _ _
  · exact Set.mem_insert _ _
  · exact Set.mem_insert _ _
  · exact .inl (Set.mem_insert _ _)
  · cases kept with
    | nil => exact .inl (Set.mem_insert _ _)
    | cons row rest => exact .inr List.mem_cons_self

/-- Of the two occurrences of the parameter, the one inside the function is
right and the one beside it is at fault. -/
theorem Expr.leakedRow_compile_fails :
    leakedRow.compile {} = .error .escapedVariable ∧
      ∃ before o after, leakedRow.occurrences [] = before ++ o :: after ∧
        (∀ earlier ∈ before, ∀ fault, ¬ earlier.Faulty fault) ∧
        o.Faulty .escapedVariable := by
  have hfails :=
    (compile_fails_exactly.1 leakedRow leakedRow_obtainable {}).2 .escapedVariable
  exact ⟨rfl, hfails.1 rfl⟩

end DocumentQuery
