import DocumentQuery.Proofs.BinderHygiene

/-!
# Expressions without identities

The compiler tells parameters apart by the identities of their nodes, but which
node stands where is not seen in what it makes.  An expression is unfolded into
a tree that keeps all but the identities: a parameter is known by the number of
functions between it and the one that has it, and by its position there.
Whatever nodes two expressions share, if they unfold into the same tree they
compile to the same term, or fail alike, with the same warnings.
-/

open DocumentQuery.Expr

namespace DocumentQuery

/-- A node and those below it, without identities.  A parameter has the site at
which it is bound, if a function around it binds it. -/
structure Nameless where
  kind : NodeKind
  site : Option (Nat × Nat)
  operands : List Nameless
  options : List (String × Nameless)

/-- Where a parameter is bound: how many of the functions around it do not have
it, from the innermost on, and its position in the next one. -/
def bindingSite : List Expr → NodeId → Option (Nat × Nat)
  | [], _ => none
  | f :: outer, p =>
    if f.Introduces p then some (0, (f.parameters.map Expr.id).idxOf p)
    else (bindingSite outer p).map fun site => (site.1 + 1, site.2)

namespace Expr

/-- The functions around the nodes right below a node. -/
def around (enclosing : List Expr) (e : Expr) : List Expr :=
  match e.kind with
  | .function => e :: enclosing
  | _ => enclosing

def site? (enclosing : List Expr) (e : Expr) : Option (Nat × Nat) :=
  match e.kind with
  | .parameter => bindingSite enclosing e.id
  | _ => none

mutual

/-- The tree of an expression inside some functions, innermost first. -/
def nameless (enclosing : List Expr) : Expr → Nameless
  | ⟨i, kind, operands, options⟩ =>
    ⟨kind, site? enclosing ⟨i, kind, operands, options⟩,
      operandsNameless (around enclosing ⟨i, kind, operands, options⟩) operands,
      optionsNameless (around enclosing ⟨i, kind, operands, options⟩) options⟩
termination_by structural e => e

def operandsNameless (enclosing : List Expr) : List Expr → List Nameless
  | [] => []
  | e :: rest => nameless enclosing e :: operandsNameless enclosing rest
termination_by structural es => es

def optionsNameless (enclosing : List Expr) :
    List (String × Expr) → List (String × Nameless)
  | [] => []
  | (name, e) :: rest =>
    (name, nameless enclosing e) :: optionsNameless enclosing rest
termination_by structural es => es

end

theorem operandsNameless_eq_map (enclosing : List Expr) (es : List Expr) :
    operandsNameless enclosing es = es.map (nameless enclosing) := by
  induction es with
  | nil => rfl
  | cons e rest ih => rw [operandsNameless, ih, List.map_cons]

theorem nameless_kind (enclosing : List Expr) (e : Expr) :
    (e.nameless enclosing).kind = e.kind := by
  cases e
  rfl

/-! ## Impurity -/

end Expr

/-- All that a node's own impurity takes from its operands is a table's name. -/
theorem NodeKind.impurity?_congr (kind : NodeKind) {es es' : List Expr}
    (h : tableName es = tableName es') :
    kind.impurity? es = kind.impurity? es' := by
  cases kind with
  | table => rw [impurity?, impurity?, h]
  | _ => rfl

namespace Expr

section

variable {enclosing enclosing' : List Expr}

theorem length_of_nameless {es es' : List Expr}
    (h : operandsNameless enclosing es = operandsNameless enclosing' es') :
    es.length = es'.length := by
  simpa [operandsNameless_eq_map] using congrArg List.length h

/-- What depends on the tree of a node alone is the same for the operands at one
place. -/
theorem operand_of_nameless {α : Type} {f : Expr → Option α}
    (hf : ∀ e e' : Expr, e.nameless enclosing = e'.nameless enclosing' →
      f e = f e') {es es' : List Expr}
    (h : operandsNameless enclosing es = operandsNameless enclosing' es')
    (place : Nat) : es[place]?.bind f = es'[place]?.bind f := by
  have hplace := congrArg (·[place]?) h
  simp only [operandsNameless_eq_map, List.getElem?_map] at hplace
  cases hes : es[place]? with
  | none =>
      have hes' : es'[place]? = none := by simpa [hes] using hplace
      rw [hes']
  | some e =>
      obtain ⟨e', hes', he⟩ : ∃ e', es'[place]? = some e' ∧
          e'.nameless enclosing' = e.nameless enclosing := by
        simpa [hes, eq_comm] using hplace
      rw [hes']
      exact hf e e' he.symm

theorem literal?_of_nameless {e e' : Expr}
    (h : e.nameless enclosing = e'.nameless enclosing') :
    e.literal? = e'.literal? := by
  have hkind : e.kind = e'.kind := by
    simpa only [nameless_kind] using congrArg Nameless.kind h
  rw [literal?, literal?, hkind]

theorem tableName_of_nameless {es es' : List Expr}
    (h : operandsNameless enclosing es = operandsNameless enclosing' es') :
    tableName es = tableName es' := by
  have hname := operand_of_nameless (fun _ _ => literal?_of_nameless) h
    (es.length - 1)
  rw [tableName, tableName, List.getLast?_eq_getElem?,
    List.getLast?_eq_getElem?, hname, length_of_nameless h]

end

mutual

theorem impurity?_of_nameless : ∀ (e e' : Expr) (enclosing enclosing' : List Expr),
    e.nameless enclosing = e'.nameless enclosing' → e.impurity? = e'.impurity?
  | ⟨i, kind, operands, options⟩, ⟨j, kind', operands', options'⟩, enclosing,
      enclosing', h => by
    obtain ⟨rfl, -, hoperands, hoptions⟩ := Nameless.mk.inj h
    rw [impurity?, impurity?, kind.impurity?_congr (tableName_of_nameless hoperands),
      operandsImpurity?_of_nameless operands operands' _ _ hoperands,
      optionsImpurity?_of_nameless options options' _ _ hoptions]

theorem operandsImpurity?_of_nameless :
    ∀ (es es' : List Expr) (enclosing enclosing' : List Expr),
    operandsNameless enclosing es = operandsNameless enclosing' es' →
      operandsImpurity? es = operandsImpurity? es'
  | [], [], _, _, _ => rfl
  | e :: rest, e' :: rest', enclosing, enclosing', h => by
    obtain ⟨hfirst, hrest⟩ := List.cons.inj h
    rw [operandsImpurity?, operandsImpurity?,
      impurity?_of_nameless e e' _ _ hfirst,
      operandsImpurity?_of_nameless rest rest' _ _ hrest]

theorem optionsImpurity?_of_nameless :
    ∀ (es es' : List (String × Expr)) (enclosing enclosing' : List Expr),
    optionsNameless enclosing es = optionsNameless enclosing' es' →
      optionsImpurity? es = optionsImpurity? es'
  | [], [], _, _, _ => rfl
  | (name, e) :: rest, (name', e') :: rest', enclosing, enclosing', h => by
    obtain ⟨hfirst, hrest⟩ := List.cons.inj h
    rw [optionsImpurity?, optionsImpurity?,
      impurity?_of_nameless e e' _ _ (Prod.mk.inj hfirst).2,
      optionsImpurity?_of_nameless rest rest' _ _ hrest]

end

end Expr

theorem Compile.refusals_of_nameless (context : CompileContext) (kind : TermKind)
    {enclosing enclosing' : List Expr} {es es' : List Expr}
    (h : operandsNameless enclosing es = operandsNameless enclosing' es') :
    refusals context kind es = refusals context kind es' := by
  have hbody := operand_of_nameless
    (fun e e' => impurity?_of_nameless e e' enclosing enclosing') h 1
  rw [refusals, refusals, hbody]

/-! ## Compiling -/

/-- The number of a parameter is listed at the site at which it is bound. -/
theorem numberOf_eq (binders : List Binder) (p : NodeId) :
    numberOf binders p =
      (bindingSite (binders.map Binder.function) p).bind fun site =>
        (binders.map Binder.numbers)[site.1]?.bind (·[site.2]?) := by
  induction binders with
  | nil => rfl
  | cons binder outer ih =>
      rw [numberOf, List.findSome?_cons, List.map_cons, List.map_cons,
        bindingSite]
      by_cases hp : binder.function.Introduces p
      · obtain ⟨number, hposition, hlookup⟩ := Binder.lookup_of_introduces hp
        simp [hp, hlookup, hposition]
      · rw [numberOf] at ih
        simp [hp, Binder.lookup_eq_none hp, ih, Option.bind_map]

namespace Lexical

mutual

theorem expr_of_nameless (context : CompileContext) :
    ∀ (e e' : Expr) (binders binders' : List Binder),
      binders.map Binder.numbers = binders'.map Binder.numbers →
      e.nameless (binders.map Binder.function) =
        e'.nameless (binders'.map Binder.function) →
      expr context binders e = expr context binders' e'
  | ⟨i, kind, operands, options⟩, ⟨j, kind', operands', options'⟩, binders,
      binders', hnumbers, h => by
    obtain ⟨rfl, hsite, hoperands, hoptions⟩ := Nameless.mk.inj h
    cases kind with
    | literal value => rw [expr, expr]
    | database =>
        rw [expr, expr,
          exprs_of_nameless context operands operands' _ _ hnumbers hoperands]
    | table =>
        rw [expr, expr,
          exprs_of_nameless context operands operands' _ _ hnumbers hoperands]
    | parameter =>
        have hnumber : numberOf binders i = numberOf binders' j := by
          have hsite : bindingSite (binders.map Binder.function) i =
              bindingSite (binders'.map Binder.function) j := hsite
          rw [numberOf_eq, numberOf_eq, hsite, hnumbers]
        rw [expr, expr, resolve, resolve, hnumber]
    | function =>
        have hlength := length_of_nameless hoperands
        have hempty : operands.isEmpty = operands'.isEmpty := by
          rw [Bool.eq_iff_iff, List.isEmpty_iff_length_eq_zero,
            List.isEmpty_iff_length_eq_zero, hlength]
        have hlisted : ∀ first,
            (Binder.mk ⟨i, .function, operands, options⟩ rfl first).numbers =
              (Binder.mk ⟨j, .function, operands', options'⟩ rfl first).numbers := by
          simp [Binder.numbers, Expr.parameters, hlength]
        have hbody : ∀ first,
            lastExpr context (⟨⟨i, .function, operands, options⟩, rfl, first⟩ :: binders)
                operands =
              lastExpr context
                (⟨⟨j, .function, operands', options'⟩, rfl, first⟩ :: binders')
                operands' := by
          intro first
          refine lastExpr_of_nameless context operands operands' _ _ ?_ hoperands
          rw [List.map_cons, List.map_cons, hlisted first, hnumbers]
        rw [expr, expr]
        simp only [List.length_dropLast, hlength, hempty, hbody, hlisted]
    | operator kind =>
        rw [expr, expr, length_of_nameless hoperands,
          exprs_of_nameless context operands operands' _ _ hnumbers hoperands,
          exprOptions_of_nameless context options options' _ _ hnumbers hoptions,
          Compile.refusals_of_nameless context kind hoperands]

theorem exprs_of_nameless (context : CompileContext) :
    ∀ (es es' : List Expr) (binders binders' : List Binder),
      binders.map Binder.numbers = binders'.map Binder.numbers →
      operandsNameless (binders.map Binder.function) es =
        operandsNameless (binders'.map Binder.function) es' →
      exprs context binders es = exprs context binders' es'
  | [], [], _, _, _, _ => rfl
  | e :: rest, e' :: rest', binders, binders', hnumbers, h => by
    obtain ⟨hfirst, hrest⟩ := List.cons.inj h
    rw [exprs, exprs, expr_of_nameless context e e' _ _ hnumbers hfirst,
      exprs_of_nameless context rest rest' _ _ hnumbers hrest]

theorem lastExpr_of_nameless (context : CompileContext) :
    ∀ (es es' : List Expr) (binders binders' : List Binder),
      binders.map Binder.numbers = binders'.map Binder.numbers →
      operandsNameless (binders.map Binder.function) es =
        operandsNameless (binders'.map Binder.function) es' →
      lastExpr context binders es = lastExpr context binders' es'
  | [], [], _, _, _, _ => rfl
  | [e], [e'], _, _, hnumbers, h =>
    expr_of_nameless context e e' _ _ hnumbers (List.cons.inj h).1
  | [_], _ :: _ :: _, _, _, _, h | _ :: _ :: _, [_], _, _, _, h => by
    cases (List.cons.inj h).2
  | _ :: e :: rest, _ :: e' :: rest', _, _, hnumbers, h =>
    lastExpr_of_nameless context (e :: rest) (e' :: rest') _ _ hnumbers
      (List.cons.inj h).2

theorem exprOptions_of_nameless (context : CompileContext) :
    ∀ (es es' : List (String × Expr)) (binders binders' : List Binder),
      binders.map Binder.numbers = binders'.map Binder.numbers →
      optionsNameless (binders.map Binder.function) es =
        optionsNameless (binders'.map Binder.function) es' →
      exprOptions context binders es = exprOptions context binders' es'
  | [], [], _, _, _, _ => rfl
  | (name, e) :: rest, (name', e') :: rest', binders, binders', hnumbers, h => by
    obtain ⟨hfirst, hrest⟩ := List.cons.inj h
    obtain ⟨rfl, he⟩ := Prod.mk.inj hfirst
    rw [exprOptions, exprOptions, expr_of_nameless context e e' _ _ hnumbers he,
      exprOptions_of_nameless context rest rest' _ _ hnumbers hrest]

end

end Lexical

theorem Expr.compileWithWarnings_of_nameless {e e' : Expr}
    (hshaped : ∀ n ∈ e.nodes, n.Shaped) (hshaped' : ∀ n ∈ e'.nodes, n.Shaped)
    (h : e.nameless [] = e'.nameless []) (context : CompileContext) :
    e.compileWithWarnings context = e'.compileWithWarnings context := by
  have hsame := Lexical.expr_of_nameless context e e' [] [] rfl h
  rw [compileWithWarnings_of_shaped hshaped,
    compileWithWarnings_of_shaped hshaped', hsame]

/-- Two expressions with the same tree compile to the same term, or fail alike,
and log the same warnings in the same order. -/
theorem Expr.Obtainable.compileWithWarnings_congr {e e' : Expr}
    (he : e.Obtainable) (he' : e'.Obtainable)
    (h : e.nameless [] = e'.nameless []) (context : CompileContext) :
    e.compileWithWarnings context = e'.compileWithWarnings context :=
  compileWithWarnings_of_nameless he.sound.shaped he'.sound.shaped h context

/-- A union of two maps that share nothing. -/
def Expr.mapCopied : Expr :=
  let mapped (i : NodeId) : Expr :=
    let row : Expr := ⟨i + 1, .parameter, [], []⟩
    ⟨i + 3, .operator .map,
      [⟨i, .literal .null, [], []⟩, ⟨i + 2, .function, [row, row], []⟩], []⟩
  ⟨8, .operator .union, [mapped 0, mapped 4], []⟩

theorem Expr.mapCopied_obtainable : mapCopied.Obtainable := by
  refine ⟨Expr.null >>= fun e => Expr.map e pure >>= fun mapped =>
    Expr.null >>= fun e' => Expr.map e' pure >>= fun mapped' =>
    Expr.union mapped mapped', ?_, rfl⟩
  refine .bind .null fun e => .bind (.map ?_ fun row => .give ?_) fun mapped =>
    .bind .null fun e' => .bind (.map ?_ fun row => .give ?_) fun mapped' =>
    .union ?_ ?_
  all_goals simp

/-- One map taken twice compiles like a map and its copy. -/
theorem Expr.mapTwice_compileWithWarnings_copied :
    mapTwice ≠ mapCopied ∧ mapTwice.nameless [] = mapCopied.nameless [] ∧
      mapTwice.compileWithWarnings {} = mapCopied.compileWithWarnings {} := by
  have hcopied : mapTwice.nameless [] = mapCopied.nameless [] := rfl
  have hne : mapTwice.id ≠ mapCopied.id := by decide
  exact ⟨fun heq => hne (congrArg Expr.id heq), hcopied,
    mapTwice_obtainable.compileWithWarnings_congr mapCopied_obtainable hcopied {}⟩

end DocumentQuery
