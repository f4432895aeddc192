import DocumentQuery.Proofs.NamelessForm

/-!
# The default database

A compilation puts its default database before the name of every table that has
none.  Putting an explicit database there beforehand changes the operands of
tables deep inside an expression, and still nothing about the numbers of
parameters or the reasons why a write is refused.  So both ways lead to the same
term, and what the default is no longer matters for the second.
-/

open DocumentQuery.Expr

namespace DocumentQuery

/-- A table's operands, with a database if they were without. -/
def NodeKind.withDatabase (db : Expr) : NodeKind → List Expr → List Expr
  | .table, [name] => [db, name]
  | _, operands => operands

namespace Expr

mutual

/-- The expression in which each table without a database has the given one. -/
def qualified (db : Expr) : Expr → Expr
  | ⟨i, kind, operands, options⟩ =>
    ⟨i, kind, kind.withDatabase db (operandsQualified db operands),
      optionsQualified db options⟩

def operandsQualified (db : Expr) : List Expr → List Expr
  | [] => []
  | e :: rest => qualified db e :: operandsQualified db rest

def optionsQualified (db : Expr) : List (String × Expr) → List (String × Expr)
  | [] => []
  | (name, e) :: rest => (name, qualified db e) :: optionsQualified db rest

end

/-- A database by its name. -/
def explicitDatabase (i j : NodeId) (name : String) : Expr :=
  ⟨i, .database, [⟨j, .literal (.string name), [], []⟩], []⟩

theorem qualified_id (db e : Expr) : (qualified db e).id = e.id := by
  cases e
  rfl

theorem qualified_kind (db e : Expr) : (qualified db e).kind = e.kind := by
  cases e
  rfl

theorem operandsQualified_eq_map (db : Expr) (es : List Expr) :
    operandsQualified db es = es.map (qualified db) := by
  induction es with
  | nil => rfl
  | cons e rest ih => rw [operandsQualified, ih, List.map_cons]

theorem length_operandsQualified (db : Expr) (es : List Expr) :
    (operandsQualified db es).length = es.length := by
  rw [operandsQualified_eq_map, List.length_map]

theorem withDatabase_of_ne (db : Expr) {kind : NodeKind} (hkind : kind ≠ .table)
    (operands : List Expr) : kind.withDatabase db operands = operands := by
  cases kind with
  | table => exact absurd rfl hkind
  | _ => rfl

/-! ## Reasons to refuse a write -/

theorem literal?_qualified (db e : Expr) :
    (qualified db e).literal? = e.literal? := by
  rw [literal?, literal?, qualified_kind]

theorem tableName_operandsQualified (db : Expr) (operands : List Expr) :
    tableName (operandsQualified db operands) = tableName operands := by
  rw [tableName, tableName, operandsQualified_eq_map, List.getLast?_map,
    Option.bind_map]
  simp only [Function.comp_def, literal?_qualified]

/-- The name of a table is its last operand, with a database or without. -/
theorem tableName_withDatabase (db : Expr) (operands : List Expr) :
    tableName (NodeKind.table.withDatabase db operands) = tableName operands :=
  match operands with
  | [] | [_] | _ :: _ :: _ => rfl

mutual

theorem impurity?_qualified (db : Expr) :
    ∀ e : Expr, (qualified db e).impurity? = e.impurity?
  | ⟨i, kind, operands, options⟩ => by
    rw [qualified, impurity?, impurity?]
    by_cases hkind : kind = .table
    · -- A table is a reason itself, so that its operands do not matter.
      subst hkind
      rw [NodeKind.impurity?, NodeKind.impurity?, tableName_withDatabase,
        tableName_operandsQualified]
      rfl
    · rw [withDatabase_of_ne db hkind,
        kind.impurity?_congr (tableName_operandsQualified db operands),
        operandsImpurity?_qualified, optionsImpurity?_qualified]

theorem operandsImpurity?_qualified (db : Expr) :
    ∀ es : List Expr,
      operandsImpurity? (operandsQualified db es) = operandsImpurity? es
  | [] => rfl
  | e :: rest => by
    rw [operandsQualified, operandsImpurity?, operandsImpurity?,
      impurity?_qualified, operandsImpurity?_qualified]

theorem optionsImpurity?_qualified (db : Expr) :
    ∀ es : List (String × Expr),
      optionsImpurity? (optionsQualified db es) = optionsImpurity? es
  | [] => rfl
  | (name, e) :: rest => by
    rw [optionsQualified, optionsImpurity?, optionsImpurity?,
      impurity?_qualified, optionsImpurity?_qualified]

end

end Expr

/-! ## Compiling -/

namespace Compile

section

variable (i j : NodeId) (database : String) (other : Option String)
  (atomic : Bool)

/-- An explicit database compiles to what is put before a name by default. -/
theorem exprs_explicitDatabase (context : CompileContext) (scope : Nat)
    (rest : List Expr) :
    exprs context scope (explicitDatabase i j database :: rest) = (do
      let terms ← exprs context scope rest
      return .ofArgs .db [.literal (.string database)] :: terms) :=
  rfl

theorem table_qualified (scope : Nat) (operands : List Expr)
    (h : exprs ⟨other, atomic⟩ scope
        (operandsQualified (explicitDatabase i j database) operands) =
      exprs ⟨some database, atomic⟩ scope operands) :
    (do
      let args ← exprs ⟨other, atomic⟩ scope
        (NodeKind.table.withDatabase (explicitDatabase i j database)
          (operandsQualified (explicitDatabase i j database) operands))
      return Term.ofArgs .table (qualify ⟨other, atomic⟩ args)) = (do
      let args ← exprs ⟨some database, atomic⟩ scope operands
      return Term.ofArgs .table (qualify ⟨some database, atomic⟩ args)) := by
  match operands with
  | [] => rfl
  | [name] =>
      rw [operandsQualified, operandsQualified] at h ⊢
      rw [NodeKind.withDatabase, exprs_explicitDatabase, h]
      simp only [exprs, bind_assoc, pure_bind, qualify]
  | first :: second :: rest =>
      change (do
        let args ← exprs ⟨other, atomic⟩ scope
          (operandsQualified (explicitDatabase i j database)
            (first :: second :: rest))
        return Term.ofArgs .table (qualify ⟨other, atomic⟩ args)) = _
      rw [h]
      simp only [exprs, bind_assoc, pure_bind, qualify]

theorem bindParameters_qualified (db : Expr) (inner : Nat)
    (operands : List Expr) :
    ((operandsQualified db operands).dropLast.mapM fun x =>
        bindParameter inner x.id) =
      operands.dropLast.mapM fun x => bindParameter inner x.id := by
  rw [operandsQualified_eq_map, ← List.map_dropLast, List.mapM_map]
  simp only [Function.comp_def, qualified_id]

theorem finishOperator_qualified (db : Expr) (kind : TermKind)
    (operands : List Expr) :
    finishOperator ⟨other, atomic⟩ kind (operandsQualified db operands) =
      finishOperator ⟨some database, atomic⟩ kind operands := by
  have hbody : (operandsQualified db operands)[1]?.bind Expr.impurity? =
      operands[1]?.bind Expr.impurity? := by
    rw [operandsQualified_eq_map, List.getElem?_map, Option.bind_map]
    exact congrArg _ (funext (impurity?_qualified db))
  unfold finishOperator
  rw [hbody]

mutual

theorem expr_qualified :
    ∀ (e : Expr) (scope : Nat),
      expr ⟨other, atomic⟩ scope
          (qualified (explicitDatabase i j database) e) =
        expr ⟨some database, atomic⟩ scope e
  | ⟨k, kind, operands, options⟩, scope => by
    have hargs := exprs_qualified operands scope
    have hlength := length_operandsQualified
      (explicitDatabase i j database) operands
    by_cases hkind : kind = .table
    · subst hkind
      rw [qualified, expr, expr]
      exact table_qualified i j database other atomic scope operands hargs
    · rw [qualified, withDatabase_of_ne _ hkind]
      cases kind with
      | table => exact absurd rfl hkind
      | literal value => rw [expr, expr]
      | database => rw [expr, expr, hargs]
      | parameter => rw [expr, expr]
      | function =>
          have hempty : (operandsQualified (explicitDatabase i j database)
              operands).isEmpty = operands.isEmpty := by
            rw [operandsQualified_eq_map, List.isEmpty_map]
          have hbody := lastExpr_qualified operands
          rw [expr, expr, hempty]
          simp only [bindParameters_qualified, hbody]
      | operator kind =>
          rw [expr, expr, hlength, hargs, exprOptions_qualified options scope]
          simp only [finishOperator_qualified database other atomic]

theorem exprs_qualified :
    ∀ (es : List Expr) (scope : Nat),
      exprs ⟨other, atomic⟩ scope
          (operandsQualified (explicitDatabase i j database) es) =
        exprs ⟨some database, atomic⟩ scope es
  | [], _ => rfl
  | e :: rest, scope => by
    rw [operandsQualified, exprs, exprs, expr_qualified e scope,
      exprs_qualified rest scope]

theorem lastExpr_qualified :
    ∀ (es : List Expr) (scope : Nat),
      lastExpr ⟨other, atomic⟩ scope
          (operandsQualified (explicitDatabase i j database) es) =
        lastExpr ⟨some database, atomic⟩ scope es
  | [], _ => rfl
  | [e], scope => expr_qualified e scope
  | _ :: e :: rest, scope => lastExpr_qualified (e :: rest) scope

theorem exprOptions_qualified :
    ∀ (es : List (String × Expr)) (scope : Nat),
      exprOptions ⟨other, atomic⟩ scope
          (optionsQualified (explicitDatabase i j database) es) =
        exprOptions ⟨some database, atomic⟩ scope es
  | [], _ => rfl
  | (name, e) :: rest, scope => by
    rw [optionsQualified, exprOptions, exprOptions, expr_qualified e scope,
      exprOptions_qualified rest scope]

end

end

end Compile

/-! ## Shapes -/

namespace Expr

theorem names_optionsQualified (db : Expr) (options : Fields Expr) :
    Fields.names (optionsQualified db options) = Fields.names options := by
  induction options with
  | nil => rfl
  | cons first rest ih =>
      simp only [optionsQualified, Fields.names, List.map_cons] at ih ⊢
      rw [ih]

theorem shaped_explicitDatabase (i j : NodeId) (database : String) :
    ∀ n ∈ (explicitDatabase i j database).nodes, n.Shaped := by
  have hname : Shaped ⟨j, .literal (.string database), [], []⟩ := .literal trivial
  have hself : (explicitDatabase i j database).Shaped := .database rfl
  simpa [explicitDatabase, nodes, operandNodes, optionNodes] using
    ⟨hself, hname⟩

theorem Shaped.qualified {i j : NodeId} {database : String} {e : Expr}
    (he : e.Shaped) :
    (Expr.qualified (explicitDatabase i j database) e).Shaped := by
  have hkind : ∀ {x : Expr} {kind : NodeKind}, x.kind = kind →
      (Expr.qualified (explicitDatabase i j database) x).kind = kind := by
    intro x kind hx
    rw [qualified_kind, hx]
  cases he with
  | literal hordered => exact .literal hordered
  | parameter => exact .parameter
  | database hname => exact .database (hkind hname)
  | @table k db name text hdb hname hplain =>
      cases db with
      | none =>
          have hdatabase : ∀ e ∈ some (explicitDatabase i j database),
              e.kind = .database := by
            simp [explicitDatabase]
          exact .table hdatabase (hkind hname) hplain
      | some db =>
          have hdatabase : ∀ e ∈ some
              (Expr.qualified (explicitDatabase i j database) db),
              e.kind = .database := by
            simpa using hkind (hdb db rfl)
          exact .table hdatabase (hkind hname) hplain
  | @function k parameters body hkinds hnodup =>
      have hparameters : ∀ x ∈ parameters.map
          (Expr.qualified (explicitDatabase i j database)),
          x.kind = .parameter := by
        intro x hx
        obtain ⟨parameter, hparameter, rfl⟩ := List.mem_map.1 hx
        exact hkind (hkinds parameter hparameter)
      have hids : ((parameters.map
          (Expr.qualified (explicitDatabase i j database))).map Expr.id).Nodup := by
        rw [List.map_map]
        simpa only [Function.comp_def, qualified_id] using hnodup
      rw [Expr.qualified, withDatabase_of_ne _ (by simp),
        operandsQualified_eq_map, List.map_append, List.map_singleton]
      exact .function hparameters hids
  | operator hplain harity hsorted =>
      rw [Expr.qualified, withDatabase_of_ne _ (by simp)]
      refine .operator hplain ?_ ?_
      · rwa [length_operandsQualified]
      · rwa [Fields.sorted_iff_names, names_optionsQualified,
          ← Fields.sorted_iff_names]

/-- The operands of a node are shaped together with the database put before
them. -/
theorem shaped_withDatabase {i j : NodeId} {database : String} (kind : NodeKind)
    {operands : List Expr} (h : ∀ n ∈ operandNodes operands, n.Shaped) :
    ∀ n ∈ operandNodes
      (kind.withDatabase (explicitDatabase i j database) operands), n.Shaped := by
  by_cases hkind : kind = .table
  · subst hkind
    rcases operands with _ | ⟨name, _ | ⟨second, rest⟩⟩
    · exact h
    · rw [NodeKind.withDatabase, operandNodes, List.forall_mem_append]
      exact ⟨shaped_explicitDatabase i j database, h⟩
    · exact h
  · rwa [withDatabase_of_ne _ hkind]

mutual

theorem shaped_qualified (i j : NodeId) (database : String) :
    ∀ e : Expr, (∀ n ∈ e.nodes, n.Shaped) →
      ∀ n ∈ (qualified (explicitDatabase i j database) e).nodes, n.Shaped
  | ⟨k, kind, operands, options⟩, h => by
    obtain ⟨hself, hoperands, hoptions⟩ := forall_nodes.1 h
    refine forall_nodes.2 ⟨hself.qualified, ?_, ?_⟩
    · exact shaped_withDatabase kind
        (shaped_operandsQualified i j database operands hoperands)
    · exact shaped_optionsQualified i j database options hoptions

theorem shaped_operandsQualified (i j : NodeId) (database : String) :
    ∀ es : List Expr, (∀ n ∈ operandNodes es, n.Shaped) →
      ∀ n ∈ operandNodes
        (operandsQualified (explicitDatabase i j database) es), n.Shaped
  | [], h => h
  | e :: rest, h => by
    rw [operandNodes, List.forall_mem_append] at h
    rw [operandsQualified, operandNodes, List.forall_mem_append]
    exact ⟨shaped_qualified i j database e h.1,
      shaped_operandsQualified i j database rest h.2⟩

theorem shaped_optionsQualified (i j : NodeId) (database : String) :
    ∀ es : List (String × Expr), (∀ n ∈ optionNodes es, n.Shaped) →
      ∀ n ∈ optionNodes
        (optionsQualified (explicitDatabase i j database) es), n.Shaped
  | [], h => h
  | (name, e) :: rest, h => by
    rw [optionNodes, List.forall_mem_append] at h
    rw [optionsQualified, optionNodes, List.forall_mem_append]
    exact ⟨shaped_qualified i j database e h.1,
      shaped_optionsQualified i j database rest h.2⟩

end

/-- An expression compiles under a default database as it does with the database
put before every table that has none, whatever is the default then; and so does
any expression with that tree. -/
theorem compileWithWarnings_qualified (e : Expr) (i j : NodeId)
    (database : String) (other : Option String) (atomic : Bool) :
    (qualified (explicitDatabase i j database) e).compileWithWarnings
        ⟨other, atomic⟩ =
      e.compileWithWarnings ⟨some database, atomic⟩ ∧
    (e.Obtainable → ∀ q : Expr, q.Obtainable →
      q.nameless [] = (qualified (explicitDatabase i j database) e).nameless [] →
      q.compileWithWarnings ⟨other, atomic⟩ =
        e.compileWithWarnings ⟨some database, atomic⟩) := by
  have hqualified :
      (qualified (explicitDatabase i j database) e).compileWithWarnings
          ⟨other, atomic⟩ =
        e.compileWithWarnings ⟨some database, atomic⟩ := by
    rw [compileWithWarnings, compileWithWarnings, Compile.expr_qualified]
  refine ⟨hqualified, fun he q hq hsame => ?_⟩
  have hshaped := shaped_qualified i j database e he.sound.shaped
  rw [← hqualified]
  exact compileWithWarnings_of_nameless hq.sound.shaped hshaped hsame _

/-- An update whose body reads the table that it writes to. -/
def selfReading : Expr :=
  let written : Expr := ⟨1, .table, [⟨0, .literal (.string "t"), [], []⟩], []⟩
  ⟨4, .operator .update,
    [written, ⟨3, .function, [⟨2, .parameter, [], []⟩, written], []⟩], []⟩

theorem selfReading_obtainable : selfReading.Obtainable := by
  refine ⟨Expr.table "t" >>= fun t => Expr.update t fun _ => pure t, ?_, rfl⟩
  refine .bind .table fun t => .update ?_ fun _ => .give ?_
  all_goals simp

/-- The same update of a table of the given database. -/
def selfReadingIn (database : String) : Expr :=
  let written : Expr :=
    ⟨3, .table, [explicitDatabase 1 0 database,
      ⟨2, .literal (.string "t"), [], []⟩], []⟩
  ⟨6, .operator .update,
    [written, ⟨5, .function, [⟨4, .parameter, [], []⟩, written], []⟩], []⟩

theorem selfReadingIn_obtainable : (selfReadingIn "prod").Obtainable := by
  refine ⟨Expr.database "prod" >>= fun db => Expr.tableIn db "t" >>= fun t =>
    Expr.update t fun _ => pure t, ?_, rfl⟩
  refine .bind .database fun db => .bind (.tableIn ?_) fun t =>
    .update ?_ fun _ => .give ?_
  all_goals simp

/-- Both ways the server will refuse the write for the same reason. -/
theorem selfReading_compileWithWarnings_qualified :
    (selfReadingIn "prod").compileWithWarnings ⟨some "test", true⟩ =
      selfReading.compileWithWarnings ⟨some "prod", true⟩ ∧
    (selfReading.compileWithWarnings ⟨some "prod", true⟩).2 =
      [⟨.update, .readsTable "t"⟩] := by
  have hqualified := compileWithWarnings_qualified selfReading 1 0 "prod"
    (some "test") true
  exact ⟨hqualified.2 selfReading_obtainable _ selfReadingIn_obtainable rfl, rfl⟩

end Expr

end DocumentQuery
