import DocumentQuery.Expr.Relation
import DocumentQuery.Proofs.DefaultDatabase
import DocumentQuery.Proofs.TermPurity

/-!
# Spelling out the default database

A table, its creation, its removal and the list of all tables may be asked for
without a database, and then fall back to the default one.  The database may
instead be spelled out before the operands.  A body that is deterministic with
all of its databases spelled out is deterministic without, and the other way
around as long as it asks for no list of tables.  The bare list is no reason
against a body, although the database before it is one.
-/

open DocumentQuery.Expr

namespace DocumentQuery

/-- A node with these operands falls back to the default database. -/
inductive FallsBack : NodeKind → List Expr → Prop where
  | table {name : Expr} : FallsBack .table [name]
  | tableTerm {name : Expr} : FallsBack (.operator .table) [name]
  | create {name : Expr} : FallsBack (.operator .tableCreate) [name]
  | drop {name : Expr} : FallsBack (.operator .tableDrop) [name]
  | list : FallsBack (.operator .tableList) []

/-- A list of the tables of the default database. -/
def Expr.IsBareListing (e : Expr) : Prop :=
  e.kind = .operator .tableList ∧ e.operands = []

mutual

/-- Every node that falls back to the default database, and no other, has the
database before its operands instead.  Nodes may have other identities. -/
inductive Respelled (database : String) : Expr → Expr → Prop where
  | kept {i i' : NodeId} {kind : NodeKind} {operands operands' : List Expr}
      {options options' : Fields Expr} :
      ¬ FallsBack kind operands →
      RespelledOperands database operands operands' →
      RespelledOptions database options options' →
      Respelled database ⟨i, kind, operands, options⟩
        ⟨i', kind, operands', options'⟩
  | named {i i' j k : NodeId} {kind : NodeKind} {operands operands' : List Expr}
      {options options' : Fields Expr} :
      FallsBack kind operands →
      RespelledOperands database operands operands' →
      RespelledOptions database options options' →
      Respelled database ⟨i, kind, operands, options⟩
        ⟨i', kind, explicitDatabase j k database :: operands', options'⟩

inductive RespelledOperands (database : String) :
    List Expr → List Expr → Prop where
  | nil : RespelledOperands database [] []
  | cons {e e' : Expr} {rest rest' : List Expr} :
      Respelled database e e' → RespelledOperands database rest rest' →
      RespelledOperands database (e :: rest) (e' :: rest')

inductive RespelledOptions (database : String) :
    Fields Expr → Fields Expr → Prop where
  | nil : RespelledOptions database [] []
  | cons {name : String} {e e' : Expr} {rest rest' : Fields Expr} :
      Respelled database e e' → RespelledOptions database rest rest' →
      RespelledOptions database ((name, e) :: rest) ((name, e') :: rest')

end

mutual

/-- Every expression can be respelled, with any database. -/
theorem exists_respelled (database : String) :
    ∀ e : Expr, ∃ e', Respelled database e e'
  | ⟨i, kind, operands, options⟩ => by
    obtain ⟨operands', hoperands⟩ := exists_respelledOperands database operands
    obtain ⟨options', hoptions⟩ := exists_respelledOptions database options
    by_cases hfalls : FallsBack kind operands
    · exact ⟨⟨i, kind, explicitDatabase i i database :: operands', options'⟩,
        .named hfalls hoperands hoptions⟩
    · exact ⟨⟨i, kind, operands', options'⟩, .kept hfalls hoperands hoptions⟩

theorem exists_respelledOperands (database : String) :
    ∀ es : List Expr, ∃ es', RespelledOperands database es es'
  | [] => ⟨[], .nil⟩
  | e :: rest => by
    obtain ⟨e', he⟩ := exists_respelled database e
    obtain ⟨rest', hrest⟩ := exists_respelledOperands database rest
    exact ⟨e' :: rest', .cons he hrest⟩

theorem exists_respelledOptions (database : String) :
    ∀ es : Fields Expr, ∃ es', RespelledOptions database es es'
  | [] => ⟨[], .nil⟩
  | (name, e) :: rest => by
    obtain ⟨e', he⟩ := exists_respelled database e
    obtain ⟨rest', hrest⟩ := exists_respelledOptions database rest
    exact ⟨(name, e') :: rest', .cons he hrest⟩

end

/-! ## The verdict -/

theorem NodeKind.impurity?_eq_none_congr (kind : NodeKind) (es es' : List Expr) :
    kind.impurity? es = none ↔ kind.impurity? es' = none := by
  cases kind with
  | table => exact iff_of_false (Option.some_ne_none _) (Option.some_ne_none _)
  | _ => rfl

/-- Of the nodes that fall back to the default database, only the list of tables
is no reason. -/
theorem FallsBack.impurity?_eq_none {kind : NodeKind} {operands : List Expr}
    (h : FallsBack kind operands) (hpure : kind.impurity? operands = none) :
    kind = .operator .tableList ∧ operands = [] := by
  cases h with
  | list => exact ⟨rfl, rfl⟩
  | _ => cases hpure

theorem explicitDatabase_impure (j k : NodeId) (database : String) :
    (explicitDatabase j k database).impurity? ≠ none :=
  nofun

mutual

/-- A body with its databases spelled out is deterministic just if it was so
before and lists no tables of the default database. -/
theorem Respelled.deterministic_iff {database : String} {e e' : Expr} :
    Respelled database e e' →
      (e'.impurity? = none ↔
        e.impurity? = none ∧ ∀ n ∈ e.nodes, ¬ n.IsBareListing)
  | @Respelled.kept _ i _ kind operands operands' options _ hkeeps hoperands
      hoptions => by
    have hself : ¬ IsBareListing ⟨i, kind, operands, options⟩ := by
      rintro ⟨rfl, rfl⟩
      exact hkeeps .list
    rw [impurity?_mk, impurity?_mk, forall_nodes, and_iff_right hself,
      kind.impurity?_eq_none_congr operands' operands,
      hoperands.deterministic_iff, hoptions.deterministic_iff,
      and_and_and_comm]
    exact and_assoc.symm
  | @Respelled.named _ _ _ j k kind operands operands' options _ hfalls _ _ => by
    -- The database is a reason, so neither side can hold.
    rw [impurity?_mk, operandsImpurity?_cons, impurity?_mk, forall_nodes]
    refine iff_of_false (fun h => explicitDatabase_impure j k database h.2.1.1) ?_
    rintro ⟨⟨hpure, -⟩, hself, -⟩
    exact hself (hfalls.impurity?_eq_none hpure)

theorem RespelledOperands.deterministic_iff {database : String}
    {es es' : List Expr} :
    RespelledOperands database es es' →
      (operandsImpurity? es' = none ↔
        operandsImpurity? es = none ∧
          ∀ n ∈ operandNodes es, ¬ n.IsBareListing)
  | .nil => by simp [operandsImpurity?, operandNodes]
  | .cons he hrest => by
    rw [operandsImpurity?_cons, operandsImpurity?_cons, operandNodes,
      List.forall_mem_append, he.deterministic_iff,
      hrest.deterministic_iff, and_and_and_comm]

theorem RespelledOptions.deterministic_iff {database : String}
    {es es' : Fields Expr} :
    RespelledOptions database es es' →
      (optionsImpurity? es' = none ↔
        optionsImpurity? es = none ∧ ∀ n ∈ optionNodes es, ¬ n.IsBareListing)
  | .nil => by simp [optionsImpurity?, optionNodes]
  | .cons he hrest => by
    rw [optionsImpurity?_cons, optionsImpurity?_cons, optionNodes,
      List.forall_mem_append, he.deterministic_iff,
      hrest.deterministic_iff, and_and_and_comm]

end

/-! ## Building both spellings -/

/-- Both fail alike, or both give expressions of which the second has the
database spelled out. -/
inductive RespelledResult (database : String) :
    Except BuildFault Expr → Except BuildFault Expr → Prop where
  | built {e e' : Expr} :
      Respelled database e e' → RespelledResult database (.ok e) (.ok e')
  | failed (cause : BuildFault) :
      RespelledResult database (.error cause) (.error cause)

def BuildsRespelled (database : String) (bare named : Build Expr) : Prop :=
  ∀ i i' : NodeId, RespelledResult database (bare i).1 (named i').1

theorem Respelled.literal (database : String) (i i' : NodeId) (value : Datum) :
    Respelled database ⟨i, .literal value, [], []⟩ ⟨i', .literal value, [], []⟩ :=
  .kept nofun .nil .nil

section

variable {name : String} (hname : IsPlainName name)

include hname

theorem database_apply (i : NodeId) :
    (Expr.database name : Build Expr) i =
      (.ok (explicitDatabase (i + 1) i name), i + 2) := by
  unfold Expr.database
  rw [checkName_eq_ok_iff.2 hname]
  rfl

theorem buildsRespelled_of_in {bare : Build Expr} {named : Expr → Build Expr}
    (h : ∀ i i' j k, RespelledResult name (bare i).1
      (named (explicitDatabase j k name) i').1) :
    BuildsRespelled name bare (Expr.database name >>= named) := by
  intro i i'
  rw [fallible_bind_apply, database_apply hname]
  exact h i (i' + 2) (i' + 1) i'

theorem buildsRespelled_table (table : String) :
    BuildsRespelled name (Expr.table table)
      (Expr.database name >>= fun db => db.tableIn table) := by
  refine buildsRespelled_of_in hname fun i i' j k => ?_
  change RespelledResult name ((tableOf none table : Build Expr) i).1
    ((tableOf (some (explicitDatabase j k name)) table : Build Expr) i').1
  unfold tableOf
  cases checkName .table table with
  | error cause => exact .failed cause
  | ok => exact .built (.named .table (.cons (.literal ..) .nil) .nil)

theorem buildsRespelled_createTable (spec : TableSpec) :
    BuildsRespelled name (createTable spec)
      (Expr.database name >>= fun db => db.createTableIn spec) := by
  refine buildsRespelled_of_in hname fun i i' j k => ?_
  change RespelledResult name ((createTableOf none spec : Build Expr) i).1
    ((createTableOf (some (explicitDatabase j k name)) spec : Build Expr) i').1
  unfold createTableOf
  cases checkName .table spec.name with
  | error cause => exact .failed cause
  | ok =>
      cases spec.primaryKey with
      | none => exact .built (.named .create (.cons (.literal ..) .nil) .nil)
      | some key =>
          cases hempty : key.isEmpty with
          | true =>
              simp only [hempty]
              exact .failed _
          | false =>
              simp only [hempty]
              exact .built (.named .create (.cons (.literal ..) .nil)
                (.cons (.literal ..) .nil))

theorem buildsRespelled_dropTable (table : String) :
    BuildsRespelled name (dropTable table)
      (Expr.database name >>= fun db => db.dropTableIn table) := by
  refine buildsRespelled_of_in hname fun i i' j k => ?_
  change RespelledResult name ((dropTableOf none table : Build Expr) i).1
    ((dropTableOf (some (explicitDatabase j k name)) table : Build Expr) i').1
  unfold dropTableOf
  cases checkName .table table with
  | error cause => exact .failed cause
  | ok => exact .built (.named .drop (.cons (.literal ..) .nil) .nil)

theorem buildsRespelled_listTables :
    BuildsRespelled name listTables
      (Expr.database name >>= fun db => db.listTablesIn) :=
  buildsRespelled_of_in hname fun _ _ _ _ => .built (.named .list .nil .nil)

end

/-! ## What the spelling changes -/

/-- Only a list of the tables of the default database is judged otherwise when
the database is spelled out: then it is a reason, and without it was none. -/
theorem Respelled.verdict_unless_listing {database : String} {e e' : Expr}
    (h : Respelled database e e') :
    ((∀ n ∈ e.nodes, ¬ n.IsBareListing) →
      (e'.impurity? = none ↔ e.impurity? = none)) ∧
    ∀ n ∈ e.nodes, n.IsBareListing → e'.impurity? ≠ none := by
  refine ⟨fun hbare => ?_, fun n hn hbare hpure => ?_⟩
  · rw [h.deterministic_iff, and_iff_left hbare]
  · exact (h.deterministic_iff.1 hpure).2 n hn hbare

/-- The tables of the default database, and those of one by its name. -/
def bareListing : Expr := ⟨0, .operator .tableList, [], []⟩

def namedListing : Expr :=
  ⟨2, .operator .tableList, [explicitDatabase 1 0 "d"], []⟩

theorem respelled_listing : Respelled "d" bareListing namedListing :=
  .named .list .nil .nil

/-- The rows of a table of the default database, and those of one of a database by
its name, counted. -/
def bareCount : Expr :=
  ⟨2, .operator .count, [⟨1, .table, [⟨0, .literal (.string "t"), [], []⟩], []⟩], []⟩

def namedCount : Expr :=
  ⟨4, .operator .count,
    [⟨3, .table, [explicitDatabase 1 0 "d", ⟨2, .literal (.string "t"), [], []⟩], []⟩], []⟩

theorem respelled_count : Respelled "d" bareCount namedCount := by
  have htable : Respelled "d" ⟨1, .table, [⟨0, .literal (.string "t"), [], []⟩], []⟩
      ⟨3, .table, [explicitDatabase 1 0 "d", ⟨2, .literal (.string "t"), [], []⟩], []⟩ :=
    .named .table (.cons (.literal ..) .nil) .nil
  exact .kept nofun (.cons htable .nil) .nil

/-- Counting the rows of a table is a reason in both spellings, and a list of tables
is one where its database is spelled out. -/
theorem verdict_namedListing :
    Respelled "d" bareCount namedCount ∧
    bareCount.impurity? = some (.readsTable "t") ∧ namedCount.impurity? ≠ none ∧
    Respelled "d" bareListing namedListing ∧ namedListing.impurity? ≠ none := by
  have hcount : ∀ n ∈ bareCount.nodes, ¬ n.IsBareListing := by
    simp [bareCount, nodes, operandNodes, optionNodes, IsBareListing]
  have hsame := respelled_count.verdict_unless_listing.1 hcount
  have hlisting := respelled_listing.verdict_unless_listing.2 bareListing
    (by simp [bareListing, nodes]) ⟨rfl, rfl⟩
  have hnamed : namedCount.impurity? ≠ none := by
    rw [ne_eq, hsame]
    exact nofun
  exact ⟨respelled_count, rfl, hnamed, respelled_listing, hlisting⟩

/-- A bare list of tables is deterministic, and with its database it is not. -/
theorem listing_verdict_differs :
    ((listTables : Build Expr) 0).1 = .ok bareListing ∧
      ((Expr.database "d" >>= fun db => db.listTablesIn : Build Expr) 0).1 =
        .ok namedListing ∧
      Respelled "d" bareListing namedListing ∧
      bareListing.impurity? = none ∧
      namedListing.impurity? = some .readsDatabase ∧
      ¬ (bareListing.impurity? = none ↔ namedListing.impurity? = none) := by
  have hcheck : checkName .database "d" = .ok () := rfl
  have hnamed : IsPlainName "d" := checkName_eq_ok_iff.1 hcheck
  refine ⟨rfl, ?_, respelled_listing, rfl, rfl, by decide⟩
  rw [fallible_bind_apply, database_apply hnamed]
  rfl

end DocumentQuery
