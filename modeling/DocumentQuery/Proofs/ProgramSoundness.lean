import DocumentQuery.Proofs.BuilderInvariant

/-!
# Soundness of obtainable expressions

Each builder is followed through its steps once, for any known expressions and
any bodies, and an induction over programs puts them together.  It yields that
every expression a caller can get from the builders is sound: its nodes have
their shape, among them the number of operands that each operator takes.
-/

open DocumentQuery.Expr

namespace DocumentQuery

variable {known : Set Expr}

theorem accepts_iff {arity : Arity} {n : ℕ} :
    arity.accepts n ↔ arity.least ≤ n ∧ ∀ most ∈ arity.most, n ≤ most := by
  rcases arity with ⟨least, _ | most⟩ <;> simp [Arity.accepts]

/-! ## Collections of constants -/

theorem ordered_of_literal? {e : Expr} {value : Datum} (hshaped : e.Shaped)
    (hvalue : e.literal? = some value) : value.Ordered := by
  cases hshaped with
  | literal h => exact Option.some.inj hvalue ▸ h
  | database | table | parameter | function | operator => cases hvalue

theorem exists_mem_of_mapM {α β : Type} {f : α → Option β} {as : List α}
    {bs : List β} (h : as.mapM f = some bs) {b : β} (hb : b ∈ bs) :
    ∃ a ∈ as, f a = some b := by
  induction as generalizing bs with
  | nil =>
      cases h
      cases hb
  | cons a rest ih =>
      simp only [List.mapM_cons, Option.bind_eq_bind, Option.bind_eq_some_iff,
        Option.pure_def, Option.some.injEq] at h
      obtain ⟨first, hfirst, others, hothers, rfl⟩ := h
      rcases List.mem_cons.1 hb with rfl | hb
      · exact ⟨a, List.mem_cons_self, hfirst⟩
      · obtain ⟨source, hsource, hvalue⟩ := ih hothers hb
        exact ⟨source, List.mem_cons_of_mem _ hsource, hvalue⟩

theorem itemsOrdered_of_literals? {items : List Expr} {values : List Datum}
    (hshaped : ∀ e ∈ items, e.Shaped)
    (hvalues : literals? items = some values) :
    Datum.ItemsOrdered values := by
  refine Datum.itemsOrdered_iff.2 fun value hmem => ?_
  obtain ⟨e, he, hvalue⟩ := exists_mem_of_mapM hvalues hmem
  exact ordered_of_literal? (hshaped e he) hvalue

theorem literalFields?_eq_some {fields : Fields Expr} {values : Fields Datum}
    (hshaped : ∀ field ∈ fields, field.2.Shaped)
    (hvalues : literalFields? fields = some values) :
    Fields.names values = Fields.names fields ∧ Datum.FieldsOrdered values := by
  induction fields generalizing values with
  | nil =>
      cases hvalues
      exact ⟨rfl, trivial⟩
  | cons field rest ih =>
      simp only [literalFields?, List.mapM_cons, Option.bind_eq_bind,
        Option.bind_eq_some_iff]
        at hvalues
      obtain ⟨_, ⟨value, hvalue, hpair⟩, others, hothers, heq⟩ := hvalues
      cases hpair
      cases heq
      obtain ⟨hnames, hordered⟩ :=
        ih (fun x hx => hshaped x (List.mem_cons_of_mem _ hx)) hothers
      refine ⟨?_, ordered_of_literal? (hshaped field List.mem_cons_self) hvalue,
        hordered⟩
      simp only [Fields.names, List.map_cons] at hnames ⊢
      rw [hnames]

theorem Fields.sorted_iff_names {α : Type} {fields : Fields α} :
    Fields.Sorted fields ↔ (Fields.names fields).Pairwise (· < ·) := by
  rw [Fields.Sorted, Fields.names, List.pairwise_map]

theorem Fields.mem_of_mem_ofList {α : Type} {pairs : List (String × α)}
    {pair : String × α} (h : pair ∈ Fields.ofList pairs) : pair ∈ pairs := by
  suffices ∀ fields : Fields α,
      pair ∈ pairs.foldl
        (fun fields field => Fields.insert field.1 field.2 fields) fields →
        pair ∈ fields ∨ pair ∈ pairs by
    simpa using this [] h
  clear h
  induction pairs with
  | nil => exact fun _ h => .inl h
  | cons first rest ih =>
      intro fields h
      rcases ih _ h with h | h
      · rcases Fields.mem_insert h with rfl | h
        · exact .inr List.mem_cons_self
        · exact .inl h
      · exact .inr (List.mem_cons_of_mem _ h)

theorem Keeps.array {items : List Expr} (hitems : ∀ e ∈ items, e ∈ known) :
    Keeps known single (Expr.array items) := by
  intro next built kept hvalid hknown hkept
  unfold Expr.array
  cases hvalues : literals? items with
  | some values =>
      have hordered : Datum.ItemsOrdered values :=
        itemsOrdered_of_literals?
          (fun e he => hvalid.shaped e (hknown (hitems e he))) hvalues
      exact Keeps.literal (by simpa [Datum.Ordered]) next built kept hvalid
        hknown hkept
  | none =>
      exact Keeps.operator (by simp [IsPlain])
        (by simp [TermKind.arity, Arity.atLeast, Arity.accepts])
        hitems next built kept hvalid hknown hkept

theorem Keeps.object {pairs : List (String × Expr)}
    (hpairs : ∀ pair ∈ pairs, pair.2 ∈ known) :
    Keeps known single (Expr.object pairs) := by
  have hfields : ∀ field ∈ Fields.ofList pairs, field.2 ∈ known :=
    fun field hfield => hpairs field (Fields.mem_of_mem_ofList hfield)
  intro next built kept hvalid hknown hkept
  unfold Expr.object
  cases hvalues : literalFields? (Fields.ofList pairs) with
  | some values =>
      obtain ⟨hnames, hordered⟩ := literalFields?_eq_some
        (fun field hfield => hvalid.shaped _ (hknown (hfields field hfield)))
          hvalues
      have hsorted : Fields.Sorted values := by
        rw [Fields.sorted_iff_names, hnames, ← Fields.sorted_iff_names]
        exact Fields.sorted_ofList pairs
      have hvalue : (Datum.object values).Ordered := ⟨hsorted, hordered⟩
      exact Keeps.literal hvalue next built kept hvalid hknown hkept
  | none =>
      exact Keeps.operatorWith (by simp [IsPlain])
        (by simp [TermKind.arity, Arity.atLeast, Arity.accepts])
          (Fields.sorted_ofList pairs)
        (by simp) hfields next built kept hvalid hknown hkept

/-! ## Fields, names and bindings -/

theorem Keeps.texts {names : List String} :
    Keeps known several (names.mapM (Expr.text : String → Caller Expr)) :=
  (Keeps.mapM fun _ _ => Keeps.text).gives_mono fun _ e he => ⟨e, he, rfl⟩

theorem kind_of_gives_text {value : String} {e : Expr}
    (h : Caller.Gives (Expr.text value) e) :
    e.kind = .literal (.string value) := by
  obtain ⟨next, kept, h⟩ := h
  cases h
  rfl

/-- An operator on an expression and on what a step makes of some items, of
which there is one at least. -/
theorem Keeps.operator_mapM {α : Type} {kind : TermKind} (hplain : IsPlain kind)
    (harity : kind.arity = .atLeast 2) {e : Expr} (he : e ∈ known)
    {f : α → Caller Expr}
    (hf : ∀ a, Keeps known single (f a)) {items : List α}
    (hitems : items ≠ []) :
    Keeps known single (do Expr.operator kind (e :: (← items.mapM f))) := by
  apply Keeps.bind (.mapM fun a _ => hf a)
  intro es hes
  have hlength := Caller.length_of_gives_mapM hes
  have hpos := List.length_pos_of_ne_nil hitems
  apply Keeps.operator hplain
  · apply accepts_iff.2
    simp only [harity, Arity.atLeast, List.length_cons]
    simp only [Option.mem_def, reduceCtorEq, false_implies, implies_true,
      and_true]
    omega
  · rintro x (_ | ⟨_, hx⟩)
    · exact .inl he
    · exact .inr ⟨x, hx, rfl⟩

/-- A failing step has no rest. -/
theorem Keeps.fail_bind {α : Type} {cause : BuildFault} {rest : α → Caller Expr}
    (hcause : ¬ cause.IsBroken) :
    Keeps known single (Build.fail cause >>= rest) := by
  have hfail : Keeps known nothing (Build.fail cause : Caller α) := .fail hcause
  apply hfail.bind
  rintro a ⟨next, kept, ⟨⟩⟩

theorem Keeps.checkFields {operation : String} {names : List String}
    {rest : Caller Expr} (hrest : names ≠ [] → Keeps known single rest) :
    Keeps known single (Expr.checkFields operation names >>= fun _ =>
      rest) := by
  unfold Expr.checkFields
  split
  · exact .fail_bind id
  · next hsome =>
    split
    · exact .fail_bind id
    · rw [pure_bind]
      exact hrest (by simpa using hsome)

theorem Keeps.onFields {kind : TermKind} (hplain : IsPlain kind)
    (harity : kind.arity = .atLeast 2) {operation : String} {e : Expr}
    (he : e ∈ known)
    {names : List String} :
    Keeps known single (Expr.onFields kind operation e names) :=
  .checkFields fun hnames => .operator_mapM hplain harity he (fun _ => .text)
    hnames

theorem Keeps.checkName {entity : Entity} {name : String} {rest : Caller Expr}
    (hrest : IsPlainName name → Keeps known single rest) :
    Keeps known single (liftM (DocumentQuery.checkName entity name) >>= fun _ =>
      rest) := by
  have hcause : ∀ cause, DocumentQuery.checkName entity name = .error cause →
      ¬ cause.IsBroken := by
    intro cause h
    unfold DocumentQuery.checkName at h
    split at h
    · cases h
      exact id
    · split at h
      · cases h
      · cases h
        exact id
  have hcheck :
      Keeps known nothing (liftM (DocumentQuery.checkName entity name)) :=
    .check (fun _ => Set.empty_subset _) hcause
  refine hcheck.bind fun _ hgives => ?_
  have hname : IsPlainName name := checkName_eq_ok_iff.1 (Caller.eq_ok_of_gives hgives)
  exact (hrest hname).mono Set.subset_union_left

theorem Keeps.expectDatabase {db : Expr} {operation : String}
    {rest : Caller Expr}
    (hrest : db.kind = .database → Keeps known single rest) :
    Keeps known single (db.expectDatabase operation >>= fun _ => rest) := by
  unfold Expr.expectDatabase
  split
  · next hkind =>
    rw [pure_bind]
    exact hrest hkind
  · exact .fail_bind id

theorem Keeps.groupBy {e : Expr} (he : e ∈ known) {names : List String}
    {reduction : Reduction} :
    Keeps known single (Expr.groupBy e names reduction) := by
  apply Keeps.checkFields
  intro _
  apply Keeps.bind .texts
  intro es _
  apply Keeps.bind (Keeps.array fun x hx => .inr hx)
  intro keys _
  apply Keeps.bind (Keeps.literal _)
  · intro value _
    exact .operator (by simp [IsPlain]) rfl (by simp [single, he])
  · cases reduction <;>
      simp [Reduction.toDatum, Datum.Ordered, Datum.FieldsOrdered,
        Fields.Sorted]

theorem Keeps.sortKey {key : SortKey} :
    Keeps known single (key.toExpr : Caller Expr) := by
  cases key <;>
    exact .bind .text fun t _ => .operator (by simp [IsPlain]) rfl
      (by simp [single])

theorem Keeps.orderBy {e : Expr} (he : e ∈ known) {keys : List SortKey} :
    Keeps known single (Expr.orderBy e keys) := by
  unfold Expr.orderBy
  split
  · exact .fail id
  · next hsome =>
    split
    · exact .fail id
    · exact .operator_mapM (by simp [IsPlain]) rfl he (fun _ => .sortKey)
        (by simpa using hsome)

theorem Keeps.letIn {bindings : List (String × Expr)}
    {body : LetScope → Caller Expr}
    (hbindings : ∀ binding ∈ bindings, binding.2 ∈ known)
    (hbody : ∀ scope : LetScope,
      Keeps (known ∪ {x | ∃ binding ∈ scope.bindings, binding.2 = x}) single
        (body scope)) :
    Keeps known single (Expr.letIn bindings body) := by
  unfold Expr.letIn
  simp only
  split
  · exact .fail id
  · have hcallee : Keeps known single
        ((bindings.map Prod.fst).mapM
          (fun _ => (Expr.parameter : Caller Expr)) >>= fun ps =>
          body ⟨(bindings.map Prod.fst).zip ps⟩ >>= Expr.function ps) := by
      intro next built kept hvalid hknown hkept
      rw [Caller.bind_apply, mapM_parameter_apply]
      apply Ends.function _ hvalid hknown hkept
      apply (hbody _).mono
      apply Set.union_subset_union_right
      rintro x ⟨binding, hbinding, rfl⟩
      exact (List.of_mem_zip hbinding).2
    have hcall : ∀ callee, Keeps (known ∪ single callee) single
        (Expr.operator .funcall (callee :: bindings.map Prod.snd)) := by
      intro callee
      apply Keeps.operator (by simp [IsPlain])
      · simp [TermKind.arity, Arity.atLeast, Arity.accepts]
      · rintro x (_ | ⟨_, hx⟩)
        · exact .inr rfl
        · obtain ⟨binding, hbinding, rfl⟩ := List.mem_map.1 hx
          exact .inl (hbindings binding hbinding)
    simpa only [bind_assoc] using hcallee.bind fun callee _ => hcall callee

theorem Keeps.scopeVariable {scope : LetScope} {name : String}
    (hscope : ∀ binding ∈ scope.bindings, binding.2 ∈ known) :
    Keeps known single (scope.variable name : Caller Expr) := by
  unfold LetScope.variable
  split
  · next binding hfind =>
    exact .pure
      (Set.singleton_subset_iff.2 (hscope _ (List.mem_of_find?_eq_some hfind)))
  · exact .fail id

/-! ## Databases, tables and ranges -/

theorem Keeps.database {name : String} :
    Keeps known single (Expr.database name) := by
  refine .checkName fun _ => ?_
  apply Keeps.bind .text
  intro text htext
  exact .node (fun _ => .database (kind_of_gives_text htext)) (by simp)
    (by simp [single])
    (by simp)

theorem Keeps.tableOf {db : Option Expr} {name : String}
    (hdb : ∀ e ∈ db, e ∈ known ∧ e.kind = .database) :
    Keeps known single (Expr.tableOf db name) := by
  refine .checkName fun hname => ?_
  apply Keeps.bind .text
  intro text htext
  apply Keeps.node
    (fun _ => .table (fun e he => (hdb e he).2) (kind_of_gives_text htext) hname)
    (by simp) _ (by simp)
  intro x hx
  rcases List.mem_append.1 hx with hx | hx
  · exact .inl (hdb x (Option.mem_toList.1 hx)).1
  · exact .inr (List.mem_singleton.1 hx)

/-- An operator on a database, if there is one, and a name. -/
theorem Keeps.operatorWith_name {kind : TermKind} (hplain : IsPlain kind)
    (harity : kind.arity = .between 1 2) {db : Option Expr}
    (hdb : ∀ e ∈ db, e ∈ known)
    {name : String} {options : Fields Expr} (hsorted : Fields.Sorted options)
    (hoptions : ∀ x ∈ options, x.2 ∈ known) :
    Keeps known single (do
      Expr.operatorWith kind (db.toList ++ [← Expr.text name]) options) := by
  apply Keeps.bind .text
  intro text _
  apply Keeps.operatorWith hplain _ hsorted
  · intro x hx
    rcases List.mem_append.1 hx with hx | hx
    · exact .inl (hdb x (Option.mem_toList.1 hx))
    · exact .inr (List.mem_singleton.1 hx)
  · exact fun x hx => .inl (hoptions x hx)
  · rw [harity]
    cases db <;> rfl

theorem Keeps.createTableOf {db : Option Expr} (hdb : ∀ e ∈ db, e ∈ known)
    {spec : TableSpec} :
    Keeps known single (Expr.createTableOf db spec) := by
  refine .checkName fun _ => ?_
  split
  · rw [pure_bind]
    exact .operatorWith_name (by simp [IsPlain]) rfl hdb Fields.sorted_nil
      (by simp)
  · split
    · exact .fail_bind id
    · apply Keeps.bind .text
      intro key _
      rw [pure_bind]
      exact .operatorWith_name (by simp [IsPlain]) rfl
        (fun e he => .inl (hdb e he))
        (List.pairwise_singleton _ _) (by simp [single])

theorem Keeps.dropTableOf {db : Option Expr} (hdb : ∀ e ∈ db, e ∈ known)
    {name : String} :
    Keeps known single (Expr.dropTableOf db name) :=
  .checkName fun _ =>
    .operatorWith_name (by simp [IsPlain]) rfl hdb Fields.sorted_nil (by simp)

theorem Keeps.range {e : Expr} (he : e ∈ known) {bounds : List Expr}
    (hbounds : ∀ bound ∈ bounds, bound ∈ known) {options : Fields Expr}
    (hsorted : Fields.Sorted options) (hoptions : ∀ x ∈ options, x.2 ∈ known) :
    Keeps known single (Expr.range e bounds options) := by
  unfold Expr.range
  split
  · exact .fail id
  · next hcount =>
    have hpos : bounds.length ≠ 0 := by
      intro hzero
      simp [List.length_eq_zero_iff.1 hzero] at hcount
    apply Keeps.operatorWith (by simp [IsPlain]) _ hsorted _ hoptions
    · apply accepts_iff.2
      simp only [TermKind.arity, Arity.between, List.length_cons,
        Option.mem_def, Option.some.injEq, forall_eq']
      omega
    · rintro x (_ | ⟨_, hx⟩)
      · exact he
      · exact hbounds x hx

/-! ## All programs -/

theorem Keeps.tryOperator {kind : TermKind} {operands : List Expr}
    {options : Fields Expr}
    (hoperands : ∀ x ∈ operands, x ∈ known)
    (hoptions : ∀ x ∈ options, x.2 ∈ known) (hsorted : Fields.Sorted options) :
    Keeps known single (Expr.tryOperator kind operands options) := by
  unfold Expr.tryOperator
  split
  · exact .fail id
  · exact .fail id
  · exact .fail id
  · next hdatum hvar hfunc =>
    split
    · next harity =>
      exact .node (fun _ => .operator ⟨hdatum, hvar, hfunc⟩ harity hsorted)
        (by simp) hoperands
        hoptions
    · exact .fail id

theorem Keeps.insert {e documents : Expr} {upsert : Bool} (he : e ∈ known)
    (hdocuments : documents ∈ known) :
    Keeps known single (Expr.insert e documents upsert) := by
  unfold Expr.insert
  split
  · apply Keeps.bind (.literal (by simp [Datum.Ordered]))
    intro flag _
    rw [pure_bind]
    exact .operatorWith (by simp [IsPlain]) rfl (List.pairwise_singleton _ _)
      (by simp [he, hdocuments]) (by simp [single])
  · rw [pure_bind]
    exact .operatorWith (by simp [IsPlain]) rfl Fields.sorted_nil
      (by simp [he, hdocuments]) (by simp)

/-- An operator on an expression and a function of one parameter. -/
theorem Keeps.operator_lambda {kind : TermKind} (hplain : IsPlain kind)
    (harity : kind.arity = .exactly 2) {e : Expr} (he : e ∈ known)
    {f : Expr → Caller Expr}
    (hf : ∀ x, Keeps (Insert.insert x known) single (f x)) :
    Keeps known single (do Expr.operator kind [e, ← Expr.lambda f]) := by
  apply Keeps.bind (.lambda hf)
  intro callee _
  exact .operator hplain (by rw [harity]; rfl) (by simp [single, he])

/-- An operator on two expressions and a function of two parameters. -/
theorem Keeps.operator_lambda₂ {kind : TermKind} (hplain : IsPlain kind)
    (harity : kind.arity = .exactly 3) {e other : Expr} (he : e ∈ known)
    (hother : other ∈ known) {g : Expr → Expr → Caller Expr}
    (hg : ∀ x y, Keeps (Insert.insert y (Insert.insert x known)) single
      (g x y)) :
    Keeps known single
      (do Expr.operator kind [e, other, ← Expr.lambda₂ g]) := by
  apply Keeps.bind (.lambda₂ hg)
  intro callee _
  exact .operator hplain (by rw [harity]; rfl) (by simp [single, he, hother])

theorem Keeps.groupedMapReduce {e base : Expr} (he : e ∈ known)
    (hbase : base ∈ known)
    {group f : Expr → Caller Expr} {g : Expr → Expr → Caller Expr}
    (hgroup : ∀ x, Keeps (Insert.insert x known) single (group x))
    (hf : ∀ x, Keeps (Insert.insert x known) single (f x))
    (hg : ∀ x y, Keeps (Insert.insert y (Insert.insert x known)) single
      (g x y)) :
    Keeps known single (Expr.groupedMapReduce e group f base g) := by
  apply Keeps.bind (.lambda hgroup)
  intro grouping _
  apply Keeps.bind (.lambda fun x => (hf x).mono
    (Set.insert_subset_insert Set.subset_union_left))
  intro mapping _
  apply Keeps.bind (.lambda₂ fun x y => (hg x y).mono
    (Set.insert_subset_insert (Set.insert_subset_insert
      (Set.subset_union_left.trans Set.subset_union_left))))
  intro folding _
  exact .operator (by simp [IsPlain]) rfl (by simp [single, he, hbase])

theorem Program.keeps {p : Caller Expr} (hp : Program known p) :
    Keeps known single p := by
  induction hp with
  | give he => exact .pure (Set.singleton_subset_iff.2 he)
  | fail hcause => exact .fail hcause
  | bind _ _ hp hrest =>
      apply hp.bind
      intro e _
      rw [Set.union_comm]
      exact hrest e
  | recover _ _ hp hhandler =>
      apply hp.tryCatch
      intro cause hcause
      cases cause with
      | brokenArity => exact (hcause trivial).elim
      | _ => exact hhandler _
  | keep he _ hp =>
      intro next built kept hvalid hknown hkept
      apply hp next built _ hvalid hknown
      rintro x (_ | ⟨_, hx⟩)
      · exact hknown he
      · exact hkept hx
  | kept _ hrest =>
      intro next built kept hvalid hknown hkept
      exact hrest kept next built kept hvalid (Set.union_subset hknown hkept)
        hkept
  | operand he hx =>
      intro next built kept hvalid hknown hkept
      exact Keeps.pure
        (Set.singleton_subset_iff.2 (hvalid.operands _ (hknown he) _ hx))
        next built kept hvalid subset_rfl hkept
  | option he hx =>
      intro next built kept hvalid hknown hkept
      exact Keeps.pure
        (Set.singleton_subset_iff.2 (hvalid.options _ (hknown he) _ hx))
        next built kept hvalid subset_rfl hkept
  | literal hvalue => exact .literal hvalue
  | text => exact .text
  | null => exact .literal trivial
  | array hitems => exact .array hitems
  | object hpairs => exact .object hpairs
  | @ofOption e _ he =>
      cases e with
      | none => exact .literal trivial
      | some e => exact .pure (Set.singleton_subset_iff.2 (he e rfl))
  | wideInteger =>
      unfold Expr.wideInteger
      split
      · exact .literal trivial
      · exact .fail id
  | finiteOrNull =>
      apply Keeps.literal
      split <;> trivial
  | tryOperator hoperands hoptions hsorted =>
      exact .tryOperator hoperands hoptions hsorted
  | eq ha hb | ne ha hb | lt ha hb | le ha hb | gt ha hb | ge ha hb
  | and ha hb | or ha hb | add ha hb | sub ha hb | mul ha hb | div ha hb
  | mod ha hb | nth ha hb | limit ha hb | skip ha hb | append ha hb | union ha hb
  | merge ha hb | filterBy ha hb | get ha hb
  | updateWith ha hb | replaceWith ha hb =>
      exact .operator (by simp [IsPlain]) rfl (by simp [ha, hb])
  | not he | count he | distinct he | zip he | delete he =>
      exact .operator (by simp [IsPlain]) rfl (by simp [he])
  | branch ha hb hc | slice ha hb hc =>
      exact .operator (by simp [IsPlain]) rfl (by simp [ha, hb, hc])
  | listDatabases | listTables =>
      exact .operator (by simp [IsPlain]) rfl (by simp)
  | javascript =>
      exact .bind .text fun _ _ => .operator (by simp [IsPlain]) rfl
        (by simp [single])
  | letIn hbindings _ hbody => exact .letIn hbindings hbody
  | scopeVariable hscope => exact .scopeVariable hscope
  | map he _ hf | concatMap he _ hf | filter he _ hf | update he _ hf
  | replace he _ hf
  | forEach he _ hf =>
      exact .operator_lambda (by simp [IsPlain]) rfl he hf
  | reduce he hbase _ hg =>
      exact .operator_lambda₂ (by simp [IsPlain]) rfl he hbase hg
  | innerJoin he hother _ hg | outerJoin he hother _ hg =>
      exact .operator_lambda₂ (by simp [IsPlain]) rfl he hother hg
  | groupBy he => exact .groupBy he
  | groupedMapReduce he hbase _ _ _ hgroup hf hg =>
      exact .groupedMapReduce he hbase hgroup hf hg
  | orderBy he => exact .orderBy he
  | getField he =>
      exact .bind .text fun _ _ => .operator (by simp [IsPlain]) rfl
        (by simp [single, he])
  | contains he | pluck he | without he | pick he =>
      exact .onFields (by simp [IsPlain]) rfl he
  | database => exact .database
  | table => exact .tableOf (by simp)
  | createDatabase | dropDatabase =>
      exact .checkName fun _ =>
        .bind .text fun _ _ => .operator (by simp [IsPlain]) rfl
          (by simp [single])
  | createTable => exact .createTableOf (by simp)
  | dropTable => exact .dropTableOf (by simp)
  | tableIn hdb =>
      exact .expectDatabase fun hkind => .tableOf (by simp [hdb, hkind])
  | createTableIn hdb =>
      exact .expectDatabase fun _ => .createTableOf (by simp [hdb])
  | dropTableIn hdb =>
      exact .expectDatabase fun _ => .dropTableOf (by simp [hdb])
  | listTablesIn hdb =>
      exact .expectDatabase fun _ => .operator (by simp [IsPlain]) rfl
        (by simp [hdb])
  | between he hbounds =>
      unfold Expr.between
      split
      · exact .fail id
      · apply Keeps.bind .text
        intro index _
        exact .range (.inl he) (fun x hx => .inl (hbounds x hx))
          (List.pairwise_singleton _ _)
          (by simp [single])
  | betweenKeys he hbounds =>
      exact .range he hbounds Fields.sorted_nil (by simp)
  | eqJoin he hother =>
      apply Keeps.bind .text
      intro field _
      apply Keeps.bind .text
      intro index _
      exact .operator (by simp [IsPlain]) rfl (by simp [single, he, hother])
  | insert he hdocuments => exact .insert he hdocuments

/-- Every expression that some program builds is sound. -/
theorem Expr.Obtainable.sound {e : Expr} (he : e.Obtainable) : e.Sound := by
  obtain ⟨p, hp, hstart⟩ := he
  obtain ⟨built, hgrows, _, hgives, _⟩ :=
    hp.keeps 0 ∅ [] valid_empty (Set.empty_subset _) (by simp)
  exact hgrows.valid.sound (hgives e hstart rfl)

/-- No program comes upon a builder that gives an operator the wrong number of
operands. -/
theorem Program.not_broken {p : Caller Expr} (hp : Program ∅ p)
    {cause : BuildFault}
    (hstart : p.start = .error cause) : ¬ cause.IsBroken := by
  obtain ⟨_, _, _, _, hcause⟩ :=
    hp.keeps 0 ∅ [] valid_empty (Set.empty_subset _) (by simp)
  exact hcause cause hstart

end DocumentQuery
