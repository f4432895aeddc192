import DocumentQuery.Expr.Literal
import DocumentQuery.Proofs.DocumentValue
import DocumentQuery.Proofs.ScopeSimulation

/-!
# Collapsing constants

A host value is a nest of arrays, objects and optional parts around expressions.
It is turned into an expression from the inside out, and every level decides
anew whether it is still a constant.  The levels agree: the whole is a constant
just if no computed expression is left in it, where an expression is left out
when a later field has the same name.  The constant is the plain value of the
nest.  Otherwise the term denotes the nest, with arrays and objects of the server
exactly around what is computed.
-/

open DocumentQuery.Expr

namespace DocumentQuery

/-- What is given as a value: expressions in a nest of collections. -/
inductive HostValue where
  | expr (e : Expr)
  /-- An optional part that is missing. -/
  | absent
  | present (value : HostValue)
  | array (items : List HostValue)
  | object (fields : List (String × HostValue))

/-! ## Fields of which the last stays -/

namespace Fields

variable {α β : Type} {name : String} {value : α}

/-- The last of the pairs with this name. -/
def IsLast (pairs : List (String × α)) (name : String) (value : α) : Prop :=
  ∃ before after, pairs = before ++ (name, value) :: after ∧ name ∉ names after

/-- The fields in the order of their names, each the last with its name. -/
def Lasts (pairs : List (String × α)) (fields : Fields α) : Prop :=
  Sorted fields ∧
    ∀ name value, (name, value) ∈ fields ↔ IsLast pairs name value

theorem ofList_concat (pairs : List (String × α)) (pair : String × α) :
    ofList (pairs ++ [pair]) = insert pair.1 pair.2 (ofList pairs) :=
  List.foldl_concat ..

theorem not_isLast_nil : ¬ IsLast [] name value := by
  rintro ⟨before, after, hsplit, -⟩
  cases before <;> cases hsplit

theorem isLast_concat {pairs : List (String × α)} {last : String × α} :
    IsLast (pairs ++ [last]) name value ↔
      if last.1 = name then last.2 = value else IsLast pairs name value := by
  constructor
  · rintro ⟨before, after, hsplit, hafter⟩
    rcases List.eq_nil_or_concat after with rfl | ⟨after, other, rfl⟩
    · obtain ⟨-, hlast⟩ := List.append_inj' hsplit rfl
      cases hlast
      rw [if_pos rfl]
    · rw [List.concat_eq_append, ← List.cons_append, ← List.append_assoc] at hsplit
      obtain ⟨hpairs, hlast⟩ := List.append_inj' hsplit rfl
      cases hlast
      rw [List.concat_eq_append, names, List.map_append, List.mem_append,
        not_or] at hafter
      rw [if_neg (by simpa [eq_comm] using hafter.2)]
      exact ⟨before, after, hpairs, hafter.1⟩
  · intro h
    split at h
    · next hname =>
        refine ⟨pairs, [], ?_, List.not_mem_nil⟩
        rw [← hname, ← h]
    · next hname =>
        obtain ⟨before, after, rfl, hafter⟩ := h
        refine ⟨before, after ++ [last], by simp, ?_⟩
        rw [names, List.map_append, List.mem_append, not_or]
        exact ⟨hafter, by simpa [eq_comm] using hname⟩

theorem find?_ofList (pairs : List (String × α)) :
    find? name (ofList pairs) = some value ↔ IsLast pairs name value := by
  induction pairs using List.reverseRecOn with
  | nil => exact iff_of_false nofun not_isLast_nil
  | append_singleton pairs last ih =>
      rw [ofList_concat, find?_insert, isLast_concat, ← ih]
      split
      · rw [Option.some.injEq]
      · rfl

theorem lasts_ofList (pairs : List (String × α)) : Lasts pairs (ofList pairs) := by
  refine ⟨sorted_ofList pairs, fun name value => ?_⟩
  rw [← find?_eq_some_iff (sorted_ofList pairs).nodup_names, find?_ofList]

/-- What the last of each name is settles the fields. -/
theorem Lasts.unique {pairs : List (String × α)} {fields fields' : Fields α}
    (h : Lasts pairs fields) (h' : Lasts pairs fields') : fields = fields' := by
  have hnodup : ∀ {fields : Fields α}, Sorted fields → fields.Nodup :=
    fun hsorted => List.Nodup.of_map _ hsorted.nodup_names
  have hperm : fields.Perm fields' := by
    rw [List.perm_ext_iff_of_nodup (hnodup h.1) (hnodup h'.1)]
    rintro ⟨name, value⟩
    rw [h.2, h'.2]
  refine hperm.eq_of_pairwise ?_ h.1 h'.1
  intro a b _ _ hlt hgt
  exact absurd hgt (String.lt_asymm hlt)

variable {R : α → β → Prop}

theorem insert_forall₂ {fields : Fields α} {fields' : Fields β} {value' : β}
    (h : List.Forall₂ (fun a b => a.1 = b.1 ∧ R a.2 b.2) fields fields')
    (hvalue : R value value') :
    List.Forall₂ (fun a b => a.1 = b.1 ∧ R a.2 b.2) (insert name value fields)
      (insert name value' fields') := by
  induction h with
  | nil => exact .cons ⟨rfl, hvalue⟩ .nil
  | @cons a b rest rest' hab hrest ih =>
      obtain ⟨other, old⟩ := a
      obtain ⟨other', old'⟩ := b
      obtain ⟨rfl, hold⟩ := hab
      unfold insert
      split
      · exact .cons ⟨rfl, hvalue⟩ (.cons ⟨rfl, hold⟩ hrest)
      · split
        · exact .cons ⟨rfl, hvalue⟩ hrest
        · exact .cons ⟨rfl, hold⟩ ih

/-- Which pairs stay depends on the names alone. -/
theorem ofList_forall₂ {pairs : List (String × α)} {pairs' : List (String × β)}
    (h : List.Forall₂ (fun a b => a.1 = b.1 ∧ R a.2 b.2) pairs pairs') :
    List.Forall₂ (fun a b => a.1 = b.1 ∧ R a.2 b.2) (ofList pairs)
      (ofList pairs') := by
  -- The fold starts from no fields, which is too little for the induction.
  suffices ∀ fields fields',
      List.Forall₂ (fun a b => a.1 = b.1 ∧ R a.2 b.2) fields fields' →
      List.Forall₂ (fun a b => a.1 = b.1 ∧ R a.2 b.2)
        (pairs.foldl (fun fields pair => insert pair.1 pair.2 fields) fields)
        (pairs'.foldl (fun fields pair => insert pair.1 pair.2 fields) fields')
    from this [] [] .nil
  induction h with
  | nil => exact fun _ _ hfields => hfields
  | @cons a b rest rest' hab _ ih =>
      obtain ⟨name, value⟩ := a
      obtain ⟨name', value'⟩ := b
      obtain ⟨rfl, hvalue⟩ := hab
      exact fun fields fields' hfields => ih _ _ (insert_forall₂ hfields hvalue)

theorem forall₂_iff {fields : Fields α} {fields' : Fields β} :
    List.Forall₂ (fun a b => a.1 = b.1 ∧ R a.2 b.2) fields fields' ↔
      names fields = names fields' ∧
        List.Forall₂ R (values fields) (values fields') := by
  constructor
  · intro h
    induction h with
    | nil => exact ⟨rfl, .nil⟩
    | cons hab _ ih => exact ⟨congrArg₂ List.cons hab.1 ih.1, .cons hab.2 ih.2⟩
  · induction fields generalizing fields' with
    | nil =>
        rintro ⟨hnames, -⟩
        rw [List.map_eq_nil_iff.1 hnames.symm]
        exact .nil
    | cons a rest ih =>
        rintro ⟨hnames, hvalues⟩
        cases fields' with
        | nil => cases hnames
        | cons b rest' =>
            obtain ⟨hname, hnames⟩ := List.cons_eq_cons.1 hnames
            obtain ⟨hvalue, hvalues⟩ := List.forall₂_cons.1 hvalues
            exact .cons ⟨hname, hvalue⟩ (ih ⟨hnames, hvalues⟩)

end Fields

/-! ## Constants among expressions -/

theorem mapM_eq_some_iff {α β : Type} {f : α → Option β} {as : List α}
    {bs : List β} :
    as.mapM f = some bs ↔ List.Forall₂ (fun a b => f a = some b) as bs := by
  induction as generalizing bs with
  | nil => simp [eq_comm]
  | cons a rest ih =>
      simp only [List.mapM_cons, List.forall₂_cons_left_iff, Option.bind_eq_bind,
        Option.bind_eq_some_iff, Option.pure_def, Option.some.injEq, ih]
      constructor
      · rintro ⟨b, hb, others, hothers, rfl⟩
        exact ⟨b, others, hb, hothers, rfl⟩
      · rintro ⟨b, others, hb, hothers, rfl⟩
        exact ⟨b, hb, others, hothers, rfl⟩

theorem mapM_eq_none_iff {α β : Type} {f : α → Option β} {as : List α} :
    as.mapM f = none ↔ ∃ a ∈ as, f a = none := by
  induction as with
  | nil => simp
  | cons a rest ih =>
      rw [List.mapM_cons, List.exists_mem_cons_iff, ← ih]
      cases f a <;> cases rest.mapM f <;> simp

theorem Expr.literalFields?_eq_some_iff {es : Fields Expr} {ds : Fields Datum} :
    literalFields? es = some ds ↔ Fields.names es = Fields.names ds ∧
      literals? (Fields.values es) = some (Fields.values ds) := by
  have hfield : ∀ (a : String × Expr) (b : String × Datum),
      (do return (a.1, ← a.2.literal?)) = some b ↔
        a.1 = b.1 ∧ a.2.literal? = some b.2 := by
    rintro ⟨name, e⟩ ⟨other, d⟩
    cases e.literal? <;> simp
  simp only [literalFields?, literals?, mapM_eq_some_iff, hfield]
  exact Fields.forall₂_iff (R := fun (e : Expr) (d : Datum) => e.literal? = some d)

theorem Expr.literalFields?_eq_none_iff {es : Fields Expr} :
    literalFields? es = none ↔ literals? (Fields.values es) = none := by
  have hfield : ∀ a : String × Expr,
      (do return (a.1, ← a.2.literal?) : Option (String × Datum)) = none ↔
        a.2.literal? = none := by
    rintro ⟨name, e⟩
    cases e.literal? <;> simp
  simp only [literalFields?, literals?, Fields.values, mapM_eq_none_iff, hfield,
    List.mem_map]
  constructor
  · rintro ⟨a, ha, hnone⟩
    exact ⟨a.2, ⟨a, ha, rfl⟩, hnone⟩
  · rintro ⟨_, ⟨a, ha, rfl⟩, hnone⟩
    exact ⟨a, ha, hnone⟩

namespace HostValue

/-! ## What a host value means -/

/-- The expression is left in the value: it is in no field that is followed by
another of its name. -/
inductive Survives (e : Expr) : HostValue → Prop where
  | expr : Survives e (.expr e)
  | present {value : HostValue} : Survives e value → Survives e (.present value)
  | array {items : List HostValue} {item : HostValue} :
      item ∈ items → Survives e item → Survives e (.array items)
  | object {fields : List (String × HostValue)} {name : String}
      {value : HostValue} :
      Fields.IsLast fields name value → Survives e value →
      Survives e (.object fields)

mutual

/-- The value is this datum, where it is made of constants. -/
inductive Holds : HostValue → Datum → Prop where
  | expr {e : Expr} {d : Datum} : e.literal? = some d → Holds (.expr e) d
  | absent : Holds .absent .null
  | present {value : HostValue} {d : Datum} :
      Holds value d → Holds (.present value) d
  | array {items : List HostValue} {ds : List Datum} :
      HoldsItems items ds → Holds (.array items) (.array ds)
  | object {fields : List (String × HostValue)} {kept : Fields HostValue}
      {ds : Fields Datum} :
      Fields.Lasts fields kept → Fields.names kept = Fields.names ds →
      HoldsItems (Fields.values kept) (Fields.values ds) →
      Holds (.object fields) (.object ds)

inductive HoldsItems : List HostValue → List Datum → Prop where
  | nil : HoldsItems [] []
  | cons {value : HostValue} {d : Datum} {rest : List HostValue}
      {ds : List Datum} :
      Holds value d → HoldsItems rest ds → HoldsItems (value :: rest) (d :: ds)

end

mutual

/-- The document has the same shape, with a document for every constant. -/
inductive Documents : HostValue → JsonValue → Prop where
  | expr {e : Expr} {document : JsonValue} :
      e.literal? = some document.toDatum → Documents (.expr e) document
  | absent : Documents .absent .null
  | present {value : HostValue} {document : JsonValue} :
      Documents value document → Documents (.present value) document
  | array {items : List HostValue} {documents : List JsonValue} :
      DocumentsItems items documents →
      Documents (.array items) (.array documents)
  | object {fields : List (String × HostValue)} {kept : Fields HostValue}
      {members : Fields JsonValue} :
      Fields.Lasts fields kept → Fields.names kept = Fields.names members →
      DocumentsItems (Fields.values kept) (Fields.values members) →
      Documents (.object fields) (.object members)

inductive DocumentsItems : List HostValue → List JsonValue → Prop where
  | nil : DocumentsItems [] []
  | cons {value : HostValue} {document : JsonValue} {rest : List HostValue}
      {documents : List JsonValue} :
      Documents value document → DocumentsItems rest documents →
      DocumentsItems (value :: rest) (document :: documents)

end

section

variable (context : CompileContext) (scope : Nat)

mutual

/-- What a term denotes, read as a host value, and how compiling its expressions
one after the other changes the state.  A constant part is one literal; an array
or an object of the server has something computed in it. -/
inductive Denotes :
    HostValue → CompileState → Term → CompileState → Prop where
  | constant {value : HostValue} {d : Datum} {s : CompileState} :
      Holds value d → Denotes value s (.literal d) s
  | computed {e : Expr} {s s' : CompileState} {t : Term} :
      ¬ e.isLiteral → Compile.expr context scope e s = (.ok t, s') →
      Denotes (.expr e) s t s'
  | present {value : HostValue} {s s' : CompileState} {t : Term} :
      Denotes value s t s' → Denotes (.present value) s t s'
  | array {items : List HostValue} {e : Expr} {s s' : CompileState}
      {args : List Term} :
      Survives e (.array items) → ¬ e.isLiteral →
      DenotesItems items s args s' →
      Denotes (.array items) s (.ofArgs .makeArray args) s'
  | object {fields : List (String × HostValue)} {kept : Fields HostValue}
      {e : Expr} {s s' : CompileState} {options : Fields Term} :
      Survives e (.object fields) → ¬ e.isLiteral →
      Fields.Lasts fields kept → Fields.names kept = Fields.names options →
      DenotesItems (Fields.values kept) s (Fields.values options) s' →
      Denotes (.object fields) s ⟨.makeObject, [], options, none⟩ s'

inductive DenotesItems :
    List HostValue → CompileState → List Term → CompileState → Prop where
  | nil {s : CompileState} : DenotesItems [] s [] s
  | cons {value : HostValue} {rest : List HostValue} {t : Term}
      {args : List Term} {s s₁ s' : CompileState} :
      Denotes value s t s₁ → DenotesItems rest s₁ args s' →
      DenotesItems (value :: rest) s (t :: args) s'

end

end

/-! ## Building from the inside out -/

mutual

def build : HostValue → Build Expr
  | .expr e => return e
  | .absent => ofOption none
  | .present value => do ofOption (some (← build value))
  | .array items => do Expr.array (← buildItems items)
  | .object fields => do Expr.object (← buildFields fields)

def buildItems : List HostValue → Build (List Expr)
  | [] => return []
  | item :: rest => do
    let e ← build item
    let es ← buildItems rest
    return e :: es

def buildFields : List (String × HostValue) → Build (List (String × Expr))
  | [] => return []
  | (name, value) :: rest => do
    let e ← build value
    let es ← buildFields rest
    return (name, e) :: es

end

/-! ## Expressions that stand for host values -/

/-- The expression is a constant just if it should be, with the datum it should
have, and whenever it compiles its term denotes the value. -/
structure Stands (value : HostValue) (e : Expr) : Prop where
  isLiteral_iff : e.isLiteral ↔ ∀ x, Survives x value → x.isLiteral
  holds : ∀ d, e.literal? = some d → Holds value d
  toDatum_eq : ∀ d document, e.literal? = some d → Documents value document →
    document.toDatum = d
  denotes : ∀ context scope s t s', Compile.expr context scope e s = (.ok t, s') →
    Denotes context scope value s t s'

theorem not_isLiteral_iff {e : Expr} : ¬ e.isLiteral ↔ e.literal? = none := by
  rw [isLiteral, Option.not_isSome_iff_eq_none]

theorem compile_literal {context : CompileContext} {scope : Nat} {e : Expr}
    {d : Datum} (hd : e.literal? = some d) {s s' : CompileState} {t : Term}
    (h : Compile.expr context scope e s = (.ok t, s')) :
    t = .literal d ∧ s' = s := by
  obtain ⟨i, kind, operands, options⟩ := e
  cases kind with
  | literal value =>
      cases hd
      rw [Compile.expr] at h
      split at h
      · cases h
        exact ⟨rfl, rfl⟩
      · cases h
  | _ => cases hd

theorem denotes_of_literal? {context : CompileContext} {scope : Nat} {e : Expr}
    {value : HostValue} {d : Datum} (hd : e.literal? = some d)
    (hholds : Holds value d) {s s' : CompileState} {t : Term}
    (h : Compile.expr context scope e s = (.ok t, s')) :
    Denotes context scope value s t s' := by
  obtain ⟨rfl, rfl⟩ := compile_literal hd h
  exact .constant hholds

theorem stands_expr (e : Expr) : Stands (.expr e) e where
  isLiteral_iff := by
    refine ⟨?_, fun h => h e .expr⟩
    rintro he x ⟨⟩
    exact he
  holds := fun _ hd => .expr hd
  toDatum_eq := by
    intro d document hd hdocument
    cases hdocument with
    | expr hleaf => exact Option.some.inj (hleaf.symm.trans hd)
  denotes := by
    intro context scope s t s' h
    cases hd : e.literal? with
    | none => exact .computed (not_isLiteral_iff.2 hd) h
    | some d => exact denotes_of_literal? hd (.expr hd) h

theorem stands_absent (i : NodeId) : Stands .absent ⟨i, .literal .null, [], []⟩ where
  isLiteral_iff := iff_of_true rfl nofun
  holds := by
    rintro _ ⟨⟩
    exact .absent
  toDatum_eq := by
    rintro _ _ ⟨⟩ ⟨⟩
    rfl
  denotes := fun _ _ _ _ _ h => denotes_of_literal? rfl .absent h

theorem Stands.present {value : HostValue} {e : Expr} (h : Stands value e) :
    Stands (.present value) e where
  isLiteral_iff := by
    rw [h.isLiteral_iff]
    refine ⟨fun hleft x hx => ?_, fun hleft x hx => hleft x (.present hx)⟩
    cases hx with
    | present hx => exact hleft x hx
  holds := fun d hd => .present (h.holds d hd)
  toDatum_eq := by
    intro d document hd hdocument
    cases hdocument with
    | present hdocument => exact h.toDatum_eq d document hd hdocument
  denotes := fun context scope s t s' hrun =>
    .present (h.denotes context scope s t s' hrun)

/-! ## Collections -/

theorem forall_survives_iff {items : List HostValue} {es : List Expr}
    (h : List.Forall₂ Stands items es) :
    (∀ item ∈ items, ∀ x, Survives x item → x.isLiteral) ↔
      ∀ e ∈ es, e.isLiteral := by
  induction h with
  | nil => simp
  | cons hitem _ ih =>
      rw [List.forall_mem_cons, List.forall_mem_cons, ih, hitem.isLiteral_iff]

theorem holdsItems_of_literals? {items : List HostValue} {es : List Expr}
    {ds : List Datum} (h : List.Forall₂ Stands items es)
    (hds : literals? es = some ds) : HoldsItems items ds := by
  rw [literals?, mapM_eq_some_iff] at hds
  induction h generalizing ds with
  | nil =>
      cases hds
      exact .nil
  | cons hitem _ ih =>
      cases hds with
      | cons hd hrest => exact .cons (hitem.holds _ hd) (ih hrest)

theorem denotesItems_of_compile {context : CompileContext} {scope : Nat}
    {items : List HostValue} {es : List Expr} (h : List.Forall₂ Stands items es)
    {s s' : CompileState} {args : List Term}
    (hrun : Compile.exprs context scope es s = (.ok args, s')) :
    DenotesItems context scope items s args s' := by
  induction h generalizing s args with
  | nil =>
      cases hrun
      exact .nil
  | cons hitem _ ih =>
      rw [Compile.exprs] at hrun
      obtain ⟨t, s₁, ht, hrest⟩ := fallible_bind_ok hrun
      obtain ⟨args, s₂, hargs, hdone⟩ := fallible_bind_ok hrest
      cases hdone
      exact .cons (hitem.denotes _ _ _ _ _ ht) (ih hargs)

theorem itemsToDatum_of_literals? {items : List HostValue} {es : List Expr}
    {ds : List Datum} {documents : List JsonValue}
    (h : List.Forall₂ Stands items es) (hds : literals? es = some ds)
    (hdocuments : DocumentsItems items documents) :
    JsonValue.itemsToDatum documents = ds := by
  rw [literals?, mapM_eq_some_iff] at hds
  induction h generalizing ds documents with
  | nil =>
      cases hds
      cases hdocuments
      rfl
  | cons hitem _ ih =>
      cases hds with
      | cons hd hrest =>
          cases hdocuments with
          | cons hdocument hmore =>
              rw [JsonValue.itemsToDatum, hitem.toDatum_eq _ _ hd hdocument,
                ih hrest hmore]

theorem membersToDatum_eq {members : Fields JsonValue} {ds : Fields Datum}
    (hnames : Fields.names members = Fields.names ds)
    (hvalues : JsonValue.itemsToDatum (Fields.values members) = Fields.values ds) :
    JsonValue.membersToDatum members = ds := by
  induction members generalizing ds with
  | nil =>
      rw [List.map_eq_nil_iff.1 hnames.symm]
      rfl
  | cons member rest ih =>
      cases ds with
      | nil => cases hnames
      | cons field others =>
          obtain ⟨hname, hothers⟩ := List.cons_eq_cons.1 hnames
          obtain ⟨hvalue, hrest⟩ := List.cons_eq_cons.1 hvalues
          rw [JsonValue.membersToDatum, ih hothers hrest]
          exact congrArg (· :: others) (Prod.ext hname hvalue)

section

variable {value : HostValue} {items : List HostValue} {es : List Expr} {e : Expr}

theorem stands_of_constants {ds : List Datum} {d : Datum}
    (hleft : (∀ x, Survives x value → x.isLiteral) ↔ ∀ e ∈ es, e.isLiteral)
    (hds : literals? es = some ds) (hd : e.literal? = some d)
    (hholds : Holds value d)
    (hdocuments : ∀ document, Documents value document → document.toDatum = d) :
    Stands value e where
  isLiteral_iff := by
    rw [hleft, isLiteral, hd]
    refine iff_of_true rfl fun e he => ?_
    by_contra hcomputed
    have hnone : literals? es = none :=
      mapM_eq_none_iff.2 ⟨e, he, not_isLiteral_iff.1 hcomputed⟩
    rw [hnone] at hds
    cases hds
  holds := by
    intro d' hd'
    rw [hd] at hd'
    cases hd'
    exact hholds
  toDatum_eq := by
    intro d' document hd' hdocument
    rw [hd] at hd'
    cases hd'
    exact hdocuments document hdocument
  denotes := fun _ _ _ _ _ hrun => denotes_of_literal? hd hholds hrun

theorem stands_of_computed
    (hleft : (∀ x, Survives x value → x.isLiteral) ↔ ∀ e ∈ es, e.isLiteral)
    (hds : literals? es = none) (he : e.literal? = none)
    (hdenotes : ∀ x, Survives x value → ¬ x.isLiteral →
      ∀ context scope s t s', Compile.expr context scope e s = (.ok t, s') →
        Denotes context scope value s t s') :
    Stands value e := by
  obtain ⟨computed, hmem, hcomputed⟩ := mapM_eq_none_iff.1 hds
  -- The part that is not a constant need not be `x` itself, only contain it.
  obtain ⟨x, hx, hx'⟩ : ∃ x, Survives x value ∧ ¬ x.isLiteral := by
    by_contra hnone
    refine not_isLiteral_iff.2 hcomputed (hleft.1 (fun x hx => ?_) computed hmem)
    by_contra hx'
    exact hnone ⟨x, hx, hx'⟩
  refine ⟨?_, ?_, ?_, hdenotes x hx hx'⟩
  · exact iff_of_false (not_isLiteral_iff.2 he) fun hall => hx' (hall x hx)
  · intro d hd
    rw [he] at hd
    cases hd
  · intro d document hd
    rw [he] at hd
    cases hd

theorem exists_array (h : List.Forall₂ Stands items es) (i : NodeId) :
    ∃ e, (Expr.array es : Build Expr) i = (.ok e, i + 1) ∧
      Stands (.array items) e := by
  have hleft : (∀ x, Survives x (.array items) → x.isLiteral) ↔
      ∀ e ∈ es, e.isLiteral := by
    rw [← forall_survives_iff h]
    refine ⟨fun hall item hitem x hx => hall x (.array hitem hx), fun hall x hx => ?_⟩
    cases hx with
    | array hitem hx => exact hall _ hitem x hx
  unfold Expr.array
  cases hds : literals? es with
  | some ds =>
      have hholds := HostValue.Holds.array (holdsItems_of_literals? h hds)
      refine ⟨⟨i, .literal (.array ds), [], []⟩, rfl,
        stands_of_constants hleft hds rfl hholds fun document hdocument => ?_⟩
      cases hdocument with
      | array hdocuments =>
          rw [JsonValue.toDatum, itemsToDatum_of_literals? h hds hdocuments]
  | none =>
      have haccepts : TermKind.makeArray.arity.accepts es.length := by
        simp [TermKind.arity, Arity.atLeast, Arity.accepts]
      refine ⟨⟨i, .operator .makeArray, es, []⟩, ?_,
        stands_of_computed hleft hds rfl ?_⟩
      · simp only [operator, operatorWith, haccepts, if_true]
        rfl
      · intro x hx hcomputed context scope s t s' hrun
        rw [Compile.expr] at hrun
        simp only [haccepts, if_true] at hrun
        obtain ⟨args, s₁, hargs, hrest⟩ := fallible_bind_ok hrun
        obtain ⟨options, s₂, hoptions, hdone⟩ := fallible_bind_ok hrest
        cases hoptions
        cases hdone
        exact .array hx hcomputed (denotesItems_of_compile h hargs)

theorem exprs_of_exprOptions {context : CompileContext} {scope : Nat}
    {fields : Fields Expr} {s s' : CompileState} {options : Fields Term}
    (hrun : Compile.exprOptions context scope fields s = (.ok options, s')) :
    Fields.names fields = Fields.names options ∧
      Compile.exprs context scope (Fields.values fields) s =
        (.ok (Fields.values options), s') := by
  induction fields generalizing s options with
  | nil =>
      cases hrun
      exact ⟨rfl, rfl⟩
  | cons field rest ih =>
      obtain ⟨name, e⟩ := field
      rw [Compile.exprOptions] at hrun
      obtain ⟨t, s₁, ht, hrest⟩ := fallible_bind_ok hrun
      obtain ⟨others, s₂, hothers, hdone⟩ := fallible_bind_ok hrest
      cases hdone
      obtain ⟨hnames, hvalues⟩ := ih hothers
      refine ⟨congrArg (List.cons name) hnames, ?_⟩
      change Compile.exprs context scope (e :: Fields.values rest) s = _
      rw [Compile.exprs, fallible_bind_apply, ht]
      simp only
      rw [fallible_bind_apply, hvalues]
      rfl

theorem exists_object {fields : List (String × HostValue)}
    {pairs : List (String × Expr)}
    (h : List.Forall₂ (fun a b => a.1 = b.1 ∧ Stands a.2 b.2) fields pairs)
    (i : NodeId) :
    ∃ e, (Expr.object pairs : Build Expr) i = (.ok e, i + 1) ∧
      Stands (.object fields) e := by
  -- The fields are chosen by name before anything is known about the values, so
  -- the expressions that are kept stand for the values that are kept.
  obtain ⟨hnames, hstand⟩ := Fields.forall₂_iff.1 (Fields.ofList_forall₂ h)
  have hlasts := Fields.lasts_ofList fields
  have hleft : (∀ x, Survives x (.object fields) → x.isLiteral) ↔
      ∀ e ∈ Fields.values (Fields.ofList pairs), e.isLiteral := by
    rw [← forall_survives_iff hstand, Fields.values, List.forall_mem_map]
    constructor
    · rintro hall ⟨name, value⟩ hmem x hx
      exact hall x (.object ((hlasts.2 name value).1 hmem) hx)
    · intro hall x hx
      cases hx with
      | object hlast hx => exact hall _ ((hlasts.2 _ _).2 hlast) x hx
  unfold Expr.object
  cases hds : literalFields? (Fields.ofList pairs) with
  | some ds =>
      obtain ⟨hnames', hvalues⟩ := literalFields?_eq_some_iff.1 hds
      have hholds : Holds (.object fields) (.object ds) :=
        .object hlasts (hnames.trans hnames') (holdsItems_of_literals? hstand hvalues)
      refine ⟨⟨i, .literal (.object ds), [], []⟩, rfl,
        stands_of_constants hleft hvalues rfl hholds fun document hdocument => ?_⟩
      cases hdocument with
      | object hkept hmembers hdocuments =>
          cases hkept.unique hlasts
          have hsorted : Fields.Sorted ds := by
            rw [Fields.sorted_iff_names, ← hnames', ← Fields.sorted_iff_names]
            exact Fields.sorted_ofList pairs
          have hfields := membersToDatum_eq
            (hmembers.symm.trans (hnames.trans hnames'))
            (itemsToDatum_of_literals? hstand hvalues hdocuments)
          rw [JsonValue.toDatum, hfields, Datum.ofPairs, hsorted.ofList_eq]
  | none =>
      have hvalues := literalFields?_eq_none_iff.1 hds
      have haccepts : TermKind.makeObject.arity.accepts 0 := by decide
      refine ⟨⟨i, .operator .makeObject, [], Fields.ofList pairs⟩, rfl,
        stands_of_computed hleft hvalues rfl ?_⟩
      intro x hx hcomputed context scope s t s' hrun
      rw [Compile.expr] at hrun
      obtain ⟨args, s₁, hargs, hrest⟩ := fallible_bind_ok hrun
      obtain ⟨options, s₂, hoptions, hdone⟩ := fallible_bind_ok hrest
      cases hargs
      cases hdone
      obtain ⟨hnames', hoptions⟩ := exprs_of_exprOptions hoptions
      exact .object hx hcomputed hlasts (hnames.trans hnames')
        (denotesItems_of_compile hstand hoptions)

end

mutual

/-- Building never fails and leads to an expression that stands for the value. -/
theorem exists_build :
    ∀ (value : HostValue) (i : NodeId), ∃ e i',
      build value i = (.ok e, i') ∧ Stands value e
  | .expr e, i => ⟨e, i, rfl, stands_expr e⟩
  | .absent, i => ⟨_, i + 1, rfl, stands_absent i⟩
  | .present value, i => by
    obtain ⟨e, i', hbuild, hstands⟩ := exists_build value i
    refine ⟨e, i', ?_, hstands.present⟩
    rw [build, fallible_bind_apply, hbuild]
    rfl
  | .array items, i => by
    obtain ⟨es, i₁, hbuild, hstand⟩ := exists_buildItems items i
    obtain ⟨e, hrun, hstands⟩ := exists_array hstand i₁
    refine ⟨e, i₁ + 1, ?_, hstands⟩
    rw [build, fallible_bind_apply, hbuild]
    exact hrun
  | .object fields, i => by
    obtain ⟨pairs, i₁, hbuild, hstand⟩ := exists_buildFields fields i
    obtain ⟨e, hrun, hstands⟩ := exists_object hstand i₁
    refine ⟨e, i₁ + 1, ?_, hstands⟩
    rw [build, fallible_bind_apply, hbuild]
    exact hrun

theorem exists_buildItems :
    ∀ (items : List HostValue) (i : NodeId), ∃ es i',
      buildItems items i = (.ok es, i') ∧ List.Forall₂ Stands items es
  | [], i => ⟨[], i, rfl, .nil⟩
  | item :: rest, i => by
    obtain ⟨e, i₁, hbuild, hstands⟩ := exists_build item i
    obtain ⟨es, i', hrest, hstand⟩ := exists_buildItems rest i₁
    refine ⟨e :: es, i', ?_, .cons hstands hstand⟩
    rw [buildItems, fallible_bind_apply, hbuild]
    simp only
    rw [fallible_bind_apply, hrest]
    rfl

theorem exists_buildFields :
    ∀ (fields : List (String × HostValue)) (i : NodeId), ∃ pairs i',
      buildFields fields i = (.ok pairs, i') ∧
        List.Forall₂ (fun a b => a.1 = b.1 ∧ Stands a.2 b.2) fields pairs
  | [], i => ⟨[], i, rfl, .nil⟩
  | (name, value) :: rest, i => by
    obtain ⟨e, i₁, hbuild, hstands⟩ := exists_build value i
    obtain ⟨pairs, i', hrest, hstand⟩ := exists_buildFields rest i₁
    refine ⟨(name, e) :: pairs, i', ?_, .cons ⟨rfl, hstands⟩ hstand⟩
    rw [buildFields, fallible_bind_apply, hbuild]
    simp only
    rw [fallible_bind_apply, hrest]
    rfl

end

/-! ## Documents of the same shape -/

/-- What is left in the value are constants without special numbers. -/
def FromDocuments (value : HostValue) : Prop :=
  ∀ x, Survives x value → ∃ d, x.literal? = some d ∧ d.Ordered ∧ d.isFinite

theorem documentsItems_map {f : HostValue → JsonValue} {items : List HostValue}
    (h : ∀ item ∈ items, Documents item (f item)) :
    DocumentsItems items (items.map f) := by
  induction items with
  | nil => exact .nil
  | cons item rest ih =>
      rw [List.forall_mem_cons] at h
      exact .cons h.1 (ih h.2)

theorem exists_documents_array {items : List HostValue}
    (h : ∀ item ∈ items, FromDocuments item → ∃ document, Documents item document)
    (hfrom : FromDocuments (.array items)) :
    ∃ document, Documents (.array items) document := by
  have hitems : ∀ item, item ∈ items → ∃ document, Documents item document :=
    fun item hitem => h item hitem fun x hx => hfrom x (.array hitem hx)
  have : Nonempty JsonValue := ⟨.null⟩
  choose! document hdocument using hitems
  exact ⟨_, .array (documentsItems_map hdocument)⟩

theorem exists_documents_object {fields : List (String × HostValue)}
    (h : ∀ field ∈ fields, FromDocuments field.2 →
      ∃ document, Documents field.2 document)
    (hfrom : FromDocuments (.object fields)) :
    ∃ document, Documents (.object fields) document := by
  have hlasts := Fields.lasts_ofList fields
  have hvalues : ∀ value, value ∈ Fields.values (Fields.ofList fields) →
      ∃ document, Documents value document := by
    intro value hvalue
    obtain ⟨⟨name, value⟩, hkept, rfl⟩ := List.mem_map.1 hvalue
    have hlast := (hlasts.2 name value).1 hkept
    obtain ⟨before, after, hfields, -⟩ := id hlast
    have hmem : (name, value) ∈ fields := by simp [hfields]
    exact h _ hmem fun x hx => hfrom x (.object hlast hx)
  have : Nonempty JsonValue := ⟨.null⟩
  choose! document hdocument using hvalues
  let members : Fields JsonValue :=
    (Fields.ofList fields).map fun field => (field.1, document field.2)
  have hnames : Fields.names (Fields.ofList fields) = Fields.names members := by
    simp [members, Fields.names]
  have hmembers : Fields.values members =
      (Fields.values (Fields.ofList fields)).map document := by
    simp [members, Fields.values]
  refine ⟨.object members, .object hlasts hnames ?_⟩
  rw [hmembers]
  exact documentsItems_map hdocument

mutual

theorem exists_documents :
    ∀ value : HostValue, FromDocuments value → ∃ document, Documents value document
  | .expr e, hfrom => by
    obtain ⟨d, hd, hordered, hfinite⟩ := hfrom e .expr
    rw [← Datum.toDatum_toValue d hordered hfinite] at hd
    exact ⟨d.toValue, .expr hd⟩
  | .absent, _ => ⟨.null, .absent⟩
  | .present value, hfrom => by
    obtain ⟨document, hdocument⟩ :=
      exists_documents value fun x hx => hfrom x (.present hx)
    exact ⟨document, .present hdocument⟩
  | .array items, hfrom =>
    exists_documents_array (exists_documents_of_mem items) hfrom
  | .object fields, hfrom =>
    exists_documents_object (exists_documents_of_mem_fields fields) hfrom

theorem exists_documents_of_mem :
    ∀ items : List HostValue, ∀ item ∈ items, FromDocuments item →
      ∃ document, Documents item document
  | [] => fun _ hmem => absurd hmem List.not_mem_nil
  | item :: rest =>
    List.forall_mem_cons.2 ⟨exists_documents item, exists_documents_of_mem rest⟩

theorem exists_documents_of_mem_fields :
    ∀ fields : List (String × HostValue), ∀ field ∈ fields,
      FromDocuments field.2 → ∃ document, Documents field.2 document
  | [] => fun _ hmem => absurd hmem List.not_mem_nil
  | (_, value) :: rest =>
    List.forall_mem_cons.2 ⟨exists_documents value, exists_documents_of_mem_fields rest⟩

end

/-- What a later field of the same name hides does not count. -/
example :
    (build (.object [("a", .expr ⟨0, .parameter, [], []⟩), ("a", .absent)]) 1).1 =
      .ok ⟨2, .literal (.object [("a", .null)]), [], []⟩ :=
  rfl

end HostValue

end DocumentQuery
