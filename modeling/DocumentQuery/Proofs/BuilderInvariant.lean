import DocumentQuery.Proofs.BuilderProgram
import DocumentQuery.Proofs.ExprShape
import Mathlib.Tactic

/-!
# What programs build

Every step of a program keeps what holds of all nodes built so far.  The steps
are followed one by one with the set of these nodes beside them; a step that is
given known expressions adds to the set, and what it gives back is in it.  The
only delicate step is a function: while its body is being made, no other
function may take its parameters.  None does, since the functions made
meanwhile only take parameters that are made meanwhile.
-/

open DocumentQuery.Expr

namespace DocumentQuery

/-! ## Running single steps -/

theorem Caller.bind_apply {α β : Type} (p : Caller α) (rest : α → Caller β)
    (next : NodeId) (kept : List Expr) :
    (p >>= rest) next kept =
      match p next kept with
      | ((.ok a, next), kept) => rest a next kept
      | ((.error cause, next), kept) => ((.error cause, next), kept) := by
  simp only [bind, ExceptT.bind, ExceptT.mk, ExceptT.bindCont, StateT.bind]
  rcases p next kept with ⟨⟨_ | _, _⟩, _⟩ <;> rfl

theorem Caller.tryCatch_apply {α : Type} (p : Caller α)
    (handler : BuildFault → Caller α) (next : NodeId) (kept : List Expr) :
    tryCatch p handler next kept =
      match p next kept with
      | ((.ok a, next), kept) => ((.ok a, next), kept)
      | ((.error cause, next), kept) => handler cause next kept := by
  simp only [tryCatch, tryCatchThe, MonadExceptOf.tryCatch, ExceptT.tryCatch,
    ExceptT.mk, bind, StateT.bind]
  rcases p next kept with ⟨⟨_ | _, _⟩, _⟩ <;> rfl

/-- A value that a step can give back. -/
def Caller.Gives {α : Type} (p : Caller α) (a : α) : Prop :=
  ∃ next kept, (p next kept).1.1 = .ok a

theorem Caller.gives_bind {α β : Type} {p : Caller α} {rest : α → Caller β}
    {b : β} (h : (p >>= rest).Gives b) : ∃ a, p.Gives a ∧ (rest a).Gives b := by
  obtain ⟨next, kept, h⟩ := h
  rw [Caller.bind_apply] at h
  rcases hfinal : p next kept with ⟨⟨cause | a, next₁⟩, kept₁⟩
  · rw [hfinal] at h
    cases h
  · rw [hfinal] at h
    exact ⟨a, ⟨next, kept, by rw [hfinal]⟩, next₁, kept₁, h⟩

theorem Caller.eq_ok_of_gives {α : Type} {checked : Except BuildFault α} {a : α}
    (h : Caller.Gives (liftM checked : Caller α) a) : checked = .ok a := by
  obtain ⟨next, kept, h⟩ := h
  cases checked with
  | error cause => cases h
  | ok b => cases h; rfl

theorem Caller.length_of_gives_mapM {α β : Type} {f : α → Caller β}
    {items : List α} {bs : List β} (h : Caller.Gives (items.mapM f) bs) :
    bs.length = items.length := by
  induction items generalizing bs with
  | nil =>
      obtain ⟨next, kept, h⟩ := h
      cases h
      rfl
  | cons a rest ih =>
      rw [List.mapM_cons] at h
      obtain ⟨b, _, h⟩ := Caller.gives_bind h
      obtain ⟨others, hothers, h⟩ := Caller.gives_bind h
      obtain ⟨next, kept, h⟩ := h
      cases h
      rw [List.length_cons, List.length_cons, ih hothers]

/-- The node of an identity that stands for a parameter. -/
def parameterNode (i : NodeId) : Expr := ⟨i, .parameter, [], []⟩

/-- The parameters that take the next identities. -/
def parametersFrom (next : NodeId) (count : Nat) : List Expr :=
  (List.range' next count).map parameterNode

theorem parametersFrom_succ (next : NodeId) (count : Nat) :
    parametersFrom next (count + 1) =
      parameterNode next :: parametersFrom (next + 1) count := by
  simp [parametersFrom, List.range'_succ]

theorem mapM_parameter_apply {α : Type} (names : List α) (next : NodeId)
    (kept : List Expr) :
    (names.mapM fun _ => (parameter : Caller Expr)) next kept =
      ((.ok (parametersFrom next names.length), next + names.length), kept) := by
  induction names generalizing next with
  | nil => rfl
  | cons name rest ih =>
      have hfirst : (parameter : Caller Expr) next kept =
          ((.ok (parameterNode next), next + 1), kept) := rfl
      rw [List.mapM_cons, Caller.bind_apply, hfirst]
      simp only
      rw [Caller.bind_apply, ih, List.length_cons, parametersFrom_succ,
        Nat.add_right_comm]
      rfl

/-! ## Growing the set of nodes -/

/-- The set of nodes has grown, and the functions among the new nodes take
parameters that are new as well. -/
structure Grows (next : NodeId) (built : Set Expr) (next' : NodeId)
    (built' : Set Expr) :
    Prop where
  subset : built ⊆ built'
  valid : Valid next' built'
  le : next ≤ next'
  fresh : ∀ f ∈ built', f ∈ built ∨ ∀ p, f.Introduces p → next ≤ p

theorem Grows.refl {next : NodeId} {built : Set Expr}
    (hvalid : Valid next built) :
    Grows next built next built :=
  ⟨subset_rfl, hvalid, le_rfl, fun _ hf => .inl hf⟩

theorem Grows.trans {next₁ next₂ next₃ : NodeId}
    {built₁ built₂ built₃ : Set Expr}
    (h : Grows next₁ built₁ next₂ built₂)
    (h' : Grows next₂ built₂ next₃ built₃) :
    Grows next₁ built₁ next₃ built₃ := by
  refine ⟨h.subset.trans h'.subset, h'.valid, h.le.trans h'.le, ?_⟩
  intro f hf
  rcases h'.fresh f hf with hf | hf
  · exact h.fresh f hf
  · exact .inr fun p hp => h.le.trans (hf p hp)

/-- A node other than a function can be added at any time. -/
theorem Grows.insert {next : NodeId} {built : Set Expr}
    (hvalid : Valid next built) {e : Expr}
    (hid : e.id = next) (hshaped : e.Shaped) (hkind : e.kind ≠ .function)
    (hoperands : ∀ x ∈ e.operands, x ∈ built)
    (hoptions : ∀ x ∈ e.options, x.2 ∈ built) :
    Grows next built (next + 1) (insert e built) := by
  have hnot : ∀ p, ¬ e.Introduces p := fun p hp => hkind hp.1
  refine ⟨Set.subset_insert _ _, ?_, Nat.le_succ _, ?_⟩
  · exact hvalid.insert hid hshaped hoperands hoptions fun f _ p hp =>
      (hnot p hp).elim
  · rintro f (rfl | hf)
    · exact .inr fun p hp => (hnot p hp).elim
    · exact .inl hf

/-- A step ended well for the nodes: the set has grown, the store is in it, and
so is what the step gives back.  If it failed, then not because of an
assertion. -/
def Ends {α : Type} (next : NodeId) (built : Set Expr) (gives : α → Set Expr)
    (final : (Except BuildFault α × NodeId) × List Expr) : Prop :=
  ∃ built', Grows next built final.1.2 built' ∧ {e | e ∈ final.2} ⊆ built' ∧
    (∀ a, final.1.1 = .ok a → gives a ⊆ built') ∧
    ∀ cause, final.1.1 = .error cause → ¬ cause.IsBroken

/-- Whatever was built before, as long as it contains the known expressions, the
step ends well for the nodes. -/
def Keeps {α : Type} (known : Set Expr) (gives : α → Set Expr) (p : Caller α) :
    Prop :=
  ∀ next built kept, Valid next built → known ⊆ built → {e | e ∈ kept} ⊆ built →
    Ends next built gives (p next kept)

variable {α β : Type} {known : Set Expr}

theorem Keeps.of_eq_ok {gives : α → Set Expr} {p : Caller α} {a : α}
    (hp : ∀ next kept, p next kept = ((.ok a, next), kept))
    (ha : gives a ⊆ known) :
    Keeps known gives p := by
  intro next built kept hvalid hknown hkept
  rw [hp]
  refine ⟨built, .refl hvalid, hkept, ?_, ?_⟩
  · rintro _ ⟨⟩
    exact ha.trans hknown
  · rintro _ ⟨⟩

theorem Keeps.pure {gives : α → Set Expr} {a : α} (ha : gives a ⊆ known) :
    Keeps known gives (pure a : Caller α) :=
  .of_eq_ok (fun _ _ => rfl) ha

theorem Keeps.fail {gives : α → Set Expr} {cause : BuildFault}
    (hcause : ¬ cause.IsBroken) :
    Keeps known gives (Build.fail cause : Caller α) := by
  intro next built kept hvalid _ hkept
  refine ⟨built, .refl hvalid, hkept, ?_, ?_⟩
  · rintro _ ⟨⟩
  · rintro _ ⟨⟩
    exact hcause

/-- A check that builds nothing. -/
theorem Keeps.check {gives : α → Set Expr} {checked : Except BuildFault α}
    (hgives : ∀ a, gives a ⊆ known)
    (hcause : ∀ cause, checked = .error cause → ¬ cause.IsBroken) :
    Keeps known gives (liftM checked : Caller α) := by
  cases checked with
  | ok a => exact Keeps.pure (hgives a)
  | error cause => exact Keeps.fail (hcause cause rfl)

theorem Keeps.mono {gives : α → Set Expr} {p : Caller α} {less : Set Expr}
    (hp : Keeps less gives p) (hless : less ⊆ known) : Keeps known gives p :=
  fun next built kept hvalid hknown => hp next built kept hvalid
    (hless.trans hknown)

theorem Keeps.gives_mono {gives gives' : α → Set Expr} {p : Caller α}
    (hp : Keeps known gives p) (hless : ∀ a, gives' a ⊆ gives a) :
    Keeps known gives' p := by
  intro next built kept hvalid hknown hkept
  obtain ⟨built₁, hgrows, hkept₁, hgives, hcause⟩ :=
    hp next built kept hvalid hknown hkept
  exact ⟨built₁, hgrows, hkept₁, fun a ha => (hless a).trans (hgives a ha),
    hcause⟩

theorem Keeps.bind {gives : α → Set Expr} {gives' : β → Set Expr} {p : Caller α}
    {rest : α → Caller β} (hp : Keeps known gives p)
    (hrest : ∀ a, p.Gives a → Keeps (known ∪ gives a) gives' (rest a)) :
    Keeps known gives' (p >>= rest) := by
  intro next built kept hvalid hknown hkept
  obtain ⟨built₁, hgrows, hkept₁, hgives, hcause⟩ :=
    hp next built kept hvalid hknown hkept
  rw [Caller.bind_apply]
  rcases hfinal : p next kept with ⟨⟨cause | a, next₁⟩, kept₁⟩
  · rw [hfinal] at hgrows hkept₁ hcause
    refine ⟨built₁, hgrows, hkept₁, ?_, ?_⟩
    · rintro _ ⟨⟩
    · rintro _ ⟨⟩
      exact hcause cause rfl
  · rw [hfinal] at hgrows hkept₁ hgives
    have ha : known ∪ gives a ⊆ built₁ :=
      Set.union_subset (hknown.trans hgrows.subset) (hgives a rfl)
    obtain ⟨built₂, hgrows₂, hkept₂, hgives₂⟩ :=
      hrest a ⟨next, kept, by rw [hfinal]⟩ next₁ built₁ kept₁ hgrows.valid ha
        hkept₁
    exact ⟨built₂, hgrows.trans hgrows₂, hkept₂, hgives₂⟩

theorem Keeps.tryCatch {gives : α → Set Expr} {p : Caller α}
    {handler : BuildFault → Caller α} (hp : Keeps known gives p)
    (hhandler : ∀ cause, ¬ cause.IsBroken → Keeps known gives (handler cause)) :
    Keeps known gives (tryCatch p handler) := by
  intro next built kept hvalid hknown hkept
  obtain ⟨built₁, hgrows, hkept₁, hgives, hcause⟩ :=
    hp next built kept hvalid hknown hkept
  rw [Caller.tryCatch_apply]
  rcases hfinal : p next kept with ⟨⟨cause | a, next₁⟩, kept₁⟩
  · rw [hfinal] at hgrows hkept₁ hcause
    obtain ⟨built₂, hgrows₂, hkept₂, hgives₂⟩ :=
      hhandler cause (hcause cause rfl) next₁ built₁ kept₁ hgrows.valid
        (hknown.trans hgrows.subset) hkept₁
    exact ⟨built₂, hgrows.trans hgrows₂, hkept₂, hgives₂⟩
  · rw [hfinal] at hgrows hkept₁ hgives
    refine ⟨built₁, hgrows, hkept₁, hgives, ?_⟩
    rintro _ ⟨⟩

theorem Keeps.mapM {gives : β → Set Expr} {f : α → Caller β} {items : List α}
    (hf : ∀ a ∈ items, Keeps known gives (f a)) :
    Keeps known (fun bs => {e | ∃ b ∈ bs, e ∈ gives b}) (items.mapM f) := by
  induction items with
  | nil =>
      rw [List.mapM_nil]
      apply Keeps.pure
      simp
  | cons a rest ih =>
      rw [List.mapM_cons]
      apply Keeps.bind (hf a List.mem_cons_self)
      intro b _
      apply Keeps.bind
      · exact (ih fun a ha => hf a (List.mem_cons_of_mem _ ha)).mono
          Set.subset_union_left
      · intro bs _
        apply Keeps.pure
        rintro e ⟨c, hc, he⟩
        rcases List.mem_cons.1 hc with rfl | hc
        · exact .inl (.inr he)
        · exact .inr ⟨c, hc, he⟩

/-! ## Adding nodes -/

/-- What a step gives back that gives back one expression. -/
def single (e : Expr) : Set Expr := {e}

/-- What a step gives back that gives back several expressions. -/
def several (es : List Expr) : Set Expr := {e | e ∈ es}

/-- What a step gives back that gives back nothing built. -/
def nothing (_ : α) : Set Expr := ∅

theorem Keeps.node {kind : NodeKind} {operands : List Expr}
    {options : Fields Expr}
    (hshaped : ∀ i, Shaped ⟨i, kind, operands, options⟩)
    (hkind : kind ≠ .function)
    (hoperands : ∀ x ∈ operands, x ∈ known)
    (hoptions : ∀ x ∈ options, x.2 ∈ known) :
    Keeps known single (Build.node kind operands options) := by
  intro next built kept hvalid hknown hkept
  have hgrows : Grows next built (next + 1)
      (insert ⟨next, kind, operands, options⟩ built) :=
    .insert hvalid rfl (hshaped next) hkind
      (fun x hx => hknown (hoperands x hx))
      (fun x hx => hknown (hoptions x hx))
  refine ⟨_, hgrows, hkept.trans hgrows.subset, ?_, ?_⟩
  · rintro _ ⟨⟩
    exact Set.singleton_subset_iff.2 (Set.mem_insert _ _)
  · rintro _ ⟨⟩

theorem Keeps.literal {value : Datum} (hvalue : value.Ordered) :
    Keeps known single (Expr.literal value) :=
  .node (fun _ => .literal hvalue) (by simp) (by simp) (by simp)

theorem Keeps.text {value : String} : Keeps known single (Expr.text value) :=
  .literal (by simp [Datum.Ordered])

theorem Keeps.operatorWith {kind : TermKind} {operands : List Expr}
    {options : Fields Expr}
    (hplain : IsPlain kind) (harity : kind.arity.accepts operands.length)
    (hsorted : Fields.Sorted options)
    (hoperands : ∀ x ∈ operands, x ∈ known)
    (hoptions : ∀ x ∈ options, x.2 ∈ known) :
    Keeps known single (Expr.operatorWith kind operands options) := by
  rw [Expr.operatorWith, if_pos harity]
  exact .node (fun _ => .operator hplain harity hsorted) (by simp) hoperands
    hoptions

theorem Keeps.operator {kind : TermKind} {operands : List Expr}
    (hplain : IsPlain kind) (harity : kind.arity.accepts operands.length)
    (hoperands : ∀ x ∈ operands, x ∈ known) :
    Keeps known single (Expr.operator kind operands) :=
  .operatorWith hplain harity Fields.sorted_nil hoperands (by simp)

/-! ## Functions -/

theorem parametersFrom_ids (next : NodeId) (count : Nat) :
    (parametersFrom next count).map Expr.id = List.range' next count := by
  rw [parametersFrom, List.map_map]
  exact List.map_id _

theorem mem_parametersFrom {next : NodeId} {count : Nat} {x : Expr}
    (hx : x ∈ parametersFrom next count) :
    x = parameterNode x.id ∧ next ≤ x.id ∧ x.id < next + count := by
  obtain ⟨i, hi, rfl⟩ := List.mem_map.1 hx
  exact ⟨rfl, List.mem_range'_1.1 hi⟩

theorem Grows.parameters {next : NodeId} {built : Set Expr}
    (hvalid : Valid next built) (count : Nat) :
    Grows next built (next + count)
      (built ∪ several (parametersFrom next count)) := by
  induction count generalizing next built with
  | zero =>
      have hnone : built ∪ several (parametersFrom next 0) = built := by
        simp [several, parametersFrom]
      rw [hnone]
      exact .refl hvalid
  | succ count ih =>
      have hfirst : Grows next built (next + 1)
          (Insert.insert (parameterNode next) built) :=
        .insert hvalid rfl .parameter (by simp [parameterNode])
          (by simp [parameterNode])
          (by simp [parameterNode])
      have hset : built ∪ several (parametersFrom next (count + 1)) =
          Insert.insert (parameterNode next) built ∪
            several (parametersFrom (next + 1) count) := by
        ext e
        simp only [parametersFrom_succ, several, List.mem_cons, Set.mem_union,
          Set.mem_insert_iff, Set.mem_ofPred_eq]
        tauto
      rw [hset, show next + (count + 1) = next + 1 + count by ring]
      exact hfirst.trans (ih hfirst.valid)

/-- A function is added after its parameters and its body.  None of the
functions made meanwhile has these parameters, nor does an older one, so that
the new function can. -/
theorem Grows.function {next next₁ : NodeId} {built built₁ : Set Expr}
    (hvalid : Valid next built) {count : Nat}
    (hgrows : Grows (next + count) (built ∪ several (parametersFrom next count))
      next₁ built₁)
    {e : Expr} (he : e ∈ built₁) :
    Grows next built (next₁ + 1)
      (Insert.insert ⟨next₁, .function, parametersFrom next count ++ [e], []⟩
        built₁) := by
  let f : Expr := ⟨next₁, .function, parametersFrom next count ++ [e], []⟩
  have hall := (Grows.parameters hvalid count).trans hgrows
  have hintroduces : ∀ p, f.Introduces p → next ≤ p ∧ p < next + count := by
    intro p hp
    obtain ⟨x, hx, rfl⟩ := List.mem_map.1 hp.2
    simp only [f, Expr.parameters, List.dropLast_concat] at hx
    exact (mem_parametersFrom hx).2
  have hfresh : ∀ g ∈ built₁, ∀ p, f.Introduces p → ¬ g.Introduces p := by
    intro g hg p hp hgp
    obtain ⟨hlow, hhigh⟩ := hintroduces p hp
    rcases hgrows.fresh g hg with (hg | hg) | hg
    · exact absurd (hvalid.introduces_lt hg hgp) hlow.not_gt
    · rw [(mem_parametersFrom hg).1] at hgp
      cases hgp.1
    · exact absurd hhigh (hg p hgp).not_gt
  have hshaped : f.Shaped := by
    apply Expr.Shaped.function
    · intro x hx
      rw [(mem_parametersFrom hx).1]
      rfl
    · rw [parametersFrom_ids]
      exact List.nodup_range'
  have hoperands : ∀ x ∈ f.operands, x ∈ built₁ := by
    intro x hx
    rcases List.mem_append.1 hx with hx | hx
    · exact hgrows.subset (.inr hx)
    · rw [List.mem_singleton.1 hx]
      exact he
  constructor
  · exact hall.subset.trans (Set.subset_insert _ _)
  · exact hgrows.valid.insert rfl hshaped hoperands (by simp) hfresh
  · exact hall.le.trans (Nat.le_succ _)
  · rintro g (rfl | hg)
    · exact .inr fun p hp => (hintroduces p hp).1
    · exact hall.fresh g hg

theorem Ends.function {next : NodeId} {built : Set Expr} {kept : List Expr}
    {count : Nat} {body : Caller Expr}
    (hbody : Keeps (known ∪ several (parametersFrom next count)) single body)
    (hvalid : Valid next built) (hknown : known ⊆ built)
    (hkept : {e | e ∈ kept} ⊆ built) :
    Ends next built single
      ((body >>= Expr.function (parametersFrom next count)) (next + count) kept) := by
  have hparameters := Grows.parameters hvalid count
  obtain ⟨built₁, hgrows, hkept₁, hgives, hcause⟩ :=
    hbody _ _ kept hparameters.valid (Set.union_subset_union_left _ hknown)
      (hkept.trans Set.subset_union_left)
  rw [Caller.bind_apply]
  rcases hfinal : body (next + count) kept with ⟨⟨cause | e, next₁⟩, kept₁⟩
  · rw [hfinal] at hgrows hkept₁ hcause
    refine ⟨built₁, hparameters.trans hgrows, hkept₁, ?_, ?_⟩
    · rintro _ ⟨⟩
    · rintro _ ⟨⟩
      exact hcause cause rfl
  · rw [hfinal] at hgrows hkept₁ hgives
    have hfunction := Grows.function hvalid hgrows (hgives e rfl rfl)
    refine ⟨_, hfunction, hkept₁.trans (Set.subset_insert _ _), ?_, ?_⟩
    · rintro _ ⟨⟩
      exact Set.singleton_subset_iff.2 (Set.mem_insert _ _)
    · rintro _ ⟨⟩

theorem lambda_apply (f : Expr → Caller Expr) (next : NodeId)
    (kept : List Expr) :
    Expr.lambda f next kept =
      (f (parameterNode next) >>= Expr.function (parametersFrom next 1))
        (next + 1) kept :=
  rfl

theorem lambda₂_apply (g : Expr → Expr → Caller Expr) (next : NodeId)
    (kept : List Expr) :
    Expr.lambda₂ g next kept =
      (g (parameterNode next) (parameterNode (next + 1)) >>=
        Expr.function (parametersFrom next 2)) (next + 2) kept :=
  rfl

theorem Keeps.lambda {f : Expr → Caller Expr}
    (hf : ∀ x, Keeps (insert x known) single (f x)) :
    Keeps known single (Expr.lambda f) := by
  intro next built kept hvalid hknown hkept
  have hbody : Keeps (known ∪ several (parametersFrom next 1)) single
      (f (parameterNode next)) :=
    (hf _).mono (by simp [several, parametersFrom])
  rw [lambda_apply]
  exact .function hbody hvalid hknown hkept

theorem Keeps.lambda₂ {g : Expr → Expr → Caller Expr}
    (hg : ∀ x y, Keeps (insert y (insert x known)) single (g x y)) :
    Keeps known single (Expr.lambda₂ g) := by
  intro next built kept hvalid hknown hkept
  have hbody : Keeps (known ∪ several (parametersFrom next 2)) single
      (g (parameterNode next) (parameterNode (next + 1))) :=
    (hg _ _).mono (by
      simp [several, parametersFrom, List.range'_succ, Set.insert_subset_iff])
  rw [lambda₂_apply]
  exact .function hbody hvalid hknown hkept

end DocumentQuery
