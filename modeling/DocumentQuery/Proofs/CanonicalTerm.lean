import DocumentQuery.Proofs.BinderHygiene
import DocumentQuery.Proofs.DocumentReading
import DocumentQuery.Proofs.WordRange
import DocumentQuery.Session.Settings

/-!
# Terms that are sent

Compiling makes canonical terms, and so are the options that a session adds.
What an expression contributes is ordered from the start and finite once it has
been compiled; the numbers of parameters are finite because a word holds
them.
-/

open DocumentQuery.Expr

namespace DocumentQuery

-- Powers are those of the core library, whatever else is imported.
attribute [local instance (2000)] instPowNat

/-! ## Numbers of parameters -/

namespace Datum

theorem ordered_ofNats (ids : List Nat) : ItemsOrdered (ids.map .ofNat) :=
  itemsOrdered_iff.2 (List.forall_mem_map.2 fun _ _ => trivial)

theorem finite_ofNats {ids : List Nat} (hids : ∀ id ∈ ids, id < 2 ^ 64) :
    itemsFinite (ids.map .ofNat) := by
  induction ids with
  | nil => rfl
  | cons id rest ih =>
      rw [List.forall_mem_cons] at hids
      rw [List.map_cons, itemsFinite, Bool.and_eq_true]
      exact ⟨Binary.isFinite_ofNat hids.1, ih hids.2⟩

end Datum

theorem Binds.mem_numbers {binders : List Binder} {p : NodeId} {number : Nat}
    (h : Binds binders p number) :
    ∃ binder ∈ binders, number ∈ binder.numbers := by
  induction h with
  | nearest _ hposition =>
      exact ⟨_, List.mem_cons_self, List.mem_of_getElem? hposition⟩
  | outer _ _ ih =>
      obtain ⟨binder, hbinder, hnumber⟩ := ih
      exact ⟨binder, List.mem_cons_of_mem _ hbinder, hnumber⟩

/-! ## What terms are made of -/

namespace Term

theorem Canonical.literal {d : Datum} (hordered : d.Ordered)
    (hfinite : d.isFinite) : (Term.literal d).Canonical := by
  refine .mk (by simp) Fields.sorted_nil (by simp) ?_
  rintro value hvalue
  split at hvalue
  · cases hvalue
  · next hnull =>
      cases hvalue
      refine ⟨?_, hordered, hfinite⟩
      rintro rfl
      exact hnull rfl

theorem Canonical.ofArgs {kind : TermKind} {args : List Term}
    (hargs : ∀ arg ∈ args, arg.Canonical) : (Term.ofArgs kind args).Canonical :=
  .mk hargs Fields.sorted_nil (by simp) (by simp)

theorem Canonical.withOption {t : Term} (ht : t.Canonical) (name : String)
    {option : Term} (hoption : option.Canonical) :
    (t.withOption name option).Canonical := by
  obtain ⟨hargs, hsorted, hoptions, hvalue⟩ := ht
  refine .mk hargs (hsorted.insert name option) (fun entry hentry => ?_) hvalue
  rcases Fields.mem_insert hentry with rfl | hentry
  · exact hoption
  · exact hoptions entry hentry

theorem Canonical.database (name : String) :
    (Term.ofArgs .db [.literal (.string name)]).Canonical :=
  .ofArgs (by simpa using .literal trivial rfl)

theorem Canonical.finished (context : CompileContext) (kind : TermKind)
    {t : Term} (ht : t.Canonical) :
    (Compile.finished context kind t).Canonical := by
  unfold Compile.finished
  split
  · exact ht.withOption _ (.literal trivial rfl)
  · exact ht

theorem Canonical.qualify (context : CompileContext) {args : List Term}
    (hargs : ∀ arg ∈ args, arg.Canonical) :
    ∀ arg ∈ Compile.qualify context args, arg.Canonical := by
  unfold Compile.qualify
  split
  · next name database _ =>
      rw [List.forall_mem_cons]
      exact ⟨.database database, hargs⟩
  · exact hargs

end Term

/-! ## Compiled terms -/

/-- The numbers of all parameters are words. -/
def Words (binders : List Binder) : Prop :=
  ∀ binder ∈ binders, ∀ number ∈ binder.numbers, number < 2 ^ 64

theorem TracesOptions.names_eq {context : CompileContext}
    {binders : List Binder} {es : List (String × Expr)}
    {ts : List (String × Term)} (h : TracesOptions context binders es ts) :
    Fields.names ts = Fields.names es := by
  induction es generalizing ts with
  | nil => cases h; rfl
  | cons e es ih =>
      cases h with
      | cons _ hrest => exact congrArg _ (ih hrest)

mutual

theorem canonical_of_lexical (context : CompileContext) (binders : List Binder)
    (hwords : Words binders) :
    ∀ e : Expr, (∀ n ∈ e.nodes, n.Shaped) →
    ∀ (progress progress' : Progress) (t : Term),
      Lexical.expr context binders e progress = (.ok t, progress') →
      progress'.next ≤ 2 ^ 64 → t.Canonical
  | ⟨i, kind, operands, options⟩, hshaped, progress, progress', t, h, hnext => by
    obtain ⟨hself, hoperands, hoptions⟩ := forall_nodes.1 hshaped
    have hargs := canonical_of_exprs context binders hwords operands hoperands
    cases hself with
    | literal hordered =>
        rw [Lexical.expr] at h
        split at h
        · next hfinite =>
            cases h
            exact .literal hordered hfinite
        · cases h
    | database =>
        rw [Lexical.expr] at h
        obtain ⟨args, progress₁, hrun, h⟩ := fallible_bind_ok h
        cases h
        exact .ofArgs (hargs _ _ _ hrun hnext)
    | table =>
        rw [Lexical.expr] at h
        obtain ⟨args, progress₁, hrun, h⟩ := fallible_bind_ok h
        cases h
        exact .ofArgs (.qualify context (hargs _ _ _ hrun hnext))
    | parameter =>
        rw [Lexical.expr] at h
        obtain ⟨number, progress₁, hrun, h⟩ := fallible_bind_ok h
        cases h
        obtain ⟨hnumber, rfl⟩ := Lexical.resolve_ok hrun
        obtain ⟨binder, hbinder, hmem⟩ := (Binds.of_numberOf hnumber).mem_numbers
        have hword := hwords binder hbinder number hmem
        exact .ofArgs (by simpa using .literal trivial (Binary.isFinite_ofNat hword))
    | @function _ parameters body _ _ =>
        rw [Lexical.expr, if_neg (by simp)] at h
        obtain ⟨first, progress₁, htake, h⟩ := fallible_bind_ok h
        cases htake
        obtain ⟨term, progress₂, hrun, h⟩ := fallible_bind_ok h
        cases h
        let binder : Binder :=
          ⟨⟨i, .function, parameters ++ [body], []⟩, rfl, progress.next⟩
        obtain ⟨_, _, _, hdraws⟩ :=
          traces_of_lexicalLast context _ _ hoperands _ _ _ hrun
        -- The body draws its numbers after those of the parameters.
        have hnumbers : ∀ number ∈ binder.numbers, number < 2 ^ 64 := by
          intro number hnumber
          have hlt := (List.mem_range'_1.1 hnumber).2
          exact hlt.trans_le (hdraws.1.trans hnext)
        have hwithin : Words (binder :: binders) :=
          List.forall_mem_cons.2 ⟨hnumbers, hwords⟩
        have hbody := canonical_of_last context (binder :: binders) hwithin
          (parameters ++ [body]) hoperands _ _ _ hrun hnext
        have hids : (Term.literal
            (.array (binder.numbers.map .ofNat))).Canonical :=
          .literal (Datum.ordered_ofNats _) (Datum.finite_ofNats hnumbers)
        exact .ofArgs (by simpa using ⟨hids, hbody⟩)
    | operator _ harity hsorted =>
        rw [Lexical.expr, if_pos harity] at h
        obtain ⟨args, progress₁, hrun, h⟩ := fallible_bind_ok h
        obtain ⟨named, progress₂, hrun', h⟩ := fallible_bind_ok h
        cases h
        obtain ⟨htraces, hdraws⟩ := tracesOptions_of_lexical context binders
          options hoptions _ _ _ hrun'
        have hcanonical := hargs _ _ _ hrun (hdraws.1.trans hnext)
        have hnamed := canonical_of_options context binders hwords options
          hoptions _ _ _ hrun' hnext
        have hordered : Fields.Sorted named := by
          rw [Fields.sorted_iff_names, htraces.names_eq,
            ← Fields.sorted_iff_names]
          exact hsorted
        exact .finished context _ (.mk hcanonical hordered hnamed (by simp))

theorem canonical_of_exprs (context : CompileContext) (binders : List Binder)
    (hwords : Words binders) :
    ∀ es : List Expr, (∀ n ∈ operandNodes es, n.Shaped) →
    ∀ (progress progress' : Progress) (ts : List Term),
      Lexical.exprs context binders es progress = (.ok ts, progress') →
      progress'.next ≤ 2 ^ 64 → ∀ t ∈ ts, t.Canonical
  | [], _, _, _, _, h, _ => by
    cases h
    simp
  | e :: rest, hshaped, progress, progress', ts, h, hnext => by
    rw [operandNodes, List.forall_mem_append] at hshaped
    rw [Lexical.exprs] at h
    obtain ⟨term, progress₁, hrun, h⟩ := fallible_bind_ok h
    obtain ⟨terms, progress₂, hrun', h⟩ := fallible_bind_ok h
    cases h
    have hle := (tracesAll_of_lexical context binders rest hshaped.2 _ _ _
      hrun').2.1
    rw [List.forall_mem_cons]
    exact ⟨canonical_of_lexical context binders hwords e hshaped.1 _ _ _ hrun
        (hle.trans hnext),
      canonical_of_exprs context binders hwords rest hshaped.2 _ _ _ hrun' hnext⟩

theorem canonical_of_last (context : CompileContext) (binders : List Binder)
    (hwords : Words binders) :
    ∀ es : List Expr, (∀ n ∈ operandNodes es, n.Shaped) →
    ∀ (progress progress' : Progress) (t : Term),
      Lexical.lastExpr context binders es progress = (.ok t, progress') →
      progress'.next ≤ 2 ^ 64 → t.Canonical
  | [], _, _, _, _, h, _ => by cases h
  | [e], hshaped, progress, progress', t, h, hnext => by
    rw [operandNodes, List.forall_mem_append] at hshaped
    exact canonical_of_lexical context binders hwords e hshaped.1 _ _ _ h hnext
  | _ :: e :: rest, hshaped, progress, progress', t, h, hnext => by
    rw [operandNodes, List.forall_mem_append] at hshaped
    exact canonical_of_last context binders hwords (e :: rest) hshaped.2 _ _ _
      h hnext

theorem canonical_of_options (context : CompileContext) (binders : List Binder)
    (hwords : Words binders) :
    ∀ es : List (String × Expr), (∀ n ∈ optionNodes es, n.Shaped) →
    ∀ (progress progress' : Progress) (ts : List (String × Term)),
      Lexical.exprOptions context binders es progress = (.ok ts, progress') →
      progress'.next ≤ 2 ^ 64 → ∀ t ∈ ts, t.2.Canonical
  | [], _, _, _, _, h, _ => by
    cases h
    simp
  | (name, e) :: rest, hshaped, progress, progress', ts, h, hnext => by
    rw [optionNodes, List.forall_mem_append] at hshaped
    rw [Lexical.exprOptions] at h
    obtain ⟨term, progress₁, hrun, h⟩ := fallible_bind_ok h
    obtain ⟨terms, progress₂, hrun', h⟩ := fallible_bind_ok h
    cases h
    have hle := (tracesOptions_of_lexical context binders rest hshaped.2 _ _ _
      hrun').2.1
    rw [List.forall_mem_cons]
    exact ⟨canonical_of_lexical context binders hwords e hshaped.1 _ _ _ hrun
        (hle.trans hnext),
      canonical_of_options context binders hwords rest hshaped.2 _ _ _ hrun'
        hnext⟩

end

/-- Compiling gives canonical terms as long as a word holds the numbers of the
parameters. -/
theorem Expr.Obtainable.canonical_compile {e : Expr} (he : e.Obtainable)
    {context : CompileContext} {t : Term} (h : e.compile context = .ok t)
    (hwords : e.parametersBound context < 2 ^ 64) : t.Canonical := by
  have hsound := he.sound
  rw [hsound.parametersBound_eq] at hwords
  rw [hsound.compile_eq] at h
  rcases hrun : Lexical.expr context [] e ⟨1, []⟩ with ⟨result, progress⟩
  rw [hrun] at h hwords
  cases h
  have hnext : progress.next - 1 < 2 ^ 64 := hwords
  exact canonical_of_lexical context [] (by simp [Words]) e hsound.shaped _ _ _
    hrun (by omega)

/-! ## Options of a session -/

theorem Settings.sorted_startOptions (s : Settings) :
    Fields.Sorted s.startOptions := by
  have hnames : (Fields.names s.startOptions).Sublist
      ["db", "durability", "max_batch_rows", "profile"] := by
    unfold startOptions
    split_ifs <;> simp [Fields.names, SettingKey.name]
  rw [Fields.sorted_iff_names]
  exact List.Pairwise.sublist hnames (by decide)

theorem Settings.canonical_startOptions {s : Settings}
    (hrows : s.maxBatchRows < 2 ^ 64) :
    ∀ option ∈ s.startOptions, option.2.Canonical := by
  have hdatabase := Term.Canonical.database s.defaultDatabase
  have hdurability : (Term.literal (s.value .durability)).Canonical :=
    .literal trivial rfl
  have hbatch : (Term.literal (s.value .maxBatchRows)).Canonical :=
    .literal trivial (Binary.isFinite_ofNat hrows)
  have hprofile : (Term.literal (s.value .profile)).Canonical :=
    .literal trivial rfl
  unfold startOptions
  split_ifs <;> simp [hdatabase, hdurability, hbatch, hprofile]

end DocumentQuery
