import DocumentQuery.Proofs.DocumentValue
import DocumentQuery.Proofs.WriteSummary

/-!
# Reading an outcome again

An outcome has a written form, and this form is itself a summary: its counters
stand under the names that no kind of write takes for anything else.  Only the
errors of rows are not read from it, so the list of changed rows has to stand
next to it.  Then the outcome is read back as it was, whatever the kind.
-/

namespace DocumentQuery

-- Powers are those of the core library, whatever else is imported.
attribute [local instance (2000)] instPowNat

namespace Datum

theorem mem_of_field? {d value : Datum} {name : String}
    (h : d.field? name = some value) :
    ∃ fields, d = .object fields ∧ (name, value) ∈ fields := by
  cases d with
  | object fields => exact ⟨fields, rfl, Fields.mem_of_find? h⟩
  | _ => cases h

theorem isFinite_of_mem {fields : Fields Datum} (h : fieldsFinite fields) :
    ∀ field ∈ fields, field.2.isFinite := by
  induction fields with
  | nil => simp
  | cons field rest ih =>
      rw [fieldsFinite, Bool.and_eq_true] at h
      exact List.forall_mem_cons.2 ⟨h.1, ih h.2⟩

end Datum

namespace WriteOutcome

/-- The written form of an outcome as a datum. -/
def toDatum (o : WriteOutcome) : Datum := o.toValue.toDatum

/-- The same together with the changed rows that a summary lists, if it does. -/
def withChanges (o : WriteOutcome) (d : Datum) : Datum :=
  match o.toDatum, d.field? "changes" with
  | .object fields, some changes => .object (Fields.insert "changes" changes fields)
  | written, _ => written

variable {kind : WriteKind} {o : WriteOutcome} {d : Datum}

/-! ## The fields of the written form -/

theorem toDatum_eq (o : WriteOutcome) :
    o.toDatum = .ofPairs
      [("inserted", .ofNat o.inserted.toNat), ("updated", .ofNat o.updated.toNat),
        ("modified", .ofNat o.modified.toNat), ("deleted", .ofNat o.deleted.toNat),
        ("skipped", .ofNat o.skipped.toNat), ("errors", .ofNat o.errors.toNat),
        ("first_error", o.firstError.elim .null .string),
        ("generated_keys",
          .array (JsonValue.itemsToDatum (Datum.itemsToValue o.generatedKeys))),
        ("row_errors",
          .array (JsonValue.itemsToDatum (o.rowErrors.map rowErrorToValue)))] := by
  have hfirst : (o.firstError.elim .null .string : JsonValue).toDatum =
      o.firstError.elim .null .string := by
    cases o.firstError <;> rfl
  rw [← hfirst]
  rfl

theorem field?_toDatum_count (counter : Counter) :
    o.toDatum.field? counter.name = some (.ofNat (o.count counter).toNat) := by
  cases counter <;>
    simp [toDatum_eq, Datum.ofPairs, Fields.ofList, Counter.name, count]

theorem field?_toDatum_alias :
    o.toDatum.field? "replaced" = none ∧ o.toDatum.field? "unchanged" = none ∧
      o.toDatum.field? "changes" = none := by
  simp [toDatum_eq, Datum.ofPairs, Fields.ofList]

theorem field?_toDatum_firstError :
    o.toDatum.field? "first_error" = some (o.firstError.elim .null .string) := by
  simp [toDatum_eq, Datum.ofPairs, Fields.ofList]

theorem field?_toDatum_generatedKeys :
    o.toDatum.field? "generated_keys" =
      some (.array (JsonValue.itemsToDatum (Datum.itemsToValue o.generatedKeys))) := by
  simp [toDatum_eq, Datum.ofPairs, Fields.ofList]

theorem exists_withChanges (o : WriteOutcome) (d : Datum) :
    ∃ fields, o.withChanges d = .object fields ∧ Fields.Sorted fields := by
  rw [withChanges, toDatum_eq]
  cases d.field? "changes" with
  | none => exact ⟨_, rfl, Fields.sorted_ofList _⟩
  | some changes => exact ⟨_, rfl, (Fields.sorted_ofList _).insert _ _⟩

theorem field?_withChanges (o : WriteOutcome) (d : Datum) (name : String) :
    (o.withChanges d).field? name =
      if name = "changes" then d.field? "changes" else o.toDatum.field? name := by
  have hnone : o.toDatum.field? "changes" = none := field?_toDatum_alias.2.2
  rw [withChanges]
  cases hchanges : d.field? "changes" with
  | none =>
      by_cases hname : name = "changes"
      · simpa [hname] using hnone
      · simp [hname]
  | some changes =>
      rw [toDatum_eq, Datum.ofPairs]
      by_cases hname : name = "changes"
      · simp [hname]
      · simp [hname, Ne.symm hname]

/-! ## What is read from it -/

theorem field?_withChanges_count (counter : Counter) :
    (o.withChanges d).field? counter.name = some (.ofNat (o.count counter).toNat) := by
  have hname : counter.name ≠ "changes" := by
    cases counter <;> simp [Counter.name]
  rw [field?_withChanges, if_neg hname, field?_toDatum_count]

theorem field?_withChanges_alias :
    (o.withChanges d).field? "replaced" = none ∧
      (o.withChanges d).field? "unchanged" = none := by
  simp [field?_withChanges, field?_toDatum_alias]

theorem name_of_ofField? {name : String} {counter : Counter}
    (h : Counter.ofField? kind name = some counter) :
    name = "replaced" ∨ name = "unchanged" ∨ name = counter.name := by
  unfold Counter.ofField? at h
  by_cases hreplaced : name = "replaced"
  · exact .inl hreplaced
  by_cases hunchanged : name = "unchanged"
  · exact .inr (.inl hunchanged)
  rw [if_neg hreplaced, if_neg hunchanged] at h
  have hname : (counter.name == name) = true :=
    List.find?_some (p := fun counter : Counter => counter.name == name) h
  exact .inr (.inr (beq_iff_eq.1 hname).symm)

/-- Whatever the kind, a counter is reported under its own name only. -/
theorem sum_reported_withChanges (hcounts : ∀ counter, (o.count counter).toNat ≤ 2 ^ 53)
    (counter : Counter) :
    ∑ name ∈ Counter.fieldNames with Counter.ofField? kind name = some counter,
      reported (o.withChanges d) name = (o.count counter).toNat := by
  have hown : Counter.ofField? kind counter.name = some counter := by
    cases counter <;> simp [Counter.ofField?, Counter.all, Counter.name]
  have hmem : counter.name ∈ Counter.fieldNames := (ne_of_ofField? hown).1
  have hreported :
      reported (o.withChanges d) counter.name = (o.count counter).toNat := by
    rw [reported, field?_withChanges_count, Option.map_some, Option.getD_some,
      Datum.asWord?_ofNat (hcounts counter), Option.getD_some]
  obtain ⟨hreplaced, hunchanged⟩ := field?_withChanges_alias (o := o) (d := d)
  rw [← hreported]
  -- The older names are not written, and no other name means this counter.
  apply Finset.sum_eq_single_of_mem _ (Finset.mem_filter.2 ⟨hmem, hown⟩)
  intro name hname hother
  rcases name_of_ofField? (Finset.mem_filter.1 hname).2 with rfl | rfl | heq
  · simp [reported, hreplaced]
  · simp [reported, hunchanged]
  · exact absurd heq hother

theorem changedRows_withChanges (o : WriteOutcome) (d : Datum) :
    changedRows (o.withChanges d) = changedRows d := by
  simp [changedRows, field?_withChanges]

theorem isSummary_withChanges (hd : IsSummary d)
    (hcounts : ∀ counter, (o.count counter).toNat ≤ 2 ^ 53) :
    IsSummary (o.withChanges d) := by
  obtain ⟨fields, hfields, -⟩ := exists_withChanges o d
  constructor
  · exact ⟨fields, hfields⟩
  · intro name hname value hvalue
    have hsome : (Counter.ofField? .mixed name).isSome :=
      Counter.isSome_ofField?_iff.2 hname
    obtain ⟨counter, hcounter⟩ := Option.isSome_iff_exists.1 hsome
    obtain ⟨hreplaced, hunchanged⟩ := field?_withChanges_alias (o := o) (d := d)
    rcases name_of_ofField? hcounter with rfl | rfl | rfl
    · rw [hreplaced] at hvalue
      cases hvalue
    · rw [hunchanged] at hvalue
      cases hvalue
    · rw [field?_withChanges_count] at hvalue
      cases hvalue
      rw [← isSome_asWord?_iff, Datum.asWord?_ofNat (hcounts counter)]
      rfl
  · intro value hvalue
    rw [field?_withChanges, if_neg (by decide), field?_toDatum_generatedKeys] at hvalue
    exact ⟨_, (Option.some.inj hvalue).symm⟩
  · intro value hvalue
    rw [field?_withChanges, if_pos rfl] at hvalue
    exact hd.changes value hvalue

theorem generatedKeys_eq (hkeeps : Keeps kind d o) (hordered : d.Ordered)
    (hfinite : d.isFinite) :
    JsonValue.itemsToDatum (Datum.itemsToValue o.generatedKeys) = o.generatedKeys := by
  rw [hkeeps.generatedKeys]
  cases hfield : d.field? "generated_keys" with
  | none => rfl
  | some value =>
      obtain ⟨fields, rfl, hmem⟩ := Datum.mem_of_field? hfield
      have hvalue := Datum.fieldsOrdered_iff.1 hordered.2 _ hmem
      have hnumbers := Datum.isFinite_of_mem hfinite _ hmem
      cases value with
      | array items => exact Datum.itemsToDatum_toValue items hvalue hnumbers
      | _ => rfl

theorem ownError?_elim (error : Option String) :
    ownError? (error.elim .null .string) = error := by
  cases error <;> rfl

theorem firstError_eq (hkeeps : Keeps kind d o) :
    (o.firstError <|> o.rowErrors.head?) = o.firstError := by
  rw [hkeeps.firstError]
  cases (d.field? "first_error").bind ownError? <;> simp

theorem eq_of_count {o o' : WriteOutcome}
    (hcount : ∀ counter, o.count counter = o'.count counter)
    (hfirst : o.firstError = o'.firstError)
    (hkeys : o.generatedKeys = o'.generatedKeys)
    (herrors : o.rowErrors = o'.rowErrors) : o = o' := by
  cases o
  cases o'
  rw [mk.injEq]
  exact ⟨hcount .inserted, hcount .updated, hcount .modified, hcount .deleted,
    hcount .skipped, hcount .errors, hfirst, hkeys, herrors⟩

/-- An outcome read from a document is read again from its own written form next
to the changed rows, whatever the kind. -/
theorem ofDatum_withChanges {kind : WriteKind} {d : Datum} {o : WriteOutcome}
    (hordered : d.Ordered) (hfinite : d.isFinite) (ho : ofDatum kind d = .ok o)
    (hcounts : ∀ counter, (o.count counter).toNat ≤ 2 ^ 53) (kind' : WriteKind) :
    ofDatum kind' (o.withChanges d) = .ok o := by
  have hkeeps := keeps_of_reads hordered ho
  obtain ⟨fields, hfields, hsorted⟩ := exists_withChanges o d
  have hsummary := isSummary_withChanges ((reads_iff hordered).1 ⟨o, ho⟩) hcounts
  rw [hfields] at hsummary
  obtain ⟨again, hagain⟩ := (reads_object_iff kind' hsorted).2 hsummary
  have hkept := keeps_object hsorted hagain
  rw [← hfields] at hkept hagain
  have hreports : ReportsCounts (o.withChanges d) :=
    ⟨Counter.name .inserted, by decide, by rw [field?_withChanges_count]; rfl⟩
  have herrors : again.rowErrors = o.rowErrors := by
    rw [hkept.rowErrors, changedRows_withChanges, hkeeps.rowErrors]
  have hfirst : again.firstError = o.firstError := by
    rw [hkept.firstError, herrors, field?_withChanges, if_neg (by decide),
      field?_toDatum_firstError, Option.bind_some, ownError?_elim, firstError_eq hkeeps]
  have hkeys : again.generatedKeys = o.generatedKeys := by
    rw [hkept.generatedKeys, field?_withChanges, if_neg (by decide),
      field?_toDatum_generatedKeys]
    exact generatedKeys_eq hkeeps hordered hfinite
  have hsame (counter : Counter) : again.count counter = o.count counter := by
    rw [← UInt64.toNat_inj, hkept.count_reported hreports,
      sum_reported_withChanges hcounts, Nat.mod_eq_of_lt (o.count counter).toNat_lt]
  rw [hagain, eq_of_count hsame hfirst hkeys herrors]

/-- What a replacement modified stays modified in the eyes of any other write. -/
theorem aliasedSummary_withChanges :
    aliasedSummary.Ordered ∧ aliasedSummary.isFinite ∧
    ∃ o, ofDatum .replace aliasedSummary = .ok o ∧
      (∀ counter, (o.count counter).toNat ≤ 2 ^ 53) ∧
      ofDatum .update (o.withChanges aliasedSummary) = .ok o := by
  have hfinite : aliasedSummary.isFinite := by decide +kernel
  obtain ⟨o, ho⟩ := reads_aliasedSummary .replace
  have hkeeps := keeps_of_reads ordered_aliasedSummary ho
  have hcounts (counter : Counter) : (o.count counter).toNat ≤ 2 ^ 53 := by
    rw [hkeeps.count_reported reportsCounts_aliasedSummary]
    cases counter <;> decide +kernel
  exact ⟨ordered_aliasedSummary, hfinite, o, ho, hcounts,
    ofDatum_withChanges ordered_aliasedSummary hfinite ho hcounts .update⟩

end WriteOutcome

end DocumentQuery
