import DocumentQuery.Proofs.WriteReport
import Mathlib.Algebra.BigOperators.Group.Finset.Piecewise

/-!
# What a summary comes to

The fields of a summary are taken in one after the other, and each of them adds
its own part to the outcome: a counter field its number, the list of changed rows
the errors of the rows, and the rows themselves only where no counter is
reported.  No part depends on the others, so the outcome of a whole summary is
the sum of the parts, modulo `2 ^ 64` as long as it is a sum of words.
-/

namespace DocumentQuery

/-! ## Fields by name -/

namespace Fields

variable {α : Type} {fields : Fields α} {name : String} {value : α}

/-- A field with a new name adds its weight if its name is among those that are
summed over. -/
theorem sum_find?_cons (hfresh : name ∉ names fields) (listed : Finset String)
    (weight : α → ℕ) :
    ∑ n ∈ listed, ((find? n ((name, value) :: fields)).map weight).getD 0 =
      (if name ∈ listed then weight value else 0) +
        ∑ n ∈ listed, ((find? n fields).map weight).getD 0 := by
  rw [← Finset.sum_ite_eq listed name fun _ => weight value,
    ← Finset.sum_add_distrib]
  refine Finset.sum_congr rfl fun n _ => ?_
  by_cases hname : name = n
  · subst hname
    simp [find?_cons, find?_eq_none hfresh]
  · simp [find?_cons, hname]

end Fields

@[simp] theorem Datum.field?_object (name : String) (fields : Fields Datum) :
    (Datum.object fields).field? name = Fields.find? name fields :=
  rfl

/-! ## The fields of a summary -/

/-- The fields that report a counter. -/
def Counter.fieldNames : Finset String :=
  {"inserted", "updated", "modified", "deleted", "skipped", "errors", "replaced",
    "unchanged"}

theorem Counter.isSome_ofField?_iff {kind : WriteKind} {name : String} :
    (ofField? kind name).isSome ↔ name ∈ fieldNames := by
  by_cases hreplaced : name = "replaced"
  · simp [ofField?, fieldNames, hreplaced]
  by_cases hunchanged : name = "unchanged"
  · simp [ofField?, fieldNames, hunchanged]
  · simp [ofField?, fieldNames, hreplaced, hunchanged, all, Counter.name,
      @eq_comm String name]

theorem Counter.ofField?_eq_none_iff {kind : WriteKind} {name : String} :
    ofField? kind name = none ↔ name ∉ fieldNames := by
  rw [← isSome_ofField?_iff, Option.not_isSome_iff_eq_none]

namespace WriteOutcome

/-- All names that mean something in a summary. -/
def fieldNames : Finset String :=
  Counter.fieldNames ∪ {"first_error", "generated_keys", "changes"}

/-- The number reported under a name, zero if there is none. -/
def reported (d : Datum) (name : String) : ℕ :=
  ((d.field? name).map fun value => value.asWord?.getD 0).getD 0

/-- The rows of the list of changes, none if there is no list. -/
def changedRows (d : Datum) : List Datum :=
  ((d.field? "changes").bind Datum.asArray?).getD []

/-- The message of a row that carries an error. -/
def rowError? (row : Datum) : Option String := (row.field? "error").map errorText

/-- The error under a value, which null is not. -/
def ownError? (value : Datum) : Option String :=
  if value.isNull then none else some (errorText value)

/-- A field that can be taken in: a counter holds a word, and the two lists are
lists. -/
@[mk_iff] structure Accepts (name : String) (value : Datum) : Prop where
  count : name ∈ Counter.fieldNames → value.asWord?.isSome
  list : name = "generated_keys" ∨ name = "changes" → value.asArray?.isSome

variable {kind : WriteKind} {counting : Bool} {fields : Fields Datum}

/-- What taking fields in adds to an outcome. -/
structure Adds (kind : WriteKind) (counting : Bool) (fields : Fields Datum)
    (o o' : WriteOutcome) : Prop where
  total : o'.total = o.total + .ofNat
    (∑ name ∈ Counter.fieldNames, reported (.object fields) name +
      if counting then (changedRows (.object fields)).length else 0)
  count : ∀ counter, o'.count counter = o.count counter + .ofNat
    (∑ name ∈ Counter.fieldNames with Counter.ofField? kind name = some counter,
        reported (.object fields) name +
      if counting then rowsUnder kind (changedRows (.object fields)) counter else 0)
  rowErrors : o'.rowErrors =
    o.rowErrors ++ (changedRows (.object fields)).filterMap rowError?
  firstError : o'.firstError =
    ((Fields.find? "first_error" fields).map ownError?).getD o.firstError
  generatedKeys : o'.generatedKeys =
    ((Fields.find? "generated_keys" fields).map fun value =>
      value.asArray?.getD []).getD o.generatedKeys

/-! ## Changed rows -/

@[simp] theorem add_rowErrors (n : UInt64) (o : WriteOutcome) (counter : Counter) :
    (o.add n counter).rowErrors = o.rowErrors := by
  cases counter <;> rfl

@[simp] theorem add_firstError (n : UInt64) (o : WriteOutcome) (counter : Counter) :
    (o.add n counter).firstError = o.firstError := by
  cases counter <;> rfl

@[simp] theorem add_generatedKeys (n : UInt64) (o : WriteOutcome) (counter : Counter) :
    (o.add n counter).generatedKeys = o.generatedKeys := by
  cases counter <;> rfl

def withErrors (o : WriteOutcome) (errors : List String) : WriteOutcome :=
  { o with rowErrors := o.rowErrors ++ errors }

@[simp] theorem total_withErrors (o : WriteOutcome) (errors : List String) :
    (o.withErrors errors).total = o.total :=
  rfl

@[simp] theorem count_withErrors (o : WriteOutcome) (errors : List String)
    (counter : Counter) : (o.withErrors errors).count counter = o.count counter := by
  cases counter <;> rfl

@[simp] theorem total_withFirstError (o : WriteOutcome) (error : Option String) :
    total { o with firstError := error } = o.total :=
  rfl

@[simp] theorem count_withFirstError (o : WriteOutcome) (error : Option String)
    (counter : Counter) :
    count { o with firstError := error } counter = o.count counter := by
  cases counter <;> rfl

@[simp] theorem total_withGeneratedKeys (o : WriteOutcome) (keys : List Datum) :
    total { o with generatedKeys := keys } = o.total :=
  rfl

@[simp] theorem count_withGeneratedKeys (o : WriteOutcome) (keys : List Datum)
    (counter : Counter) :
    count { o with generatedKeys := keys } counter = o.count counter := by
  cases counter <;> rfl

theorem addChange_eq (o : WriteOutcome) (row : Datum) :
    addChange kind counting o row =
      if counting then
        (o.withErrors (rowError? row).toList).increment (rowCounter kind row)
      else o.withErrors (rowError? row).toList := by
  cases herror : row.field? "error" <;>
    simp [addChange, rowCounter, rowClass, carriesError, rowError?, withErrors, herror]

theorem foldl_addChange (rows : List Datum) (o : WriteOutcome) :
    let after := rows.foldl (addChange kind counting) o
    after.total = o.total + .ofNat (if counting then rows.length else 0) ∧
    (∀ counter, after.count counter = o.count counter +
      .ofNat (if counting then rowsUnder kind rows counter else 0)) ∧
    after.rowErrors = o.rowErrors ++ rows.filterMap rowError? ∧
    after.firstError = o.firstError ∧ after.generatedKeys = o.generatedKeys := by
  -- An error is noted in either mode; whether a row counts is the mode's affair.
  induction rows generalizing o with
  | nil => simp [rowsUnder]
  | cons row rows ih =>
      have herrors : (row :: rows).filterMap rowError? =
          (rowError? row).toList ++ rows.filterMap rowError? := by
        cases herror : rowError? row <;> simp [herror]
      obtain ⟨htotal, hcount, hnoted, hfirst, hkeys⟩ :=
        ih (addChange kind counting o row)
      rw [List.foldl_cons]
      refine ⟨htotal.trans ?_, fun counter => (hcount counter).trans ?_,
        hnoted.trans ?_, hfirst.trans ?_, hkeys.trans ?_⟩ <;>
        rw [addChange_eq]
      · cases counting
        · simp
        · simp only [if_true, increment, total_add, total_withErrors, List.length_cons]
          rw [UInt64.ofNat_add, UInt64.add_assoc, UInt64.add_comm 1]
          rfl
      · cases counting
        · simp
        · simp only [if_true, increment, count_add, count_withErrors, rowsUnder,
            List.countP_cons, decide_eq_true_eq]
          rw [UInt64.ofNat_add, UInt64.add_assoc, UInt64.add_comm (.ofNat _)]
          simp [apply_ite UInt64.ofNat]
      · rw [herrors]
        cases counting <;> simp [increment, withErrors]
      · cases counting <;> simp [increment, withErrors]
      · cases counting <;> simp [increment, withErrors]

/-! ## One field -/

/-- The rows that a field lists. -/
def rowsOf (name : String) (value : Datum) : List Datum :=
  if name = "changes" then value.asArray?.getD [] else []

theorem not_mem_fieldNames :
    "first_error" ∉ Counter.fieldNames ∧ "generated_keys" ∉ Counter.fieldNames ∧
      "changes" ∉ Counter.fieldNames := by
  simp [Counter.fieldNames]

theorem ofField?_eq_none (kind : WriteKind) :
    Counter.ofField? kind "first_error" = none ∧
      Counter.ofField? kind "generated_keys" = none ∧
      Counter.ofField? kind "changes" = none := by
  simp [Counter.ofField?_eq_none_iff, not_mem_fieldNames]

theorem ofField?_unknown (kind : WriteKind) {name : String}
    (hname : name ∉ fieldNames) : Counter.ofField? kind name = none :=
  Counter.ofField?_eq_none_iff.2 fun hmem => hname (Finset.mem_union_left _ hmem)

theorem ne_of_ofField? {name : String} {counter : Counter}
    (h : Counter.ofField? kind name = some counter) :
    name ∈ Counter.fieldNames ∧ name ≠ "first_error" ∧
      name ≠ "generated_keys" ∧ name ≠ "changes" := by
  have hmem : name ∈ Counter.fieldNames :=
    Counter.isSome_ofField?_iff.1 (Option.isSome_of_eq_some h)
  obtain ⟨hfirst, hkeys, hchanges⟩ := not_mem_fieldNames
  exact ⟨hmem, ne_of_mem_of_not_mem hmem hfirst, ne_of_mem_of_not_mem hmem hkeys,
    ne_of_mem_of_not_mem hmem hchanges⟩

theorem exists_addField_iff (kind : WriteKind) (counting : Bool) (o : WriteOutcome)
    (name : String) (value : Datum) :
    (∃ o', addField kind counting o name value = .ok o') ↔ Accepts name value := by
  unfold addField
  cases hcounter : Counter.ofField? kind name with
  | some counter =>
      obtain ⟨hmem, _, hkeys, hchanges⟩ := ne_of_ofField? hcounter
      cases hword : value.asWord? <;> simp [accepts_iff, hmem, hkeys, hchanges, hword]
  | none =>
      have hnot := Counter.ofField?_eq_none_iff.1 hcounter
      by_cases hfirst : name = "first_error"
      · simp [accepts_iff, hfirst, not_mem_fieldNames]
      by_cases hkeys : name = "generated_keys"
      · cases harray : value.asArray? <;>
          simp [accepts_iff, hkeys, not_mem_fieldNames, harray]
      by_cases hchanges : name = "changes"
      · cases harray : value.asArray? <;>
          simp [accepts_iff, hchanges, not_mem_fieldNames, harray]
      · simp [accepts_iff, hfirst, hkeys, hchanges, hnot]

/-- Everything that a field can do to an outcome. -/
theorem addField_cases {o o' : WriteOutcome} {name : String} {value : Datum}
    (h : addField kind counting o name value = .ok o') :
    (∃ counter n, Counter.ofField? kind name = some counter ∧
      value.asWord? = some n ∧ o' = o.add (.ofNat n) counter) ∨
    (name = "first_error" ∧ o' = { o with firstError := ownError? value }) ∨
    (∃ keys, name = "generated_keys" ∧ value.asArray? = some keys ∧
      o' = { o with generatedKeys := keys }) ∨
    (∃ rows, name = "changes" ∧ value.asArray? = some rows ∧
      o' = rows.foldl (addChange kind counting) o) ∨
    (name ∉ fieldNames ∧ o' = o) := by
  unfold addField at h
  cases hcounter : Counter.ofField? kind name with
  | some counter =>
      cases hword : value.asWord? with
      | none => simp [hcounter, hword] at h
      | some n =>
          simp only [hcounter, hword, Except.ok.injEq] at h
          exact .inl ⟨counter, n, rfl, rfl, h.symm⟩
  | none =>
      have hnot := Counter.ofField?_eq_none_iff.1 hcounter
      simp only [hcounter] at h
      by_cases hfirst : name = "first_error"
      · simp only [hfirst, if_true, Except.ok.injEq] at h
        exact .inr (.inl ⟨hfirst, h.symm⟩)
      by_cases hkeys : name = "generated_keys"
      · cases harray : value.asArray? with
        | none => simp [hkeys, harray] at h
        | some keys =>
            simp only [hkeys, String.reduceEq, if_false, if_true, harray,
              Except.ok.injEq] at h
            exact .inr (.inr (.inl ⟨keys, hkeys, rfl, h.symm⟩))
      by_cases hchanges : name = "changes"
      · cases harray : value.asArray? with
        | none => simp [hchanges, harray] at h
        | some rows =>
            simp only [hchanges, String.reduceEq, if_false, if_true, harray,
              Except.ok.injEq] at h
            exact .inr (.inr (.inr (.inl ⟨rows, hchanges, rfl, h.symm⟩)))
      · simp only [hfirst, hkeys, hchanges, if_false, Except.ok.injEq] at h
        exact .inr (.inr (.inr (.inr
          ⟨by simp [fieldNames, hnot, hfirst, hkeys, hchanges], h.symm⟩)))

theorem addField_ok {o o' : WriteOutcome} {name : String} {value : Datum}
    (h : addField kind counting o name value = .ok o') :
    o'.total = o.total + .ofNat
      ((if name ∈ Counter.fieldNames then value.asWord?.getD 0 else 0) +
        if counting then (rowsOf name value).length else 0) ∧
    (∀ counter, o'.count counter = o.count counter + .ofNat
      ((if Counter.ofField? kind name = some counter then value.asWord?.getD 0
          else 0) +
        if counting then rowsUnder kind (rowsOf name value) counter else 0)) ∧
    o'.rowErrors = o.rowErrors ++ (rowsOf name value).filterMap rowError? ∧
    o'.firstError =
      (if name = "first_error" then ownError? value else o.firstError) ∧
    o'.generatedKeys =
      if name = "generated_keys" then value.asArray?.getD [] else o.generatedKeys := by
  obtain ⟨hfirst, hkeys, hchanges⟩ := ofField?_eq_none kind
  rcases addField_cases h with ⟨counter, n, hcounter, hword, rfl⟩ | ⟨rfl, rfl⟩ |
    ⟨keys, rfl, harray, rfl⟩ | ⟨rows, rfl, harray, rfl⟩ | ⟨hname, rfl⟩
  · obtain ⟨hmem, hfirst, hkeys, hchanges⟩ := ne_of_ofField? hcounter
    simp [rowsOf, rowsUnder, hcounter, hword, hmem, hfirst, hkeys, hchanges,
      apply_ite UInt64.ofNat]
  · simp [rowsOf, rowsUnder, not_mem_fieldNames, hfirst]
  · simp [rowsOf, rowsUnder, not_mem_fieldNames, harray, hkeys]
  · simp [rowsOf, not_mem_fieldNames, harray, hchanges, foldl_addChange]
  · have hnone := ofField?_unknown kind hname
    simp only [fieldNames, Finset.mem_union, Finset.mem_insert, Finset.mem_singleton,
      not_or] at hname
    simp [rowsOf, rowsUnder, hname, hnone]

/-! ## All fields -/

theorem sum_reported_cons {name : String} {value : Datum}
    (hfresh : name ∉ Fields.names fields) (listed : Finset String) :
    ∑ n ∈ listed, reported (.object ((name, value) :: fields)) n =
      (if name ∈ listed then value.asWord?.getD 0 else 0) +
        ∑ n ∈ listed, reported (.object fields) n :=
  Fields.sum_find?_cons hfresh listed fun value => value.asWord?.getD 0

theorem changedRows_cons {name : String} (hfresh : name ∉ Fields.names fields)
    (value : Datum) :
    changedRows (.object ((name, value) :: fields)) =
      rowsOf name value ++ changedRows (.object fields) := by
  by_cases hchanges : name = "changes"
  · subst hchanges
    simp [changedRows, Datum.field?, Datum.asObject?, Fields.find?_cons, rowsOf,
      Fields.find?_eq_none hfresh]
  · simp [changedRows, Datum.field?, Datum.asObject?, Fields.find?_cons, rowsOf,
      hchanges]

theorem Adds.cons {o o₁ o' : WriteOutcome} {name : String} {value : Datum}
    (hfresh : name ∉ Fields.names fields)
    (hfield : addField kind counting o name value = .ok o₁)
    (hrest : Adds kind counting fields o₁ o') :
    Adds kind counting ((name, value) :: fields) o o' := by
  -- The later fields are looked up behind the first, which has a name of its own.
  obtain ⟨htotal, hcount, herrors, hfirst, hkeys⟩ := addField_ok hfield
  have hrows := changedRows_cons hfresh value
  constructor
  · rw [hrest.total, htotal, sum_reported_cons hfresh, hrows, List.length_append,
      UInt64.add_assoc, ← UInt64.ofNat_add]
    congr 2
    split_ifs <;> omega
  · intro counter
    have hlisted :
        (name ∈ Counter.fieldNames.filter (Counter.ofField? kind · = some counter)) ↔
          Counter.ofField? kind name = some counter := by
      rw [Finset.mem_filter, and_iff_right_of_imp]
      exact fun hcounter => (ne_of_ofField? hcounter).1
    rw [hrest.count, hcount, sum_reported_cons hfresh, hrows, UInt64.add_assoc,
      ← UInt64.ofNat_add]
    simp only [hlisted, rowsUnder, List.countP_append]
    congr 2
    split_ifs <;> omega
  · rw [hrest.rowErrors, herrors, hrows, List.filterMap_append, List.append_assoc]
  · rw [hrest.firstError, hfirst, Fields.find?_cons]
    by_cases hname : name = "first_error"
    · subst hname
      simp [Fields.find?_eq_none hfresh]
    · simp [hname]
  · rw [hrest.generatedKeys, hkeys, Fields.find?_cons]
    by_cases hname : name = "generated_keys"
    · subst hname
      simp [Fields.find?_eq_none hfresh]
    · simp [hname]

theorem adds_addFields (hnodup : (Fields.names fields).Nodup) {o o' : WriteOutcome}
    (h : addFields kind counting o fields = .ok o') :
    Adds kind counting fields o o' := by
  induction fields generalizing o with
  | nil =>
      cases h
      constructor <;> simp [reported, changedRows, Datum.field?, Datum.asObject?, rowsUnder]
  | cons field rest ih =>
      obtain ⟨name, value⟩ := field
      obtain ⟨hfresh, hrest⟩ := List.nodup_cons.1 hnodup
      rw [addFields] at h
      cases hfield : addField kind counting o name value with
      | error fault => simp [hfield, bind, Except.bind] at h
      | ok o₁ =>
          simp only [hfield, bind, Except.bind] at h
          exact .cons hfresh hfield (ih hrest h)

theorem exists_addFields_iff (kind : WriteKind) (counting : Bool)
    (fields : Fields Datum) (o : WriteOutcome) :
    (∃ o', addFields kind counting o fields = .ok o') ↔
      ∀ field ∈ fields, Accepts field.1 field.2 := by
  induction fields generalizing o with
  | nil => simp [addFields]
  | cons field rest ih =>
      obtain ⟨name, value⟩ := field
      rw [List.forall_mem_cons, ← exists_addField_iff kind counting o, addFields]
      cases hfield : addField kind counting o name value with
      | error fault => simp [bind, Except.bind]
      | ok o₁ => simp [bind, Except.bind, ih]

/-! ## Whole summaries -/

/-- The natural number that a datum is, as a fraction. -/
def IsNatural (d : Datum) (n : ℕ) : Prop :=
  ∃ number, d = .number number ∧ number.toRat? = some (n : ℚ)

/-- An object that can be taken for a summary: counters are natural numbers of
64 bits, and the two lists are lists. -/
structure IsSummary (d : Datum) : Prop where
  object : ∃ fields, d = .object fields
  counts : ∀ name ∈ Counter.fieldNames, ∀ value, d.field? name = some value →
    ∃ n < 2 ^ 64, IsNatural value n
  keys : ∀ value, d.field? "generated_keys" = some value →
    ∃ keys, value = .array keys
  changes : ∀ value, d.field? "changes" = some value → ∃ rows, value = .array rows

/-- Some counter is reported. -/
def ReportsCounts (d : Datum) : Prop :=
  ∃ name ∈ Counter.fieldNames, (d.field? name).isSome

/-- What an outcome keeps of the summary that it comes from.  Sums that fit a word
are exact. -/
structure Keeps (kind : WriteKind) (d : Datum) (o : WriteOutcome) : Prop where
  total_reported : ReportsCounts d →
    o.total.toNat = (∑ name ∈ Counter.fieldNames, reported d name) % 2 ^ 64
  count_reported : ReportsCounts d → ∀ counter, (o.count counter).toNat =
    (∑ name ∈ Counter.fieldNames with Counter.ofField? kind name = some counter,
      reported d name) % 2 ^ 64
  total_changed : ¬ ReportsCounts d →
    o.total.toNat = (changedRows d).length % 2 ^ 64
  count_changed : ¬ ReportsCounts d → ∀ counter, (o.count counter).toNat =
    ((changedRows d).countP fun row => rowCounter kind row = counter) % 2 ^ 64
  rowErrors : o.rowErrors = (changedRows d).filterMap rowError?
  firstError : o.firstError =
    (((d.field? "first_error").bind ownError?) <|> o.rowErrors.head?)
  generatedKeys : o.generatedKeys =
    ((d.field? "generated_keys").bind Datum.asArray?).getD []

theorem sum_reported_eq_zero {d : Datum} (h : ¬ ReportsCounts d)
    {listed : Finset String} (hlisted : listed ⊆ Counter.fieldNames) :
    ∑ name ∈ listed, reported d name = 0 := by
  refine Finset.sum_eq_zero fun name hname => ?_
  have hnone : d.field? name = none :=
    Option.not_isSome_iff_eq_none.1 fun hsome => h ⟨name, hlisted hname, hsome⟩
  simp [reported, hnone]

theorem hasCounts_iff (kind : WriteKind) (fields : Fields Datum) :
    hasCounts kind fields ↔ ReportsCounts (.object fields) := by
  simp only [hasCounts, List.any_eq_true, Counter.isSome_ofField?_iff, ReportsCounts,
    Datum.field?_object, Fields.isSome_find?_iff]
  exact exists_congr fun name => and_comm

theorem ofDatum_object (kind : WriteKind) (fields : Fields Datum) :
    ofDatum kind (.object fields) =
      (addFields kind (!hasCounts kind fields) {} fields).map settleFirstError := by
  simp only [ofDatum, Datum.asObject?]
  cases addFields kind (!hasCounts kind fields) {} fields <;> rfl

theorem exists_ofDatum_object_iff (kind : WriteKind) (fields : Fields Datum) :
    (∃ o, ofDatum kind (.object fields) = .ok o) ↔
      ∀ field ∈ fields, Accepts field.1 field.2 := by
  rw [ofDatum_object, ← exists_addFields_iff kind (!hasCounts kind fields) fields {}]
  cases addFields kind (!hasCounts kind fields) {} fields <;> simp [Except.map]

theorem isSome_asWord?_iff {d : Datum} :
    d.asWord?.isSome ↔ ∃ n < 2 ^ 64, IsNatural d n := by
  rw [Option.isSome_iff_exists]
  refine exists_congr fun n => ?_
  cases d <;> simp [IsNatural, Datum.asWord?, Binary.toWord?_eq_some_iff, and_comm]

theorem isSome_asArray?_iff {d : Datum} :
    d.asArray?.isSome ↔ ∃ items, d = .array items := by
  cases d <;> simp [Datum.asArray?]

theorem forall_accepts_iff (hnodup : (Fields.names fields).Nodup) :
    (∀ field ∈ fields, Accepts field.1 field.2) ↔ IsSummary (.object fields) := by
  have hfield (name : String) (value : Datum) :
      (Datum.object fields).field? name = some value ↔ (name, value) ∈ fields :=
    Fields.find?_eq_some_iff hnodup
  constructor
  · intro h
    have haccepts {name : String} {value : Datum}
        (hvalue : (Datum.object fields).field? name = some value) :
        Accepts name value :=
      h (name, value) ((hfield name value).1 hvalue)
    constructor
    · exact ⟨fields, rfl⟩
    · intro name hname value hvalue
      exact isSome_asWord?_iff.1 ((haccepts hvalue).count hname)
    · intro value hvalue
      exact isSome_asArray?_iff.1 ((haccepts hvalue).list (.inl rfl))
    · intro value hvalue
      exact isSome_asArray?_iff.1 ((haccepts hvalue).list (.inr rfl))
  · intro h (name, value) hmem
    have hvalue := (hfield name value).2 hmem
    constructor
    · intro hname
      exact isSome_asWord?_iff.2 (h.counts name hname value hvalue)
    · rintro (rfl | rfl)
      · exact isSome_asArray?_iff.2 (h.keys value hvalue)
      · exact isSome_asArray?_iff.2 (h.changes value hvalue)

theorem reads_object_iff (kind : WriteKind) (hsorted : Fields.Sorted fields) :
    (∃ o, ofDatum kind (.object fields) = .ok o) ↔ IsSummary (.object fields) := by
  rw [exists_ofDatum_object_iff, forall_accepts_iff hsorted.nodup_names]

theorem reads_iff {d : Datum} (hd : d.Ordered) :
    (∃ o, ofDatum kind d = .ok o) ↔ IsSummary d := by
  by_cases hobject : ∃ fields, d = .object fields
  · obtain ⟨fields, rfl⟩ := hobject
    exact reads_object_iff kind hd.1
  · have hnone : d.asObject? = none := by
      cases d <;> simp [Datum.asObject?] at hobject ⊢
    have hnot : ¬ IsSummary d := fun h => hobject h.object
    simp [ofDatum, hnone, hnot]

theorem keeps_object (hsorted : Fields.Sorted fields) {o : WriteOutcome}
    (h : ofDatum kind (.object fields) = .ok o) : Keeps kind (.object fields) o := by
  rw [ofDatum_object] at h
  cases hadd : addFields kind (!hasCounts kind fields) {} fields with
  | error fault => simp [hadd, Except.map] at h
  | ok o₁ =>
      simp only [hadd, Except.map, Except.ok.injEq] at h
      subst h
      have hadds := adds_addFields hsorted.nodup_names hadd
      have htotal : o₁.settleFirstError.total = o₁.total := rfl
      have hnoted : o₁.rowErrors = (changedRows (.object fields)).filterMap rowError? :=
        hadds.rowErrors
      have hempty : ({} : WriteOutcome).total = 0 := rfl
      constructor
      · intro hcounts
        have hlisted := (hasCounts_iff kind fields).2 hcounts
        simp [htotal, hadds.total, hlisted, hempty]
      · intro hcounts counter
        have hlisted := (hasCounts_iff kind fields).2 hcounts
        simp [hadds.count, hlisted]
      · intro hcounts
        have hlisted := mt (hasCounts_iff kind fields).1 hcounts
        have hnothing := sum_reported_eq_zero hcounts (Finset.Subset.refl _)
        simp [htotal, hadds.total, hlisted, hempty, hnothing]
      · intro hcounts counter
        have hlisted := mt (hasCounts_iff kind fields).1 hcounts
        have hnothing := sum_reported_eq_zero hcounts
          (Finset.filter_subset (Counter.ofField? kind · = some counter) _)
        simp [hadds.count, hlisted, hnothing, rowsUnder]
      · exact hnoted
      · have hfirst : o₁.firstError =
            (Fields.find? "first_error" fields).bind ownError? := by
          rw [hadds.firstError]
          cases Fields.find? "first_error" fields <;> rfl
        simp [settleFirstError, hfirst]
      · have hkeys := hadds.generatedKeys
        cases hfield : Fields.find? "generated_keys" fields <;>
          simp_all [settleFirstError]

theorem keeps_of_reads {d : Datum} (hd : d.Ordered) {o : WriteOutcome}
    (h : ofDatum kind d = .ok o) : Keeps kind d o := by
  obtain ⟨fields, rfl⟩ := ((reads_iff hd).1 ⟨o, h⟩).object
  exact keeps_object hd.1 h

/-! ## Fields without a meaning -/

theorem addField_unknown {name : String} (hname : name ∉ fieldNames)
    (o : WriteOutcome) (value : Datum) :
    addField kind counting o name value = .ok o := by
  have hnone := ofField?_unknown kind hname
  simp only [fieldNames, Finset.mem_union, Finset.mem_insert, Finset.mem_singleton,
    not_or] at hname
  simp [addField, hnone, hname]

theorem addFields_known (fields : Fields Datum) (o : WriteOutcome) :
    addFields kind counting o (fields.filter fun field => field.1 ∈ fieldNames) =
      addFields kind counting o fields := by
  induction fields generalizing o with
  | nil => rfl
  | cons field rest ih =>
      obtain ⟨name, value⟩ := field
      by_cases hname : name ∈ fieldNames
      · simp [hname, addFields, ih]
      · simp [hname, addFields, ih, addField_unknown, bind, Except.bind]

theorem hasCounts_known (kind : WriteKind) (fields : Fields Datum) :
    hasCounts kind (fields.filter fun field => field.1 ∈ fieldNames) =
      hasCounts kind fields := by
  simp only [hasCounts, Fields.names, List.any_map, List.any_filter, Function.comp_def]
  refine congrArg _ (funext fun field => ?_)
  by_cases hname : field.1 ∈ fieldNames
  · simp [hname]
  · simp [hname, ofField?_unknown kind hname]

theorem ofDatum_known (kind : WriteKind) (fields : Fields Datum) :
    ofDatum kind (.object (fields.filter fun field => field.1 ∈ fieldNames)) =
      ofDatum kind (.object fields) := by
  rw [ofDatum_object, ofDatum_object, hasCounts_known, addFields_known]

/-- A summary is taken in exactly if all its known fields are sound, and the outcome
keeps what they say.  The other fields could as well be missing. -/
theorem ofDatum_normalizes (kind : WriteKind) {d : Datum} (hd : d.Ordered) :
    ((∃ o, ofDatum kind d = .ok o) ↔ IsSummary d) ∧
    (∀ o, ofDatum kind d = .ok o → Keeps kind d o) ∧
    ∀ fields, d = .object fields →
      ofDatum kind (.object (fields.filter fun field => field.1 ∈ fieldNames)) =
        ofDatum kind d := by
  refine ⟨reads_iff hd, fun o ho => keeps_of_reads hd ho, ?_⟩
  rintro fields rfl
  exact ofDatum_known kind fields

/-- Counters under older names, with changed rows and a field without a meaning. -/
def aliasedSummary : Datum :=
  .object
    [("changes", .array variedRows), ("first_error", .null), ("replaced", .ofNat 2),
      ("unchanged", .ofNat 3), ("updated", .ofNat 4), ("zone", .string "west")]

theorem ordered_aliasedSummary : aliasedSummary.Ordered := by
  simp only [aliasedSummary, variedRows, Datum.ofNat, Datum.Ordered, Datum.ItemsOrdered,
    Datum.FieldsOrdered, Fields.Sorted, and_true]
  decide

theorem reads_aliasedSummary (kind : WriteKind) :
    ∃ o, ofDatum kind aliasedSummary = .ok o := by
  apply (exists_ofDatum_object_iff kind _).2
  simp [accepts_iff, Counter.fieldNames, Datum.asWord?_ofNat, Datum.asArray?]

theorem reportsCounts_aliasedSummary : ReportsCounts aliasedSummary :=
  ⟨"replaced", by decide, rfl⟩

/-- The six rows count for nothing, and the row that failed gives its error. -/
theorem aliasedSummary_normalizes :
    aliasedSummary.Ordered ∧ IsSummary aliasedSummary ∧
    ∃ o, ofDatum .replace aliasedSummary = .ok o ∧ o.total = 9 ∧
      o.count .modified = 2 ∧ o.rowErrors = ["bad row"] ∧
      o.firstError = some "bad row" := by
  obtain ⟨hreads, hkeeps, -⟩ := ofDatum_normalizes .replace ordered_aliasedSummary
  obtain ⟨o, ho⟩ := reads_aliasedSummary .replace
  have hkept := hkeeps o ho
  refine ⟨ordered_aliasedSummary, hreads.1 ⟨o, ho⟩, o, ho, ?_, ?_, ?_, ?_⟩
  · rw [← UInt64.toNat_inj, hkept.total_reported reportsCounts_aliasedSummary]
    decide +kernel
  · rw [← UInt64.toNat_inj, hkept.count_reported reportsCounts_aliasedSummary]
    decide +kernel
  · rw [hkept.rowErrors]
    rfl
  · rw [hkept.firstError, hkept.rowErrors]
    rfl

end WriteOutcome

end DocumentQuery
