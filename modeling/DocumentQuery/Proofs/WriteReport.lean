import DocumentQuery.Proofs.ExactInteger
import DocumentQuery.Write.Outcome

/-!
# The two forms of a summary

A server that lists the changed rows leaves the counting to whoever reads the
list: every row counts towards one counter.  A server that counts the rows
itself calls those that were there before and after "replaced", and leaves it to
the kind of the write which counter that is.  Both forms come down to the same
counters, because a row is classified by the same distinction of kinds.
-/

namespace DocumentQuery.WriteOutcome

-- Powers are those of the core library, whatever else is imported.
attribute [local instance (2000)] instPowNat

def carriesError (row : Datum) : Bool := (row.field? "error").isSome

/-- The counter of a row that carries no error. -/
def rowClass (kind : WriteKind) (row : Datum) : Counter :=
  classifyRow kind (row.field? "old_val") (row.field? "new_val")

/-- There was a document before the write and there is another one after it. -/
def isReplaced (row : Datum) : Bool :=
  match (row.field? "old_val").filter (!·.isNull),
    (row.field? "new_val").filter (!·.isNull) with
  | some old, some new => !old.equals new
  | _, _ => false

/-- Counts under the names that the server gives them. -/
def namedCounts (errors deleted inserted replaced unchanged : Nat) : Datum :=
  .object
    [("deleted", .ofNat deleted), ("errors", .ofNat errors),
      ("inserted", .ofNat inserted), ("replaced", .ofNat replaced),
      ("unchanged", .ofNat unchanged)]

/-- Changed rows as the server counts them. -/
def countReport (kind : WriteKind) (rows : List Datum) : Datum :=
  let sound := rows.filter fun row => !carriesError row
  namedCounts (rows.countP carriesError)
    (sound.countP fun row => rowClass kind row = .deleted)
    (sound.countP fun row => rowClass kind row = .inserted)
    (sound.countP isReplaced)
    (sound.countP fun row => rowClass kind row = .skipped)

/-- Changed rows as the server lists them. -/
def changeReport (rows : List Datum) : Datum := .object [("changes", .array rows)]

/-! ## Counting row by row -/

def rowCounter (kind : WriteKind) (row : Datum) : Counter :=
  if carriesError row then .errors else rowClass kind row

variable {kind : WriteKind} {counting : Bool}

@[simp] theorem count_empty (counter : Counter) :
    ({} : WriteOutcome).count counter = 0 := by
  cases counter <;> rfl

@[simp] theorem count_settleFirstError (o : WriteOutcome) (counter : Counter) :
    o.settleFirstError.count counter = o.count counter := by
  cases counter <;> rfl

theorem count_addChange (o : WriteOutcome) (row : Datum) (counter : Counter) :
    (addChange kind true o row).count counter =
      o.count counter + if rowCounter kind row = counter then 1 else 0 := by
  unfold addChange rowCounter carriesError
  cases herror : row.field? "error" with
  | none => simp [increment, rowClass]
  | some error =>
      have hnoted (texts : List String) :
          count { o with rowErrors := texts } counter = o.count counter := by
        cases counter <;> rfl
      simp [increment, hnoted]

theorem count_foldl_addChange (o : WriteOutcome) (rows : List Datum)
    (counter : Counter) :
    (rows.foldl (addChange kind true) o).count counter =
      o.count counter +
        .ofNat (rows.countP fun row => rowCounter kind row = counter) := by
  induction rows generalizing o with
  | nil => simp
  | cons row rows ih =>
      rw [List.foldl_cons, ih, count_addChange, List.countP_cons, UInt64.ofNat_add,
        UInt64.add_assoc, UInt64.add_comm (.ofNat _)]
      simp [apply_ite UInt64.ofNat]

theorem ofDatum_changeReport (kind : WriteKind) (rows : List Datum) :
    ofDatum kind (changeReport rows) =
      .ok (rows.foldl (addChange kind true) {}).settleFirstError := by
  have hname : Counter.ofField? kind "changes" = none := by
    simp [Counter.ofField?, Counter.all, Counter.name]
  simp [ofDatum, changeReport, Datum.asObject?, hasCounts, Fields.names, hname,
    addFields, addField, Datum.asArray?, bind, Except.bind, pure, Except.pure]

/-! ## Counting by name -/

/-- The counter of the rows that were replaced. -/
def replacedCounter (kind : WriteKind) : Counter :=
  if kind = .replace then .modified else .updated

theorem replacedCounter_cases (kind : WriteKind) :
    replacedCounter kind = .updated ∨ replacedCounter kind = .modified := by
  unfold replacedCounter
  split <;> simp

theorem rowClass_eq_iff_isReplaced {row : Datum} {counter : Counter}
    (hcounter : counter = .updated ∨ counter = .modified) :
    rowClass kind row = counter ↔
      isReplaced row ∧ counter = replacedCounter kind := by
  unfold rowClass classifyRow isReplaced replacedCounter
  rcases hcounter with rfl | rfl <;>
    cases (row.field? "old_val").filter (!·.isNull) <;>
      cases (row.field? "new_val").filter (!·.isNull) <;>
        simp <;> split_ifs <;> simp_all

theorem rowClass_ne_errors (row : Datum) : rowClass kind row ≠ .errors := by
  unfold rowClass classifyRow
  cases (row.field? "old_val").filter (!·.isNull) <;>
    cases (row.field? "new_val").filter (!·.isNull) <;>
      simp <;> split_ifs <;> simp

theorem rowCounter_ne {counter : Counter}
    (hcounter : counter = .updated ∨ counter = .modified)
    (hne : counter ≠ replacedCounter kind) (row : Datum) :
    rowCounter kind row ≠ counter := by
  unfold rowCounter
  split
  · rcases hcounter with rfl | rfl <;> simp
  · simp [rowClass_eq_iff_isReplaced hcounter, hne]

theorem addFields_cons_of_asWord? {name : String} {counter : Counter} {d : Datum}
    {n : Nat} (hname : Counter.ofField? kind name = some counter)
    (hword : d.asWord? = some n) (o : WriteOutcome) (rest : Fields Datum) :
    addFields kind counting o ((name, d) :: rest) =
      addFields kind counting (o.add (.ofNat n) counter) rest := by
  simp [addFields, addField, hname, hword, bind, Except.bind]

theorem ofDatum_namedCounts {errors deleted inserted replaced unchanged : Nat}
    (hcounts : ∀ n ∈ [errors, deleted, inserted, replaced, unchanged],
      n ≤ 2 ^ 53) :
    ofDatum kind (namedCounts errors deleted inserted replaced unchanged) =
      .ok ((((((add (.ofNat deleted) {} .deleted).add (.ofNat errors) .errors).add
        (.ofNat inserted) .inserted).add (.ofNat replaced) (replacedCounter kind)).add
        (.ofNat unchanged) .skipped).settleFirstError) := by
  have hword : ∀ n ∈ [errors, deleted, inserted, replaced, unchanged],
      (Datum.ofNat n).asWord? = some n :=
    fun n hn => Datum.asWord?_ofNat (hcounts n hn)
  rw [ofDatum, namedCounts, Datum.asObject?]
  dsimp only
  have hdeleted : Counter.ofField? kind "deleted" = some .deleted := by
    simp [Counter.ofField?, Counter.all, Counter.name]
  have herrors : Counter.ofField? kind "errors" = some .errors := by
    simp [Counter.ofField?, Counter.all, Counter.name]
  have hinserted : Counter.ofField? kind "inserted" = some .inserted := by
    simp [Counter.ofField?, Counter.all, Counter.name]
  have hreplaced :
      Counter.ofField? kind "replaced" = some (replacedCounter kind) := by
    simp [Counter.ofField?, replacedCounter]
  have hunchanged : Counter.ofField? kind "unchanged" = some .skipped := by
    simp [Counter.ofField?]
  rw [addFields_cons_of_asWord? hdeleted (hword _ (by simp)),
    addFields_cons_of_asWord? herrors (hword _ (by simp)),
    addFields_cons_of_asWord? hinserted (hword _ (by simp)),
    addFields_cons_of_asWord? hreplaced (hword _ (by simp)),
    addFields_cons_of_asWord? hunchanged (hword _ (by simp))]
  rfl

/-! ## The same rows -/

def rowsUnder (kind : WriteKind) (rows : List Datum) (counter : Counter) : Nat :=
  rows.countP fun row => rowCounter kind row = counter

variable {rows : List Datum} {counter : Counter}

theorem rowsUnder_eq_countP_sound (hcounter : counter ≠ .errors)
    {p : Datum → Bool} (hp : ∀ row, p row ↔ rowClass kind row = counter) :
    (rows.filter fun row => !carriesError row).countP p =
      rowsUnder kind rows counter := by
  rw [List.countP_filter]
  refine List.countP_congr fun row _ => ?_
  by_cases herror : carriesError row
  · simp [rowCounter, herror, hcounter.symm]
  · simp [rowCounter, herror, hp]

theorem rowsUnder_errors :
    rows.countP carriesError = rowsUnder kind rows .errors := by
  refine List.countP_congr fun row _ => ?_
  by_cases herror : carriesError row
  · simp [rowCounter, herror]
  · simp [rowCounter, herror, rowClass_ne_errors]

theorem countReport_eq (kind : WriteKind) (rows : List Datum) :
    countReport kind rows =
      namedCounts (rowsUnder kind rows .errors) (rowsUnder kind rows .deleted)
        (rowsUnder kind rows .inserted)
        (rowsUnder kind rows (replacedCounter kind))
        (rowsUnder kind rows .skipped) := by
  have hreplaced (row : Datum) :
      isReplaced row ↔ rowClass kind row = replacedCounter kind := by
    simp [rowClass_eq_iff_isReplaced (replacedCounter_cases kind)]
  have herrors : replacedCounter kind ≠ .errors := by
    rcases replacedCounter_cases kind with h | h <;> simp [h]
  have hclass {counter : Counter} (row : Datum) :
      decide (rowClass kind row = counter) ↔ rowClass kind row = counter :=
    decide_eq_true_iff
  have hfailed : rows.countP carriesError = rowsUnder kind rows .errors :=
    rowsUnder_errors
  rw [countReport, hfailed, rowsUnder_eq_countP_sound herrors hreplaced,
    rowsUnder_eq_countP_sound (by simp : Counter.deleted ≠ .errors) hclass,
    rowsUnder_eq_countP_sound (by simp : Counter.inserted ≠ .errors) hclass,
    rowsUnder_eq_countP_sound (by simp : Counter.skipped ≠ .errors) hclass]

/-- The counts of fewer than `2 ^ 53` rows are numbers that a document holds
exactly, and each is taken for the counter of the rows that it counts. -/
theorem ofDatum_countReport (kind : WriteKind) (hrows : rows.length < 2 ^ 53) :
    ∃ o, ofDatum kind (countReport kind rows) = .ok o ∧
      ∀ counter, o.count counter = .ofNat (rowsUnder kind rows counter) := by
  have hle (counter : Counter) : rowsUnder kind rows counter ≤ 2 ^ 53 :=
    List.countP_le_length.trans hrows.le
  have hunused (counter : Counter)
      (hcounter : counter = .updated ∨ counter = .modified)
      (hne : replacedCounter kind ≠ counter) :
      rowsUnder kind rows counter = 0 :=
    List.countP_eq_zero.2 fun row _ => by
      simp [rowCounter_ne hcounter hne.symm]
  rw [countReport_eq]
  refine ⟨_, ofDatum_namedCounts (by simpa using ⟨hle _, hle _, hle _, hle _, hle _⟩),
    fun counter => ?_⟩
  rw [count_settleFirstError]
  simp only [count_add, count_empty]
  rcases replacedCounter_cases kind with hkind | hkind <;>
    cases counter <;> simp [hkind, hunused]

/-- A list of changed rows and a report of their counts give an outcome each,
and the two have the same counters. -/
theorem count_changeReport_eq_countReport (kind : WriteKind) (rows : List Datum)
    (hrows : rows.length < 2 ^ 53) :
    ∃ listed counted,
      ofDatum kind (changeReport rows) = .ok listed ∧
      ofDatum kind (countReport kind rows) = .ok counted ∧
      ∀ counter, listed.count counter = counted.count counter := by
  obtain ⟨counted, hcounted, hcounts⟩ := ofDatum_countReport kind hrows
  refine ⟨_, counted, ofDatum_changeReport kind rows, hcounted, fun counter => ?_⟩
  rw [hcounts, count_settleFirstError, count_foldl_addChange, count_empty,
    UInt64.zero_add, rowsUnder]

/-- A row for every case: one that was made, one that was removed, one that
stayed, one that was changed, one that failed and one that is no row. -/
def variedRows : List Datum :=
  [.object [("new_val", .bool true), ("old_val", .null)],
    .object [("old_val", .bool true)],
    .object [("new_val", .bool true), ("old_val", .bool true)],
    .object [("new_val", .bool true), ("old_val", .bool false)],
    .object [("error", .string "bad row"), ("old_val", .bool true)],
    .null]

/-- An update makes no row, so it skips the first of them. -/
theorem count_variedRows_update :
    variedRows.length < 2 ^ 53 ∧
    ∃ listed counted,
      ofDatum .update (changeReport variedRows) = .ok listed ∧
      ofDatum .update (countReport .update variedRows) = .ok counted ∧
      (∀ counter, listed.count counter = counted.count counter) ∧
      Counter.all.map counted.count = [0, 1, 0, 1, 3, 1] := by
  have hfew : variedRows.length < 2 ^ 53 := by simp [variedRows]
  obtain ⟨listed, counted, hlisted, hcounted, hsame⟩ :=
    count_changeReport_eq_countReport .update variedRows hfew
  have hcounts : Counter.all.map listed.count = [0, 1, 0, 1, 3, 1] := by
    rw [← Except.ok.inj hlisted]
    rfl
  refine ⟨hfew, listed, counted, hlisted, hcounted, hsame, ?_⟩
  rw [← hcounts]
  simp [hsame]

end DocumentQuery.WriteOutcome
