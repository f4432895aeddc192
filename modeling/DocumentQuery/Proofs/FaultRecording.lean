import DocumentQuery.Proofs.CursorMoves
import DocumentQuery.Session.Script

/-!
# Recorded faults

A call that reads from a cursor and ends with a fault leaves that fault in the
cursor, from where every later call repeats it.  Each way a call can fail goes
through the same step, so a call keeps this if its parts do.  The exception is
`one`: when the value it has taken is of another type, the call fails and the
cursor does not.
-/

namespace DocumentQuery

namespace Call

variable {σ α β : Type}

/-- If the call ended with a fault, the cursor has failed with that fault. -/
def Records (call : Call σ α) : Prop :=
  ∀ fault, call.1 = .error fault → call.2.1.fault = some fault

theorem records_ok (value : α) (c : Cursor) (s : Session σ) :
    Records (.ok value, c, s) := by
  rintro _ ⟨⟩

theorem records_pending (c : Cursor) (s : Session σ) :
    Records ((.pending, c, s) : Call σ α) := by
  rintro _ ⟨⟩

/-- What a call goes on with only counts where the call has a value; a fault of
the call itself is passed on with the cursor that has it. -/
theorem Records.andThen {call : Call σ α}
    {rest : α → Cursor → Session σ → Call σ β} (hcall : call.Records)
    (hrest : ∀ value c s, call = (.ok value, c, s) → (rest value c s).Records) :
    (call.andThen rest).Records := by
  obtain ⟨value | fault | _, c, s⟩ := call
  · exact hrest value c s rfl
  · rintro _ ⟨⟩
    exact hcall fault rfl
  · exact records_pending c s

end Call

namespace Cursor

open Call

variable {σ α : Type}

theorem records_fail (c : Cursor) (s : Session σ) (fault : Fault) :
    (c.fail s fault : Call σ α).Records := by
  rintro _ ⟨⟩
  rfl

theorem records_blocked {c : Cursor} {s : Session σ} {call : Call σ α}
    (h : c.blocked? s = some call) : call.Records := by
  rcases blocked?_eq_some h with ⟨_, rfl⟩ | ⟨_, fault, hfault, rfl⟩
  · exact records_fail _ s _
  · rintro _ ⟨⟩
    exact hfault

variable [Connection σ]

theorem records_fetch (c : Cursor) (s : Session σ) (continuation : String) :
    (c.fetch s continuation).Records := by
  unfold Cursor.fetch
  split
  · exact records_pending _ _
  · exact records_fail _ _ _
  · split
    · exact records_fail _ _ _
    · exact records_ok _ _ _

theorem records_next (c : Cursor) (s : Session σ) : (c.next s).Records := by
  fun_induction Cursor.next c s with
  | case1 c s call hblocked => exact records_blocked hblocked
  | case2 => exact records_ok _ _ _
  | case3 => exact records_ok _ _ _
  | case4 c s hfree hstored continuation hcontinuation c₁ s₁ hfetch hless ih =>
      exact ih
  | case5 c s hfree hstored continuation hcontinuation fault c₁ s₁ hfetch =>
      have hrecords := records_fetch c.unfoldSingle s continuation
      rw [hfetch] at hrecords
      rintro _ ⟨⟩
      exact hrecords fault rfl
  | case6 => exact records_pending _ _

theorem records_oneDatum (c : Cursor) (s : Session σ) :
    (c.oneDatum s).Records := by
  unfold Cursor.oneDatum
  cases hblocked : (c.blocked? s : Option (Call σ Datum)) with
  | some call => exact records_blocked hblocked
  | none =>
      cases c.single with
      | some datum => exact records_ok _ _ _
      | none =>
          refine Records.andThen (records_next c s) fun first c₁ s₁ _ => ?_
          cases first with
          | none => exact records_fail _ _ _
          | some first =>
              refine Records.andThen (records_next c₁ s₁) fun second c₂ s₂ _ => ?_
              cases second with
              | none => exact records_ok _ _ _
              | some _ => exact records_fail _ _ _

theorem records_collectInto (read : Reader α) (done : List α) (c : Cursor)
    (s : Session σ) : (c.collectInto read done s).2.Records := by
  fun_induction Cursor.collectInto read done c s with
  | case1 => exact records_pending _ _
  | case2 done c s fault c₁ s₁ hnext =>
      have hrecords := records_next c s
      rw [hnext] at hrecords
      rintro _ ⟨⟩
      exact hrecords fault rfl
  | case3 => exact records_ok _ _ _
  | case4 done c s datum c₁ s₁ hnext value hread hless ih => exact ih
  | case5 => exact records_fail _ _ _

theorem records_collect (read : Reader α) (c : Cursor) (s : Session σ) :
    (c.collect read s).Records :=
  Records.andThen (records_collectInto read [] c s) fun _ _ _ _ => records_ok _ _ _

theorem records_writeOutcome (c : Cursor) (s : Session σ) :
    (c.writeOutcome s).Records := by
  unfold Cursor.writeOutcome
  refine Records.andThen (records_oneDatum c s) fun datum c₁ s₁ _ => ?_
  dsimp only
  split
  · exact records_fail _ _ _
  · split
    · exact records_fail _ _ _
    · exact records_ok _ _ _

/-! ## A value of another type -/

/-- The call fails and the cursor is as healthy as before, but the value is
gone from it. -/
theorem one_of_mismatch {read : Reader α} {c c' : Cursor} {s s' : Session σ}
    {datum : Datum} {cause : DecodeFault}
    (hdatum : c.oneDatum s = (.ok datum, c', s'))
    (hread : datum.readAs read = .error cause) :
    c.one read s = (.error (.decode cause), c', s') ∧ c'.fault = none := by
  refine ⟨?_, (ready_of_oneDatum hdatum).fault⟩
  rw [Cursor.one, hdatum, Call.andThen, hread]
  rfl

theorem records_one_iff {read : Reader α} {c : Cursor} {s : Session σ} :
    (c.one read s).Records ↔
      ∀ datum, (c.oneDatum s).1 = .ok datum →
        ∃ value, datum.readAs read = .ok value := by
  constructor
  · intro hrecords datum hdatum
    cases hread : datum.readAs read with
    | ok value => exact ⟨value, rfl⟩
    | error cause =>
        obtain ⟨hone, hhealthy⟩ := one_of_mismatch (Prod.ext hdatum rfl) hread
        have hfault := hrecords (.decode cause) (by rw [hone])
        rw [hone, hhealthy] at hfault
        cases hfault
  · intro hread
    refine Records.andThen (records_oneDatum c s) fun datum c₁ s₁ hdatum => ?_
    obtain ⟨value, hvalue⟩ := hread datum (by rw [hdatum])
    rw [hvalue]
    exact records_ok value c₁ s₁

/-- Every call that reads leaves the fault it ends with in the cursor, `one`
exactly if the value that it has taken, if any, is of the type asked for. -/
theorem reading_calls_record (c : Cursor) (s : Session σ) :
    (c.next s).Records ∧ (c.oneDatum s).Records ∧ (c.writeOutcome s).Records ∧
    ∀ (α : Type) (read : Reader α),
      (c.collect read s).Records ∧
      (∀ done, (c.collectInto read done s).2.Records) ∧
      ((c.one read s).Records ↔
        ∀ datum, (c.oneDatum s).1 = .ok datum →
          ∃ value, datum.readAs read = .ok value) :=
  ⟨records_next c s, records_oneDatum c s, records_writeOutcome c s,
    fun _ read => ⟨records_collect read c s,
      fun done => records_collectInto read done c s, records_one_iff⟩⟩

/-- A sequence of one text. -/
def textBatch : Bytes :=
  .ofText "\x7b\"token\":1,\"type\":\"sequence\",\"batch\":[\"x\"]\x7d"

theorem decode_textBatch :
    Reply.decode textBatch 1 = .ok (.batch [.string "x"] none) :=
  Reply.decode_texts [some "x"] (by decide +kernel)

/-- A session whose server answers one request, with that sequence. -/
def textSession : Session Script :=
  { connection := ⟨[.reply fun _ => textBatch], none, 0⟩ }

/-- The cursor over that sequence. -/
def textCursor : Cursor :=
  { token := 1, shape := .other, buffer := [.string "x"] }

/-- The text is no integer, so that the call fails; but the cursor has not
failed, claims that everything has been handed out, and goes on to say that
there is nothing more. -/
theorem textCursor_one_unrecorded :
    ∃ (q : Query) (s : Session Script) (after : Cursor) (fault : Fault),
      q.run textSession = (.ok textCursor, s) ∧
      textCursor.one (Reader.integer (.signed 64)) s =
        (.error fault, after, s) ∧
      after.fault = none ∧ after.isExhausted = true ∧
      after.next s = (.ok none, after, s) ∧
      ¬ (textCursor.one (Reader.integer (.signed 64)) s).Records := by
  let q : Query := ⟨⟨0, .literal (.string "q"), [], []⟩, true⟩
  let after : Cursor := { textCursor with buffer := [] }
  obtain ⟨s, hrun⟩ : ∃ s, q.run textSession = (.ok textCursor, s) :=
    Query.run_batch rfl rfl rfl rfl decode_textBatch
  have hfirst : textCursor.next s = (.ok (some (.string "x")), after, s) := by
    rw [Cursor.next]
    rfl
  have hsecond : after.next s = (.ok none, after, s) := by
    rw [Cursor.next]
    rfl
  have hdatum : textCursor.oneDatum s = (.ok (.string "x"), after, s) := by
    have hopen : textCursor.oneDatum s =
        (textCursor.next s).andThen _ := rfl
    rw [hopen, hfirst]
    show (after.next s).andThen _ = _
    rw [hsecond]
    rfl
  have hread : (Datum.string "x").readAs (Reader.integer (.signed 64)) =
      .error (.mismatch (.wrongType (.text "x") "i64")) := rfl
  obtain ⟨hone, hhealthy⟩ := one_of_mismatch hdatum hread
  refine ⟨q, s, after, _, hrun, hone, hhealthy, rfl, hsecond, ?_⟩
  intro hrecords
  have hfault := hrecords _ (by rw [hone])
  rw [hone, hhealthy] at hfault
  cases hfault

end Cursor

end DocumentQuery
