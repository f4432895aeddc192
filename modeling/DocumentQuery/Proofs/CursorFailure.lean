import DocumentQuery.Proofs.CursorMoves
import DocumentQuery.Session.Script

/-!
# Failed cursors

A cursor that has failed waits for no batch and has nothing to ask for.  Hence
none of the moves is open to it but being noted and being dropped, and these
leave its fault alone: it stays failed with the first fault, and sends nothing
any more.
-/

namespace DocumentQuery

namespace Cursor

variable {σ : Type}

/-- A failed cursor waits for no batch and has nothing to ask for. -/
def Settled (c : Cursor) : Prop :=
  c.fault.isSome → c.awaiting = false ∧ c.continuation = none

theorem Ready.settled {c : Cursor} (hc : c.Ready) : c.Settled := by
  intro hfault
  rw [hc.fault] at hfault
  cases hfault

theorem Settled.failed {c : Cursor} (hc : c.awaiting = false) (fault : Fault) :
    (c.failed fault).Settled :=
  fun _ => ⟨hc, rfl⟩

section

variable [Connection σ]

theorem Move.settled {a b : Cursor × Session σ} (hmove : Move a b)
    (ha : a.1.Settled) :
    b.1.Settled := by
  cases hmove with
  | abandoned _ => exact .failed rfl _
  | unfolded hready => exact hready.unfoldSingle.settled
  | handedOut hready _ _ =>
      exact (Ready.mk hready.awaiting hready.fault).settled
  | taken hready _ => exact (Ready.mk hready.awaiting hready.fault).settled
  | lost hdry | received hdry =>
      intro hfault
      simp only [receive, hdry.fault, Option.isSome_none,
        Bool.false_eq_true] at hfault
  | unreachable hdry _ _ => exact .failed hdry.awaiting _
  | misanswered hdry _ _ _ => exact .failed hdry.awaiting _
  | refused _ hready => exact .failed hready.awaiting _
  | noted _ => exact ha
  | aggregated _ hready => exact (Ready.mk hready.awaiting hready.fault).settled
  | dropped _ => exact ha
  | stopped _ _ => exact fun hfault => ⟨(ha hfault).1, rfl⟩

theorem Move.fault {a b : Cursor × Session σ} (hmove : Move a b)
    (ha : a.1.Settled) {fault : Fault} (hfault : a.1.fault = some fault) :
    b.1.fault = some fault := by
  have hsettled := ha (Option.isSome_of_eq_some hfault)
  have hready : ¬ a.1.Ready := by
    intro hready
    rw [hready.fault] at hfault
    cases hfault
  cases hmove with
  | abandoned hawaiting =>
      rw [hsettled.1] at hawaiting
      cases hawaiting
  | unfolded h | handedOut h | taken h | refused _ h | aggregated _ h =>
      exact (hready h).elim
  | lost h | unreachable h | misanswered h | received h =>
      exact (hready h.toReady).elim
  | noted _ => exact hfault
  | dropped _ => exact hfault
  | stopped _ _ => exact hfault

/-! ## Later calls -/

theorem Operation.settled (operation : Operation) {c : Cursor} (hc : c.Settled)
    (s : Session σ) : (operation.perform c s).1.Settled :=
  (operation.moves c s).keeps (P := fun a => a.1.Settled)
    (fun _ _ => Move.settled) hc

theorem Settled.after {c : Cursor} (hc : c.Settled)
    (later : List (Session σ × Operation)) : (c.after later).Settled := by
  induction later generalizing c with
  | nil => exact hc
  | cons call later ih => exact ih (call.2.settled hc call.1)

theorem Reachable.settled {c : Cursor} (hc : c.Reachable σ) : c.Settled := by
  obtain ⟨q, s, s', first, earlier, hrun, rfl⟩ := hc
  obtain ⟨_, _, noted, _, _, reply, _, _, _, hreply, _, rfl⟩ :=
    Query.run_ok hrun
  exact (start_ready noted _ _ hreply).settled.after earlier

theorem Operation.fault (operation : Operation) {c : Cursor} (hc : c.Settled)
    {fault : Fault} (hfault : c.fault = some fault) (s : Session σ) :
    (operation.perform c s).1.fault = some fault := by
  have hkeeps := (operation.moves c s).keeps
    (P := fun a => a.1.Settled ∧ a.1.fault = some fault)
    (fun a b hmove ha => ⟨hmove.settled ha.1, hmove.fault ha.1 ha.2⟩)
  exact (hkeeps ⟨hc, hfault⟩).2

theorem fault_after {c : Cursor} (hc : c.Settled) {fault : Fault}
    (hfault : c.fault = some fault) (later : List (Session σ × Operation)) :
    (c.after later).fault = some fault := by
  induction later generalizing c with
  | nil => exact hfault
  | cons call later ih =>
      exact ih (call.2.settled hc call.1) (call.2.fault hc hfault call.1)

/-! ## Calls on a failed cursor -/

omit [Connection σ] in
theorem Settled.blocked? {α : Type} {c : Cursor} (hc : c.Settled)
    {fault : Fault} (hfault : c.fault = some fault) (s : Session σ) :
    (c.blocked? s : Option (Call σ α)) = some (.error fault, c, s) := by
  have hsettled := hc (Option.isSome_of_eq_some hfault)
  rw [Cursor.blocked?, hsettled.1, hfault]
  rfl

theorem Settled.next {c : Cursor} (hc : c.Settled) {fault : Fault}
    (hfault : c.fault = some fault) (s : Session σ) :
    c.next s = (.error fault, c, s) := by
  rw [Cursor.next, hc.blocked? hfault]

theorem Settled.oneDatum {c : Cursor} (hc : c.Settled) {fault : Fault}
    (hfault : c.fault = some fault) (s : Session σ) :
    c.oneDatum s = (.error fault, c, s) := by
  rw [Cursor.oneDatum, hc.blocked? hfault]

theorem Settled.collectInto {α : Type} (read : Reader α) (done : List α)
    {c : Cursor} (hc : c.Settled) {fault : Fault}
    (hfault : c.fault = some fault) (s : Session σ) :
    c.collectInto read done s = (done, .error fault, c, s) := by
  have hnext := hc.next hfault s
  rw [Cursor.collectInto]
  split
  · next h => cases hnext.symm.trans h
  · next h =>
    cases hnext.symm.trans h
    rfl
  · next h => cases hnext.symm.trans h
  · next h => cases hnext.symm.trans h

/-- A cursor that has failed stays failed with the same fault, whatever is
called on it later and wherever such a call is given up.  Every call that reads
fails with this fault and leaves the cursor, the session and the destination as
they are; closing the cursor leaves the session as it is too, so that no request
is sent. -/
theorem failed_for_good {c : Cursor} (hc : c.Reachable σ) {fault : Fault}
    (hfault : c.fault = some fault) (later : List (Session σ × Operation)) :
    (c.after later).fault = some fault ∧ (c.after later).isExhausted = false ∧
    ∀ s : Session σ,
      (c.after later).next s = (.error fault, c.after later, s) ∧
      (c.after later).oneDatum s = (.error fault, c.after later, s) ∧
      (∀ (α : Type) (read : Reader α),
        (c.after later).one read s = (.error fault, c.after later, s) ∧
        (c.after later).collect read s = (.error fault, c.after later, s) ∧
        ∀ done, (c.after later).collectInto read done s =
          (done, .error fault, c.after later, s)) ∧
      (c.after later).writeOutcome s = (.error fault, c.after later, s) ∧
      ((c.after later).close s).2.2 = s := by
  have hsettled := hc.settled.after later
  have hfault := fault_after hc.settled hfault later
  refine ⟨hfault, ?_, fun s => ⟨hsettled.next hfault s,
    hsettled.oneDatum hfault s, fun α read => ⟨?_, ?_, fun done =>
      hsettled.collectInto read done hfault s⟩, ?_, ?_⟩⟩
  · rw [isExhausted, hfault]
    rfl
  · rw [one, hsettled.oneDatum hfault]
    rfl
  · rw [collect, hsettled.collectInto read [] hfault]
    rfl
  · rw [writeOutcome, hsettled.oneDatum hfault]
    rfl
  · rw [close, (hsettled (Option.isSome_of_eq_some hfault)).2]

end

/-! ## A session that was closed -/

/-- An empty batch that more follows. -/
def openBatch : Bytes :=
  .ofText
    "\x7b\"token\":1,\"type\":\"partial\",\"batch\":[],\"continuation\":\"more\"\x7d"

theorem decode_openBatch :
    Reply.decode openBatch 1 = .ok (.batch [] (some "more")) :=
  Reply.decode_texts [] (by decide +kernel)

/-- A session whose server answers one request, with that batch. -/
def openSession : Session Script :=
  { connection := ⟨[.reply fun _ => openBatch], none, 0⟩ }

/-- The cursor over that batch. -/
def openCursor : Cursor :=
  { token := 1, shape := .other, continuation := some "more" }

/-- The continuation of a cursor cannot be asked for in a closed session, and
from then on the cursor has failed for that reason. -/
theorem openCursor_failed_for_good :
    ∃ c : Cursor, c.Reachable Script ∧
      c.fault = some (.connection .sessionClosed) ∧
      ∀ later : List (Session Script × Operation),
        (c.after later).fault = some (.connection .sessionClosed) ∧
        ∀ s : Session Script, (c.after later).next s =
          (.error (.connection .sessionClosed), c.after later, s) := by
  let closed : Session Script := { openSession with closed := true }
  have hfault : (openCursor.after [(closed, .next)]).fault =
      some (.connection .sessionClosed) := by
    rw [after, Operation.perform, Cursor.next]
    rfl
  obtain ⟨s, hrun⟩ : ∃ s, Query.null.run openSession = (.ok openCursor, s) :=
    Query.run_batch rfl rfl rfl rfl decode_openBatch
  have hreachable : (openCursor.after [(closed, .next)]).Reachable Script :=
    ⟨Query.null, openSession, s, openCursor, _, hrun, rfl⟩
  refine ⟨_, hreachable, hfault, fun later => ?_⟩
  obtain ⟨hlater, _, hcalls⟩ := failed_for_good hreachable hfault later
  exact ⟨hlater, fun s => (hcalls s).1⟩

end Cursor

end DocumentQuery
