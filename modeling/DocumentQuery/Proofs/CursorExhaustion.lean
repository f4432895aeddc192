import DocumentQuery.Proofs.CursorElements
import DocumentQuery.Proofs.CursorFailure

/-!
# Exhausted cursors

A cursor is exhausted when it has nothing to hand out, nothing to ask for and no
fault.  Whether it waits for a batch that never came is not asked for that.  A
cursor that waits still has what it asked for, and so it is not exhausted; only
closing it takes that away, and then it is exhausted and fails nevertheless.
-/

namespace DocumentQuery

namespace Cursor

variable {σ : Type}

/-- A cursor that waits for a batch still has what it asked for. -/
def Expects (c : Cursor) : Prop :=
  c.awaiting = true → c.continuation.isSome

theorem Ready.expects {c : Cursor} (hc : c.Ready) : c.Expects := by
  intro hawaiting
  rw [hc.awaiting] at hawaiting
  cases hawaiting

section

variable [Connection σ]

theorem Move.expects {a b : Cursor × Session σ} (hmove : Move a b)
    (hstopped : b.2.stopped = a.2.stopped) (ha : a.1.Expects) : b.1.Expects := by
  cases hmove with
  | abandoned _ => exact fun hawaiting => (by cases hawaiting)
  | unfolded hready => exact hready.unfoldSingle.expects
  | handedOut hready | taken hready | aggregated _ hready =>
      exact (Ready.mk hready.awaiting hready.fault).expects
  | lost _ hcontinuation _ => exact fun _ => Option.isSome_of_eq_some hcontinuation
  | unreachable hdry | misanswered hdry | received hdry =>
      intro hawaiting
      cases hdry.awaiting.symm.trans hawaiting
  | refused _ hready =>
      intro hawaiting
      cases hready.awaiting.symm.trans hawaiting
  | noted _ => exact ha
  | dropped _ => exact ha
  | @stopped c s _ _ _ _ hsend =>
      have hsent := (s.note (.stopping c.token)).stopped_send ⟨c.token, .stop⟩
      rw [hsend] at hsent
      exact (List.cons_ne_self _ _ (hsent.symm.trans hstopped)).elim

theorem Operation.expects (operation : Operation) {c : Cursor} (hc : c.Expects)
    (hclose : operation = .close → c.awaiting = false) (s : Session σ) :
    (operation.perform c s).1.Expects := by
  by_cases hreads : operation = .close
  · have hidle : (operation.perform c s).1.awaiting = false := by
      rw [hreads, perform, ← hclose hreads, Cursor.close]
      split
      · rfl
      · dsimp only
        split
        · rfl
        · rfl
        · split <;> rfl
    exact fun hawaiting => (by cases hidle.symm.trans hawaiting)
  · exact (Operation.reads hreads c s).keeps (P := fun a => a.1.Expects)
      (fun _ _ => Move.expects) hc

/-- Among the calls the cursor was closed while it waited for a batch. -/
def ClosedAwaiting (c : Cursor) (calls : List (Session σ × Operation)) : Prop :=
  ∃ earlier s later, calls = earlier ++ (s, .close) :: later ∧
    (c.after earlier).awaiting = true

theorem Expects.after {c : Cursor} (hc : c.Expects)
    {calls : List (Session σ × Operation)} (hclosed : ¬ c.ClosedAwaiting calls) :
    (c.after calls).Expects := by
  induction calls generalizing c with
  | nil => exact hc
  | cons call later ih =>
      obtain ⟨s, operation⟩ := call
      refine ih (operation.expects hc (fun hclose => ?_) s) fun hlater => ?_
      · rw [← Bool.not_eq_true]
        intro hawaiting
        exact hclosed ⟨[], s, later, by rw [hclose]; rfl, hawaiting⟩
      · obtain ⟨earlier, t, rest, rfl, hawaiting⟩ := hlater
        exact hclosed ⟨(s, operation) :: earlier, t, rest, rfl, hawaiting⟩

end

theorem isExhausted_iff {c : Cursor} :
    c.isExhausted = true ↔
      c.fault = none ∧ c.single = none ∧ c.buffer = [] ∧ c.continuation = none := by
  simp [isExhausted, and_assoc]

variable [Connection σ]

theorem next_of_isExhausted {c : Cursor} (hc : c.isExhausted = true)
    (s : Session σ) :
    c.next s =
      if c.awaiting then
        ({ c with awaiting := false } : Cursor).fail s
          (.connection (.fetchAbandoned c.token))
      else (.ok none, c, s) := by
  obtain ⟨hfault, hsingle, hbuffer, hcontinuation⟩ := isExhausted_iff.1 hc
  have hunfolded : c.unfoldSingle = c := by rw [unfoldSingle, hsingle]
  have hstored : c.stored = [] := by rw [stored_eq_buffer hsingle, hbuffer]
  by_cases hawaiting : c.awaiting = true
  · rw [Cursor.next, blocked?, if_pos hawaiting, if_pos hawaiting]
  · have hready : c.Ready := ⟨by simpa using hawaiting, hfault⟩
    rw [Cursor.next, blocked?_eq_none_iff.2 hready, if_neg hawaiting]
    simp only [hstored, hcontinuation, hunfolded]

/-- A call of `next` that does not fail leaves no single value behind. -/
theorem single_of_next {c c' : Cursor} {s s' : Session σ}
    {element : Option Datum} (h : c.next s = (.ok element, c', s')) :
    c'.single = none := by
  fun_induction Cursor.next c s with
  | case1 c s call hblocked =>
      exact (blocked?_ne_ok hblocked (congrArg Prod.fst h)).elim
  | case2 c => cases h; exact unfoldSingle_single c
  | case3 c => cases h; exact unfoldSingle_single c
  | case4 c s hfree hstored continuation hcontinuation c₁ s₁ hfetch hless ih =>
      exact ih h
  | case5 => cases h
  | case6 => cases h

/-- A cursor that is exhausted after some calls, any of which may fail or be
given up, finds nothing more and asks for nothing, unless it still waits for a
batch.  That is possible only if it was closed while it waited, and then it
fails.  A cursor that has just found nothing more is exhausted and does not
wait. -/
theorem exhausted_next_none {q : Query} {s s' : Session σ} {first : Cursor}
    (hrun : q.run s = (.ok first, s')) (calls : List (Session σ × Operation))
    (t : Session σ) :
    ((first.after calls).isExhausted = true →
      ((first.after calls).next t = (.ok none, first.after calls, t) ↔
        (first.after calls).awaiting = false) ∧
      ((first.after calls).awaiting = true → first.ClosedAwaiting calls ∧
        (first.after calls).next t =
          ({ first.after calls with awaiting := false } : Cursor).fail t
            (.connection (.fetchAbandoned (first.after calls).token)))) ∧
    ∀ c' t', (first.after calls).next t = (.ok none, c', t') →
      c'.isExhausted = true ∧ c'.awaiting = false := by
  have hready : first.Ready := by
    obtain ⟨_, _, noted, _, _, reply, _, _, _, hreply, _, rfl⟩ :=
      Query.run_ok hrun
    exact start_ready noted _ _ hreply
  generalize hc : first.after calls = c
  refine ⟨fun hexhausted => ⟨?_, fun hawaiting => ⟨?_, ?_⟩⟩, fun c' t' hnext => ?_⟩
  · rw [next_of_isExhausted hexhausted]
    cases c.awaiting <;> simp [fail]
  · by_contra hclosed
    have hexpects := hready.expects.after hclosed
    rw [hc] at hexpects
    have hcontinuation := hexpects hawaiting
    rw [(isExhausted_iff.1 hexhausted).2.2.2] at hcontinuation
    cases hcontinuation
  · rw [next_of_isExhausted hexhausted, if_pos hawaiting]
  · obtain ⟨hready, hstored, hcontinuation⟩ := exhausted_of_next hnext
    have hsingle := single_of_next hnext
    rw [stored_eq_buffer hsingle] at hstored
    exact ⟨isExhausted_iff.2 ⟨hready.fault, hsingle, hstored, hcontinuation⟩,
      hready.awaiting⟩

/-- The only element of a sequence is handed out, and then the cursor is
exhausted. -/
theorem exhausted_next_none_single :
    ∃ (q : Query) (s : Session Script) (first : Cursor),
      q.run singleSession = (.ok first, s) ∧
      (first.after [(s, .next)]).isExhausted = true ∧
      ∀ t : Session Script, (first.after [(s, .next)]).next t =
        (.ok none, first.after [(s, .next)], t) := by
  let first : Cursor := { token := 1, shape := .other, buffer := [.null] }
  obtain ⟨s, hrun⟩ : ∃ s, Query.null.run singleSession = (.ok first, s) :=
    Query.run_batch rfl rfl rfl rfl decode_singleBatch
  have hafter : first.after [(s, .next)] = { first with buffer := [] } := by
    rw [after, Operation.perform, Cursor.next]
    rfl
  have hexhausted : (first.after [(s, .next)]).isExhausted = true := by
    rw [hafter]
    rfl
  have hidle : (first.after [(s, .next)]).awaiting = false := by rw [hafter]
  refine ⟨Query.null, s, first, hrun, hexhausted, fun t => ?_⟩
  exact ((exhausted_next_none hrun [(s, .next)] t).1 hexhausted).1.2 hidle

/-! ## A cursor closed while it waits -/

def doneReply : Bytes := .ofText "\x7b\"token\":1,\"type\":\"done\"\x7d"

theorem decode_doneReply : Reply.decode doneReply 1 = .ok (.batch [] none) :=
  Reply.decode_texts [] (by decide +kernel)

theorem close_of_batch {c : Cursor} {s s' : Session σ} {continuation : String}
    {bytes : Bytes} {items : List Datum} {more : Option String}
    (hcontinuation : c.continuation = some continuation)
    (hsend : (s.note (.stopping c.token)).send ⟨c.token, .stop⟩ =
      (.reply bytes, s'))
    (hdecode : Reply.decode bytes c.token = .ok (.batch items more)) :
    c.close s =
      (.ok (), { c with single := none, buffer := [], continuation := none }, s') := by
  simp only [Cursor.close, hcontinuation, hsend, hdecode]

/-- A batch is asked for and never comes, the cursor is closed, and the server
confirms that it has stopped the query.  Now the cursor is exhausted, but the
next element is a fault. -/
theorem openCursor_exhausted_fails :
    ∃ (q : Query) (s silent ending : Session Script),
      q.run openSession = (.ok openCursor, s) ∧
      (openCursor.next silent).1 = .pending ∧
      ((openCursor.after [(silent, .next)]).close ending).1 = .ok () ∧
      (openCursor.after [(silent, .next), (ending, .close)]).isExhausted = true ∧
      ∀ t : Session Script,
        ((openCursor.after [(silent, .next), (ending, .close)]).next t).1 =
          .error (.connection (.fetchAbandoned 1)) := by
  let silent : Session Script := { connection := ⟨[.unanswered], none, 0⟩ }
  let ending : Session Script :=
    { connection := ⟨[.reply fun _ => doneReply], none, 0⟩ }
  obtain ⟨s, hrun⟩ : ∃ s, Query.null.run openSession = (.ok openCursor, s) :=
    Query.run_batch rfl rfl rfl rfl decode_openBatch
  have hpending : ∃ t, openCursor.next silent =
      (.pending, { openCursor with awaiting := true }, t) := by
    rw [Cursor.next]
    exact ⟨_, rfl⟩
  obtain ⟨_, hpending⟩ := hpending
  have hwaiting : openCursor.after [(silent, .next)] =
      { openCursor with awaiting := true } := by
    rw [after, Operation.perform, hpending]
    rfl
  have hclose := close_of_batch (s := ending)
    (c := { openCursor with awaiting := true }) rfl rfl decode_doneReply
  have hclosed : openCursor.after [(silent, .next), (ending, .close)] =
      { openCursor with awaiting := true, continuation := none } := by
    rw [after, Operation.perform, hpending, after, Operation.perform, hclose]
    rfl
  have hexhausted :
      (openCursor.after [(silent, .next), (ending, .close)]).isExhausted = true := by
    rw [hclosed]
    rfl
  refine ⟨Query.null, s, silent, ending, hrun, ?_, ?_, hexhausted, fun t => ?_⟩
  · rw [hpending]
  · rw [hwaiting, hclose]
  · rw [next_of_isExhausted hexhausted, hclosed]
    rfl

end Cursor

end DocumentQuery
