import DocumentQuery.Proofs.CursorElements
import DocumentQuery.Proofs.CursorFailure

/-!
# What closing releases

The server holds a query open as long as the last reply to it that could be
decoded names a continuation.  A cursor that has not failed knows this
continuation, also while it waits for the batch, and so closing it stops the
query.  A failure makes the cursor forget the continuation, whether the server
knows of the failure or not; from then on closing sends nothing, and the server
goes on holding the query.
-/

namespace DocumentQuery

/-- The continuation under which the server holds a query open, by the last of
the answers among the replies. -/
def held (token : Token) (replies : List Bytes) : Option String :=
  (replies.filterMap fun bytes => bytes.answer? token).getLast?.bind
    Payload.continuation?

theorem held_concat {token : Token} (replies : List Bytes) {bytes : Bytes}
    {reply : Reply} (h : Reply.decode bytes token = .ok reply) :
    held token (replies ++ [bytes]) = reply.continuation? := by
  obtain ⟨payload, hanswer, rfl⟩ := Reply.decode_eq_ok_iff.1 h
  simp [held, hanswer]

namespace Session

variable {σ : Type}

/-- The query with a token has not been stopped. -/
def Unstopped (s : Session (Logged σ)) (token : Token) : Prop :=
  ∀ exchange ∈ s.exchanges token, exchange.1 ≠ .stop

theorem requests_note (s : Session σ) (event : Event) :
    (s.note event).requests = s.requests ++ event.request?.toList := by
  rw [requests, note, List.reverse_cons, List.filterMap_append, requests]
  cases h : event.request? <;> simp [h]

theorem requests_send [Connection σ] {s : Session σ} (hopen : s.closed = false)
    (request : Envelope) :
    (s.send request).2.requests = s.requests ++ [request] := by
  rw [send, hopen]
  exact s.requests_note (.sending request)

/-- Sending keeps what was sent before. -/
theorem unstopped_of_send [Connection σ] {s s' : Session (Logged σ)}
    {request : Envelope} {exchange : Exchange}
    (hsend : s.send request = (exchange, s')) (hopen : s'.closed = false)
    (h : s'.Unstopped request.token) :
    s.Unstopped request.token ∧ request.request ≠ .stop := by
  rw [closed_send hsend] at hopen
  rw [Unstopped, exchanges_send hopen hsend, List.forall_mem_append,
    List.forall_mem_singleton] at h
  exact h

end Session

namespace Cursor

variable {σ : Type}

theorem start_continuation (s : Session σ) (token : Token) (shape : ResultShape)
    (reply : Reply) :
    (Cursor.start s token shape reply).1.continuation = reply.continuation? := by
  cases reply <;> rfl

/-- Unless it has failed, the cursor of a query that was not stopped knows the
continuation under which the server holds the query. -/
structure Remembers (c : Cursor) (s : Session (Logged σ)) : Prop where
  settled : c.Settled
  continuation : s.closed = false → s.Unstopped c.token → c.fault = none →
    c.continuation = held c.token (s.replies c.token)

variable [Connection σ]

theorem Remembers.run {q : Query} {s : Session σ} {s' : Session (Logged σ)}
    {c : Cursor} (h : q.run s.logged = (.ok c, s')) : Remembers c s' := by
  obtain ⟨bytes, reply, noted, hreplies, hdecode, hreply, hc⟩ :=
    Query.replies_run h
  have hheld : held c.token (s'.replies c.token) = reply.continuation? := by
    rw [hreplies]
    exact held_concat [] hdecode
  refine ⟨?_, fun _ _ _ => ?_⟩
  · rw [hc]
    exact (start_ready noted _ _ hreply).settled
  · rw [hheld, hc, start_continuation]

theorem Move.remembers {a b : Cursor × Session (Logged σ)} (hmove : Move a b)
    (ha : Remembers a.1 a.2) : Remembers b.1 b.2 := by
  refine ⟨hmove.settled ha.settled, fun hopen hunstopped hfault => ?_⟩
  cases hmove with
  | abandoned | unreachable | misanswered | refused => cases hfault
  | handedOut hready | taken hready | aggregated _ hready =>
      exact ha.continuation hopen hunstopped hready.fault
  | unfolded hready =>
      rw [unfoldSingle_token] at hunstopped
      rw [unfoldSingle_continuation, unfoldSingle_token]
      exact ha.continuation hopen hunstopped hready.fault
  | noted names =>
      rw [Session.noteAll_eq] at hopen hunstopped ⊢
      exact ha.continuation hopen hunstopped hfault
  | dropped _ => exact ha.continuation hopen hunstopped hfault
  | @lost c s s' _ hdry _ hsend =>
      have hreplies : s'.replies c.token = s.replies c.token ++ [] :=
        Session.replies_send hsend
      rw [hreplies, List.append_nil]
      have hbefore := (Session.unstopped_of_send hsend hopen hunstopped).1
      rw [Session.closed_send hsend] at hopen
      exact ha.continuation hopen hbefore hdry.fault
  | @received c s s' _ bytes items more _ _ hsend hbatch =>
      have hreplies : s'.replies c.token = s.replies c.token ++ [bytes] :=
        Session.replies_send hsend
      have hheld : held c.token (s'.replies c.token) = more := by
        rw [hreplies]
        exact held_concat _ (decode_of_batchOf hbatch)
      exact hheld.symm
  | stopped _ hsend =>
      exact ((Session.unstopped_of_send hsend hopen hunstopped).2 rfl).elim

/-! ## Using a cursor -/

/-- A cursor of a query and the session, after some calls on the cursor, those
too that were given up while they waited.  Between two calls the session may be
used for anything but the query itself. -/
inductive Using (q : Query) : Cursor → Session (Logged σ) → Prop where
  | run {s : Session σ} {s' : Session (Logged σ)} {c : Cursor} :
      q.run s.logged = (.ok c, s') → Using q c s'
  | call {c : Cursor} {s : Session (Logged σ)} (operation : Operation) :
      Using q c s → Using q (operation.perform c s).1 (operation.perform c s).2
  | others {c : Cursor} {s s' : Session (Logged σ)} :
      Using q c s → s'.exchanges c.token = s.exchanges c.token →
      (s.closed → s'.closed) → Using q c s'

theorem Using.remembers {q : Query} {c : Cursor} {s : Session (Logged σ)}
    (h : Using q c s) : Remembers c s := by
  induction h with
  | run hrun => exact .run hrun
  | @call c s operation _ ih =>
      exact (operation.moves c s).keeps (P := fun a => Remembers a.1 a.2)
        (fun _ _ hmove => hmove.remembers) ih
  | @others c s s' _ hexchanges hclosed ih =>
      refine ⟨ih.settled, fun hopen hunstopped hfault => ?_⟩
      have hbefore : s.closed = false :=
        Bool.eq_false_iff.2 fun h => Bool.eq_false_iff.1 hopen (hclosed h)
      rw [Session.Unstopped, hexchanges] at hunstopped
      rw [Session.replies_eq_exchanges, hexchanges,
        ← Session.replies_eq_exchanges]
      exact ih.continuation hbefore hunstopped hfault

/-- While the server holds a query open, closing its cursor sends one request to
stop it, unless the cursor has failed: then closing sends nothing. -/
theorem Using.requests_close {q : Query} {c : Cursor} {s : Session (Logged σ)}
    (h : Using q c s) (hopen : s.closed = false) (hunstopped : s.Unstopped c.token)
    {more : String} (hheld : held c.token (s.replies c.token) = some more) :
    (c.close s).2.2.requests =
      s.requests ++ if c.fault.isNone then [⟨c.token, .stop⟩] else [] := by
  cases hfault : c.fault with
  | some fault =>
      have hnothing := (h.remembers.settled (by rw [hfault]; rfl)).2
      rw [close, hnothing]
      simp
  | none =>
      have hcontinuation : c.continuation = some more :=
        (h.remembers.continuation hopen hunstopped hfault).trans hheld
      let noted := s.note (.stopping c.token)
      have hnotedOpen : noted.closed = false := hopen
      have hsession :
          (c.close s).2.2 = (noted.send ⟨c.token, .stop⟩).2 := by
        rw [close, hcontinuation]
        simp only
        split
        · next hsend => rw [hsend]
        · next hsend => rw [hsend]
        · next hsend =>
            rw [hsend]
            split <;> rfl
      have hnoted : noted.requests = s.requests := by
        rw [Session.requests_note]
        exact List.append_nil _
      rw [hsession, Session.requests_send hnotedOpen, hnoted]
      rfl

/-- A batch that was asked for and never came leaves the query open, and closing
the cursor stops it. -/
theorem Using.requests_close_awaiting :
    ∃ (q : Query) (c : Cursor) (s : Session (Logged Script)),
      Using q c s ∧ s.closed = false ∧ s.Unstopped c.token ∧
      held c.token (s.replies c.token) = some "more" ∧ c.awaiting = true ∧
      (c.close s).2.2.requests = s.requests ++ [⟨1, .stop⟩] := by
  let script : Script := ⟨[.reply fun _ => openBatch, .unanswered], none, 0⟩
  let fresh : Session Script := { connection := script }
  obtain ⟨events, hrun⟩ : ∃ events, Query.null.run fresh.logged =
      (.ok openCursor, ⟨_, fresh.settings, 2, false, events⟩) :=
    Query.run_batch_session rfl rfl rfl rfl decode_openBatch
  have hnext := Using.call .next (.run hrun)
  rw [Operation.perform, Cursor.next] at hnext
  have hheld : held 1 [openBatch] = some "more" :=
    held_concat [] decode_openBatch
  have hunstopped : ∀ (start : Request) (exchange : Exchange),
      start ≠ .stop → ∀ entry ∈ [(start, exchange), (.resume "more", .unanswered)],
        entry.1 ≠ .stop := by
    simp
  refine ⟨Query.null, _, _, hnext, rfl, hunstopped _ _ (by simp), hheld, rfl, ?_⟩
  exact hnext.requests_close rfl (hunstopped _ _ (by simp)) hheld

/-- Two elements that more follow. -/
def openPair : Bytes :=
  .ofText
    "\x7b\"token\":1,\"type\":\"partial\",\"batch\":[\"x\",\"y\"],\"continuation\":\"more\"\x7d"

theorem decode_openPair :
    Reply.decode openPair 1 =
      .ok (.batch [.string "x", .string "y"] (some "more")) :=
  Reply.decode_texts [some "x", some "y"] (by decide +kernel)

/-- Asking for exactly one value fails on the two elements.  The server knows
nothing of that and holds the query open, but closing the cursor sends
nothing. -/
theorem openPair_never_stopped :
    ∃ (q : Query) (c : Cursor) (s : Session (Logged Script)),
      Using q c s ∧ s.closed = false ∧ s.Unstopped c.token ∧
      held c.token (s.replies c.token) = some "more" ∧
      (c.close s).2.2.requests = s.requests := by
  let q : Query := ⟨⟨0, .literal (.string "q"), [], []⟩, true⟩
  let script : Script := ⟨[.reply fun _ => openPair], none, 0⟩
  let fresh : Session Script := { connection := script }
  let c : Cursor :=
    { token := 1, shape := .other, buffer := [.string "x", .string "y"],
      continuation := some "more" }
  obtain ⟨events, hrun⟩ : ∃ events, q.run fresh.logged =
      (.ok c, ⟨_, fresh.settings, 2, false, events⟩) :=
    Query.run_batch_session rfl rfl rfl rfl decode_openPair
  have hcall := Using.call .oneDatum (.run hrun)
  generalize hs : (⟨_, fresh.settings, 2, false, events⟩ :
    Session (Logged Script)) = s at hcall
  have hfirst : c.next s =
      (.ok (some (.string "x")), { c with buffer := [.string "y"] }, s) := by
    rw [Cursor.next]
    rfl
  have hsecond : ({ c with buffer := [.string "y"] } : Cursor).next s =
      (.ok (some (.string "y")), { c with buffer := [] }, s) := by
    rw [Cursor.next]
    rfl
  have hone : c.oneDatum s =
      ({ c with buffer := [] } : Cursor).fail s (.decode .manyValues) := by
    have hopen : c.oneDatum s = (c.next s).andThen _ := rfl
    rw [hopen, hfirst]
    show (({ c with buffer := [.string "y"] } : Cursor).next s).andThen _ = _
    rw [hsecond]
    rfl
  rw [Operation.perform, hone] at hcall
  subst hs
  have hheld : held 1 [openPair] = some "more" :=
    held_concat [] decode_openPair
  have hunstopped : ∀ (start : Request) (exchange : Exchange),
      start ≠ .stop → ∀ entry ∈ [(start, exchange)], entry.1 ≠ .stop := by
    simp
  exact ⟨q, _, _, hcall, rfl, hunstopped _ _ (by simp), hheld, rfl⟩

end Cursor

end DocumentQuery
