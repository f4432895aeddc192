import DocumentQuery.Proofs.CursorDraining
import DocumentQuery.Proofs.LoggedConnection
import DocumentQuery.Proofs.ResponsePayload
import DocumentQuery.Session.Script

/-!
# The elements of a result

What a cursor has handed out and what it still stores are together what was
received for it, in order.  A batch is asked for when nothing is stored any
more, and a batch that is lost fails the cursor; so nothing is left out, and a
cursor says that there is nothing more only after the last batch.
-/

namespace DocumentQuery

/-! ## What was received -/

/-- The elements that a reply brings to a query as its first: one value counts
as its items if it is an array, and as one element if not. -/
def firstElements (token : Token) (bytes : Bytes) : List Datum :=
  match bytes.answer? token with
  | some (.value (.array items)) => items
  | some (.value datum) => [datum]
  | some (.sequence items) => items
  | some (.part items _) => items
  | _ => []

/-- The elements of the batch that a reply brings to a continuation. -/
def batchElements (token : Token) (bytes : Bytes) : List Datum :=
  match bytes.answer? token with
  | some (.sequence items) => items
  | some (.part items _) => items
  | _ => []

/-- The elements of all batches in the replies to a query. -/
def received (token : Token) : List Bytes → List Datum
  | [] => []
  | first :: later =>
      firstElements token first ++ later.flatMap (batchElements token)

/-- The last of the replies to a query ends its result: it is a sequence that
nothing follows or the end of one, or it is one value and the only reply. -/
inductive Terminated (token : Token) : List Bytes → Prop where
  | value {bytes : Bytes} {datum : Datum} :
      bytes.answer? token = some (.value datum) → Terminated token [bytes]
  | sequence {earlier : List Bytes} {bytes : Bytes} {items : List Datum} :
      bytes.answer? token = some (.sequence items) →
      Terminated token (earlier ++ [bytes])
  | done {earlier : List Bytes} {bytes : Bytes} :
      bytes.answer? token = some .done → Terminated token (earlier ++ [bytes])

section

variable {token : Token} {bytes : Bytes} {items : List Datum}

theorem firstElements_of_batch {more : Option String}
    (h : Reply.decode bytes token = .ok (.batch items more)) :
    firstElements token bytes = items := by
  obtain ⟨payload, hanswer, hpayload⟩ := Reply.decode_eq_ok_iff.1 h
  rw [firstElements, hanswer]
  cases payload <;> cases hpayload <;> rfl

theorem batchElements_of_batch {more : Option String}
    (h : Reply.decode bytes token = .ok (.batch items more)) :
    batchElements token bytes = items := by
  obtain ⟨payload, hanswer, hpayload⟩ := Reply.decode_eq_ok_iff.1 h
  rw [batchElements, hanswer]
  cases payload <;> cases hpayload <;> rfl

theorem Terminated.of_batch (earlier : List Bytes)
    (h : Reply.decode bytes token = .ok (.batch items none)) :
    Terminated token (earlier ++ [bytes]) := by
  obtain ⟨payload, hanswer, hpayload⟩ := Reply.decode_eq_ok_iff.1 h
  cases payload with
  | sequence items => exact .sequence hanswer
  | done => exact .done hanswer
  | value datum | part items more | failure report => cases hpayload

end

theorem received_append {token : Token} {replies : List Bytes}
    (hne : replies ≠ []) (later : List Bytes) :
    received token (replies ++ later) =
      received token replies ++ later.flatMap (batchElements token) := by
  cases replies with
  | nil => exact (hne rfl).elim
  | cons first rest =>
      rw [List.cons_append, received, received, List.flatMap_append,
        List.append_assoc]

namespace Cursor

theorem decode_of_batchOf {bytes : Bytes} {token : Token} {items : List Datum}
    {more : Option String} (h : batchOf bytes token = .ok (items, more)) :
    Reply.decode bytes token = .ok (.batch items more) := by
  unfold batchOf at h
  rcases hdecode : Reply.decode bytes token with cause | reply
  · rw [hdecode] at h
    cases h
  · rw [hdecode] at h
    cases reply with
    | value datum => cases h
    | batch items more =>
        cases h
        rfl
    | failure report => cases h

theorem batchElements_of_batchOf_error {bytes : Bytes} {token : Token}
    {fault : Fault} (h : batchOf bytes token = .error fault) :
    batchElements token bytes = [] := by
  unfold batchOf at h
  unfold batchElements
  rcases hdecode : Reply.decode bytes token with cause | reply
  · rw [Reply.answer?_of_decode_error hdecode]
  · rw [hdecode] at h
    cases reply with
    | value datum => rw [Reply.decode_eq_value_iff.1 hdecode]
    | batch items more => cases h
    | failure report => rw [Reply.decode_eq_failure_iff.1 hdecode]

/-! ## What was handed out -/

theorem stored_unfoldSingle (c : Cursor) : c.unfoldSingle.stored = c.stored :=
  stored_eq_buffer (unfoldSingle_single c)

theorem stored_congr {c c' : Cursor} (hsingle : c'.single = c.single)
    (hbuffer : c'.buffer = c.buffer) : c'.stored = c.stored := by
  unfold stored unfoldSingle
  rw [hsingle]
  split <;> simp [hbuffer]

variable {σ : Type}

/-- The elements handed out and those still stored are those received, and when
there is nothing to ask for any more, the last reply has said so. -/
structure Accounts (c : Cursor) (s : Session (Logged σ))
    (delivered : List Datum) : Prop where
  elements : delivered ++ c.stored = received c.token (s.replies c.token)
  nonempty : s.replies c.token ≠ []
  ended :
    c.Ready → c.continuation = none → Terminated c.token (s.replies c.token)

theorem Accounts.run [Connection σ] {q : Query} {s : Session σ}
    {s' : Session (Logged σ)}
    {c : Cursor} (h : q.run s.logged = (.ok c, s')) : Accounts c s' [] := by
  obtain ⟨bytes, reply, noted, hreplies, hdecode, hreply, hc⟩ :=
    Query.replies_run h
  have hfirst : received c.token [bytes] = firstElements c.token bytes :=
    List.append_nil _
  cases reply with
  | value datum =>
      have hanswer := Reply.decode_eq_value_iff.1 hdecode
      have hstored : c.stored = firstElements c.token bytes := by
        rw [firstElements, hanswer, hc]
        cases datum <;> rfl
      constructor
      · rw [hreplies, hfirst, hstored, List.nil_append]
      · rw [hreplies]
        exact List.cons_ne_nil _ _
      · intro _ _
        rw [hreplies]
        exact .value hanswer
  | batch items more =>
      have hstored : c.stored = firstElements c.token bytes := by
        rw [firstElements_of_batch hdecode, hc]
        rfl
      have hcontinuation : c.continuation = more := by
        rw [hc]
        rfl
      constructor
      · rw [hreplies, hfirst, hstored, List.nil_append]
      · rw [hreplies]
        exact List.cons_ne_nil _ _
      · intro _ hnone
        rw [hcontinuation] at hnone
        subst hnone
        rw [hreplies]
        exact .of_batch [] hdecode
  | failure report => exact (hreply report rfl).elim

theorem Accounts.unfoldSingle {c : Cursor} {s : Session (Logged σ)}
    {delivered : List Datum} (h : Accounts c s delivered) (hc : c.Ready) :
    Accounts c.unfoldSingle s delivered := by
  constructor
  · rw [stored_unfoldSingle, unfoldSingle_token]
    exact h.elements
  · rw [unfoldSingle_token]
    exact h.nonempty
  · intro _ hcontinuation
    rw [unfoldSingle_continuation] at hcontinuation
    rw [unfoldSingle_token]
    exact h.ended hc hcontinuation

/-- The account stays right when a cursor comes to a halt, whatever replies
without elements it has received. -/
theorem Accounts.halt {c c' : Cursor} {s s' : Session (Logged σ)}
    {delivered : List Datum}
    (h : Accounts c s delivered) (htoken : c'.token = c.token)
    (hstored : c'.stored = c.stored) (hhalted : ¬ c'.Ready) {later : List Bytes}
    (hreplies : s'.replies c.token = s.replies c.token ++ later)
    (hempty : later.flatMap (batchElements c.token) = []) :
    Accounts c' s' delivered := by
  constructor
  · rw [htoken, hstored, hreplies, received_append h.nonempty, hempty,
      List.append_nil]
    exact h.elements
  · rw [htoken, hreplies]
    exact List.append_ne_nil_of_left_ne_nil h.nonempty _
  · intro hready
    exact (hhalted hready).elim

/-- A batch is taken in when everything received before has been handed out. -/
theorem Accounts.receive {c : Cursor} {s s' : Session (Logged σ)}
    {delivered : List Datum}
    (h : Accounts c s delivered) (hc : c.Dry) {bytes : Bytes}
    {items : List Datum} {more : Option String}
    (hreplies : s'.replies c.token = s.replies c.token ++ [bytes])
    (hdecode : Reply.decode bytes c.token = .ok (.batch items more)) :
    Accounts (c.receive items more) s' delivered := by
  have hbefore : delivered = received c.token (s.replies c.token) := by
    rw [← h.elements, stored_eq_buffer hc.single, hc.buffer, List.append_nil]
  have hstored : (c.receive items more).stored = items := by
    have hbuffer : (c.receive items more).stored = c.buffer ++ items :=
      stored_eq_buffer hc.single
    rw [hbuffer, hc.buffer, List.nil_append]
  have hnew : batchElements c.token bytes = items := batchElements_of_batch hdecode
  have htoken : (c.receive items more).token = c.token := rfl
  have hcontinuation : (c.receive items more).continuation = more := rfl
  constructor
  · rw [htoken, hstored, hreplies, received_append h.nonempty,
      List.flatMap_singleton, hnew, hbefore]
  · rw [htoken, hreplies]
    exact List.append_ne_nil_of_left_ne_nil h.nonempty _
  · intro _ hnone
    rw [hcontinuation] at hnone
    subst hnone
    rw [htoken, hreplies]
    exact .of_batch _ hdecode

theorem not_ready_failed (c : Cursor) (fault : Fault) :
    ¬ (c.failed fault).Ready := by
  intro hready
  cases hready.fault

variable [Connection σ]

theorem Accounts.fetch {c : Cursor} {s : Session (Logged σ)}
    {delivered : List Datum}
    (h : Accounts c s delivered) (hc : c.Dry) (continuation : String) :
    Accounts (c.fetch s continuation).2.1 (c.fetch s continuation).2.2
      delivered := by
  unfold Cursor.fetch
  split
  · next after hsend =>
    have hhalted : ¬ ({ c with awaiting := true } : Cursor).Ready := by
      intro hready
      cases hready.awaiting
    exact h.halt rfl (stored_congr rfl rfl) hhalted (Session.replies_send hsend)
      rfl
  · next fault after hsend =>
    exact h.halt rfl (stored_congr rfl rfl) (not_ready_failed c fault)
      (Session.replies_send hsend) rfl
  · next bytes after hsend =>
    have hreplies : after.replies c.token = s.replies c.token ++ [bytes] :=
      Session.replies_send hsend
    split
    · next fault hbatch =>
      have hempty : [bytes].flatMap (batchElements c.token) = [] := by
        rw [List.flatMap_singleton]
        exact batchElements_of_batchOf_error hbatch
      exact h.halt rfl (stored_congr rfl rfl) (not_ready_failed c fault)
        hreplies hempty
    · next items more hbatch =>
      exact h.receive hc hreplies (decode_of_batchOf hbatch)

/-- The elements that a call of `next` hands out. -/
def handedOut : Outcome (Option Datum) → List Datum
  | .ok (some datum) => [datum]
  | _ => []

theorem Accounts.next {c : Cursor} {s : Session (Logged σ)}
    {delivered : List Datum} (h : Accounts c s delivered) :
    Accounts (c.next s).2.1 (c.next s).2.2
      (delivered ++ handedOut (c.next s).1) := by
  fun_induction Cursor.next c s with
  | case1 c s call hblocked =>
      rcases blocked?_eq_some hblocked with ⟨_, rfl⟩ | ⟨_, fault, _, rfl⟩
      · have hfailed : Accounts (({ c with awaiting := false } : Cursor).failed
            (.connection (.fetchAbandoned c.token)))
            (s.note
              (.cursorFailed c.token (.connection (.fetchAbandoned c.token))))
            delivered :=
          h.halt rfl (stored_congr rfl rfl) (not_ready_failed _ _)
            (List.append_nil _).symm rfl
        simpa only [fail_eq, handedOut, List.append_nil] using hfailed
      · simpa only [handedOut, List.append_nil] using h
  | case2 c s hfree datum rest hstored =>
      have hready := blocked?_eq_none_iff.1 hfree
      have hunfolded := h.unfoldSingle hready
      have hrest :
          ({ c.unfoldSingle with buffer := rest } : Cursor).stored = rest :=
        stored_eq_buffer (unfoldSingle_single c)
      constructor
      · have helements := hunfolded.elements
        rw [stored_unfoldSingle, hstored] at helements
        simp only [handedOut, hrest, List.append_assoc, List.singleton_append]
        exact helements
      · exact hunfolded.nonempty
      · intro _ hcontinuation
        exact hunfolded.ended hready.unfoldSingle hcontinuation
  | case3 c s hfree hstored hcontinuation =>
      have hunfolded := h.unfoldSingle (blocked?_eq_none_iff.1 hfree)
      simpa only [handedOut, List.append_nil] using hunfolded
  | case4 c s hfree hstored continuation hcontinuation c₁ s₁ hfetch hless ih =>
      have hready := blocked?_eq_none_iff.1 hfree
      have hfetched :=
        (h.unfoldSingle hready).fetch (hready.dry hstored) continuation
      rw [hfetch] at hfetched
      exact ih hfetched
  | case5 c s hfree hstored continuation hcontinuation fault c₁ s₁ hfetch =>
      have hready := blocked?_eq_none_iff.1 hfree
      have hfetched :=
        (h.unfoldSingle hready).fetch (hready.dry hstored) continuation
      rw [hfetch] at hfetched
      simpa only [handedOut, List.append_nil] using hfetched
  | case6 c s hfree hstored continuation hcontinuation c₁ s₁ hfetch =>
      have hready := blocked?_eq_none_iff.1 hfree
      have hfetched :=
        (h.unfoldSingle hready).fetch (hready.dry hstored) continuation
      rw [hfetch] at hfetched
      simpa only [handedOut, List.append_nil] using hfetched

/-- When `next` finds nothing more, nothing is stored and nothing can be asked
for. -/
theorem exhausted_of_next {c c' : Cursor} {s s' : Session σ}
    (h : c.next s = (.ok none, c', s')) :
    c'.Ready ∧ c'.stored = [] ∧ c'.continuation = none := by
  fun_induction Cursor.next c s with
  | case1 c s call hblocked =>
      exact (blocked?_ne_ok hblocked (congrArg Prod.fst h)).elim
  | case2 => cases h
  | case3 c s hfree hstored hcontinuation =>
      cases h
      refine ⟨(blocked?_eq_none_iff.1 hfree).unfoldSingle, ?_, ?_⟩
      · rw [stored_unfoldSingle, hstored]
      · rw [unfoldSingle_continuation, hcontinuation]
  | case4 c s hfree hstored continuation hcontinuation c₁ s₁ hfetch hless ih =>
      exact ih h
  | case5 => cases h
  | case6 => cases h

/-! ## Reading a result -/

/-- A cursor of a query and the session, after some calls of `next`, with the
elements that these have handed out.  Between two calls the session may be used
for anything but the query itself. -/
inductive Reading (q : Query) :
    Cursor → Session (Logged σ) → List Datum → Prop where
  | run {s : Session σ} {s' : Session (Logged σ)} {c : Cursor} :
      q.run s.logged = (.ok c, s') → Reading q c s' []
  | next {c : Cursor} {s : Session (Logged σ)} {delivered : List Datum} :
      Reading q c s delivered →
      Reading q (c.next s).2.1 (c.next s).2.2
        (delivered ++ handedOut (c.next s).1)
  | others {c : Cursor} {s s' : Session (Logged σ)} {delivered : List Datum} :
      Reading q c s delivered → s'.replies c.token = s.replies c.token →
      Reading q c s' delivered

theorem Reading.accounts {q : Query} {c : Cursor} {s : Session (Logged σ)}
    {delivered : List Datum} (h : Reading q c s delivered) :
    Accounts c s delivered := by
  induction h with
  | run hrun => exact .run hrun
  | next _ ih => exact ih.next
  | others _ hreplies ih =>
      constructor
      · rw [hreplies]
        exact ih.elements
      · rw [hreplies]
        exact ih.nonempty
      · rw [hreplies]
        exact ih.ended

/-- What `next` has handed out is a prefix of what was received, and when it
finds nothing more it has handed out everything, after a reply that ends the
result. -/
theorem Reading.prefix_received {q : Query} {c : Cursor}
    {s : Session (Logged σ)}
    {delivered : List Datum} (h : Reading q c s delivered) :
    delivered <+: received c.token (s.replies c.token) ∧
    ∀ c' s', c.next s = (.ok none, c', s') →
      delivered = received c.token (s'.replies c.token) ∧
      Terminated c.token (s'.replies c.token) := by
  refine ⟨⟨c.stored, h.accounts.elements⟩, fun c' s' hnext => ?_⟩
  have htoken : c'.token = c.token := by
    have hmoves := (Moves.next c s).token
    rwa [hnext] at hmoves
  have haccounts := h.accounts.next
  rw [hnext] at haccounts
  obtain ⟨hready, hstored, hcontinuation⟩ := exhausted_of_next hnext
  have helements := haccounts.elements
  have hended := haccounts.ended hready hcontinuation
  rw [htoken] at hended
  simp only [handedOut, hstored, List.append_nil, htoken] at helements
  exact ⟨helements, hended⟩

/-! ## Results in batches -/

/-- A sequence of one element. -/
def singleBatch : Bytes :=
  .ofText "\x7b\"token\":1,\"type\":\"sequence\",\"batch\":[null]\x7d"

theorem decode_singleBatch :
    Reply.decode singleBatch 1 = .ok (.batch [.null] none) :=
  Reply.decode_texts [none] (by decide +kernel)

/-- A session whose server answers one request, with that sequence. -/
def singleSession : Session Script :=
  { connection := ⟨[.reply fun _ => singleBatch], none, 0⟩ }

/-- A part with one element. -/
def partReply : Bytes :=
  .ofText
    "\x7b\"token\":1,\"type\":\"partial\",\"batch\":[\"x\"],\"continuation\":\"a\"\x7d"

/-- A part without elements. -/
def emptyPart : Bytes :=
  .ofText "\x7b\"token\":1,\"type\":\"partial\",\"batch\":[],\"continuation\":\"b\"\x7d"

/-- The last two elements of a sequence. -/
def lastPair : Bytes :=
  .ofText "\x7b\"token\":1,\"type\":\"sequence\",\"batch\":[\"y\",null]\x7d"

theorem decode_partReply :
    Reply.decode partReply 1 = .ok (.batch [.string "x"] (some "a")) :=
  Reply.decode_texts [some "x"] (by decide +kernel)

theorem decode_emptyPart :
    Reply.decode emptyPart 1 = .ok (.batch [] (some "b")) :=
  Reply.decode_texts [] (by decide +kernel)

theorem decode_lastPair :
    Reply.decode lastPair 1 = .ok (.batch [.string "y", .null] none) :=
  Reply.decode_texts [some "y", none] (by decide +kernel)

/-- A session whose server sends the two parts, and then meets the next request as
it is told. -/
def partsSession (last : ScriptEntry) : Session Script :=
  { connection :=
      ⟨[.reply fun _ => partReply, .reply fun _ => emptyPart, last], none, 0⟩ }

/-- The cursor after the first element of the parts. -/
def partsCursor : Cursor := { token := 1, shape := .other, continuation := some "a" }

/-- The session of that cursor, with the request that began the query. -/
def partsRead (last : ScriptEntry) (started : Request) (events : List Event) :
    Session (Logged Script) :=
  { connection :=
      ⟨⟨[.reply fun _ => emptyPart, last], none, 0⟩, [(⟨1, started⟩, .reply partReply)]⟩
    nextToken := 2
    events := events }

theorem reading_partsRead (last : ScriptEntry) :
    ∃ (q : Query) (started : Request) (events : List Event),
      Reading q partsCursor (partsRead last started events) [.string "x"] := by
  let c : Cursor := { partsCursor with buffer := [.string "x"] }
  obtain ⟨started, events, hrun⟩ : ∃ started events,
      Query.null.run (partsSession last).logged =
        (.ok c, partsRead last started events) :=
    ⟨_, Query.run_batch_session rfl rfl rfl rfl decode_partReply⟩
  have hfirst : Reading Query.null partsCursor (partsRead last started events)
      [.string "x"] := by
    have hnext := Reading.next (.run hrun)
    rwa [next_of_stored_cons (c := c) ⟨rfl, rfl⟩ rfl] at hnext
  exact ⟨Query.null, started, events, hfirst⟩

/-- A result in three batches, the second of them empty: all three elements are
handed out before there is nothing more; and when the last batch is given up
instead, the one element that came is what was handed out. -/
theorem Reading.prefix_received_parts :
    (∃ (q : Query) (c : Cursor) (s : Session (Logged Script)),
      Reading q c s [.string "x", .string "y", .null] ∧
      s.replies 1 = [partReply, emptyPart, lastPair] ∧
      ∃ c' s', c.next s = (.ok none, c', s') ∧
        [.string "x", .string "y", .null] =
          received c.token (s'.replies c.token) ∧
        Terminated c.token (s'.replies c.token)) ∧
    ∃ (q : Query) (c : Cursor) (s : Session (Logged Script)),
      Reading q c s [.string "x"] ∧ c.awaiting = true ∧
      s.replies 1 = [partReply, emptyPart] ∧
      [.string "x"] <+: received c.token (s.replies c.token) := by
  constructor
  · obtain ⟨q, started, events, hfirst⟩ :=
      reading_partsRead (.reply fun _ => lastPair)
    let last : Cursor := { partsCursor with continuation := none }
    obtain ⟨s, hsecond, hreplies⟩ : ∃ s,
        partsCursor.next (partsRead (.reply fun _ => lastPair) started events) =
          (.ok (some (.string "y")), { last with buffer := [.null] }, s) ∧
        s.replies 1 = [partReply, emptyPart, lastPair] := by
      rw [next_of_batch (c := partsCursor) ⟨rfl, rfl⟩ rfl rfl rfl decode_emptyPart,
        next_of_batch ⟨rfl, rfl⟩ rfl rfl rfl decode_lastPair,
        next_of_stored_cons ⟨rfl, rfl⟩ rfl]
      exact ⟨_, rfl, rfl⟩
    have hthird : ({ last with buffer := [.null] } : Cursor).next s =
        (.ok (some .null), last, s) :=
      next_of_stored_cons ⟨rfl, rfl⟩ rfl
    have hnone : last.next s = (.ok none, last, s) :=
      next_of_exhausted ⟨rfl, rfl⟩ rfl rfl
    have hreading : Reading q last s [.string "x", .string "y", .null] := by
      have htwo := hfirst.next
      rw [hsecond] at htwo
      have hthree := htwo.next
      rwa [hthird] at hthree
    exact ⟨q, last, s, hreading, hreplies, last, s, hnone,
      hreading.prefix_received.2 _ _ hnone⟩
  · obtain ⟨q, started, events, hfirst⟩ := reading_partsRead .unanswered
    obtain ⟨c, s, hdropped, hawaiting, hreplies⟩ : ∃ c s,
        partsCursor.next (partsRead .unanswered started events) =
          (.pending, c, s) ∧ c.awaiting = true ∧
        s.replies 1 = [partReply, emptyPart] := by
      rw [next_of_batch (c := partsCursor) ⟨rfl, rfl⟩ rfl rfl rfl decode_emptyPart,
        next_of_stored_nil ⟨rfl, rfl⟩ rfl rfl]
      exact ⟨_, _, rfl, rfl, rfl⟩
    have hreading : Reading q c s [.string "x"] := by
      have htwo := hfirst.next
      rwa [hdropped] at htwo
    exact ⟨q, c, s, hreading, hawaiting, hreplies, hreading.prefix_received.1⟩

end Cursor

end DocumentQuery
