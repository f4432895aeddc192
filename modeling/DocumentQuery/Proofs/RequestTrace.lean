import DocumentQuery.Proofs.CursorRelease
import DocumentQuery.Proofs.GivenUpCall

/-!
# What a cursor sends

A cursor follows a result batch by batch.  Its requests and what becomes of them
form a trace, in which every part received names the batch that is asked for
next, and asks for it once.  The trace ends with whatever is not a part of the
result, except that a query may still be stopped while a batch is outstanding.
-/

namespace DocumentQuery

/-- What the batch after an exchange is asked for by, if it brought a part of the
result. -/
def Exchange.continuation? (token : Token) (exchange : Exchange) : Option String :=
  exchange.reply?.bind fun bytes =>
    (bytes.answer? token).bind Payload.continuation?

def Request.continuation? : Request → Option String
  | .resume continuation => some continuation
  | _ => none

/-- The continuations of the parts received, the earliest first. -/
def continuations (token : Token) (trace : List (Envelope × Exchange)) :
    List String :=
  trace.filterMap (·.2.continuation? token)

/-- The continuations that were asked for, the earliest first. -/
def resumed (trace : List (Envelope × Exchange)) : List String :=
  trace.filterMap (·.1.request.continuation?)

theorem Exchange.continuation?_of_decode {token : Token} {bytes : Bytes}
    {reply : Reply} (h : Reply.decode bytes token = .ok reply) :
    (Exchange.reply bytes).continuation? token = reply.continuation? := by
  obtain ⟨payload, hanswer, rfl⟩ := Reply.decode_eq_ok_iff.1 h
  simp [continuation?, reply?, hanswer]

theorem continuations_concat (token : Token) (trace : List (Envelope × Exchange))
    (entry : Envelope × Exchange) :
    continuations token (trace ++ [entry]) =
      continuations token trace ++ (entry.2.continuation? token).toList := by
  rw [continuations, List.filterMap_append, continuations]
  cases h : entry.2.continuation? token <;> simp [h]

theorem resumed_concat (trace : List (Envelope × Exchange))
    (entry : Envelope × Exchange) :
    resumed (trace ++ [entry]) =
      resumed trace ++ entry.1.request.continuation?.toList := by
  rw [resumed, List.filterMap_append, resumed]
  cases h : entry.1.request.continuation? <;> simp [h]

/-- A request follows an exchange that brought a part of the result.  Stopping
follows one too that brought nothing yet, and nothing follows stopping. -/
def Follows (token : Token) (earlier later : Envelope × Exchange) : Prop :=
  earlier.1.request ≠ .stop ∧
    ((earlier.2.continuation? token).isSome ∨
      earlier.2 = .unanswered ∧ later.1.request = .stop)

/-- The requests of one query and what became of them.  When a batch is asked
for, it is the batch after the last part received, and the batches after all the
parts before it have been asked for, each once and in their order. -/
structure Disciplined (token : Token) (trace : List (Envelope × Exchange)) :
    Prop where
  tokens : ∀ entry ∈ trace, entry.1.token = token
  start : ∃ term options exchange later,
    trace = (⟨token, .start term options⟩, exchange) :: later ∧
      ∀ entry ∈ later, ∀ term options, entry.1.request ≠ .start term options
  follows : trace.IsChain (Follows token)
  resume : ∀ before continuation exchange,
    before ++ [(⟨token, .resume continuation⟩, exchange)] <+: trace →
      continuations token before = resumed before ++ [continuation]

variable {token : Token} {trace : List (Envelope × Exchange)}

theorem Disciplined.singleton (token : Token) (term : Term)
    (options : Fields Term) (exchange : Exchange) :
    Disciplined token [(⟨token, .start term options⟩, exchange)] := by
  constructor
  · simp
  · exact ⟨term, options, exchange, [], rfl, by simp⟩
  · exact List.isChain_singleton _
  · intro before continuation answer hprefix
    have hmem := hprefix.subset
      (List.mem_append_right before (List.mem_singleton_self _))
    simp at hmem

theorem Disciplined.concat (h : Disciplined token trace) {request : Request}
    {exchange : Exchange} (hstart : ∀ term options, request ≠ .start term options)
    (hfollows : ∀ last ∈ trace.getLast?, Follows token last (⟨token, request⟩, exchange))
    (hresume : ∀ continuation, request = .resume continuation →
      continuations token trace = resumed trace ++ [continuation]) :
    Disciplined token (trace ++ [(⟨token, request⟩, exchange)]) := by
  constructor
  · rw [List.forall_mem_append, List.forall_mem_singleton]
    exact ⟨h.tokens, rfl⟩
  · obtain ⟨term, options, first, later, rfl, hlater⟩ := h.start
    refine ⟨term, options, first, _, List.cons_append, ?_⟩
    rw [List.forall_mem_append, List.forall_mem_singleton]
    exact ⟨hlater, hstart⟩
  · refine h.follows.append (List.isChain_singleton _) fun last hlast next hnext => ?_
    rw [List.head?_singleton, Option.mem_some_iff] at hnext
    rw [← hnext]
    exact hfollows last hlast
  · intro before continuation answer hprefix
    -- Either the batch is the one asked for now, or it was asked for before.
    rcases List.prefix_concat_iff.1 hprefix with heq | hprefix
    · obtain ⟨rfl, hentry⟩ := List.append_inj' heq rfl
      cases List.singleton_inj.1 hentry
      exact hresume continuation rfl
    · exact h.resume before continuation answer hprefix

namespace Cursor

/-- A cursor that knows a continuation has received it last and has not asked
for it, or waits for its batch. -/
structure Tracked (c : Cursor) (trace : List (Envelope × Exchange)) : Prop where
  settled : c.Settled
  disciplined : Disciplined c.token trace
  idle : ∀ continuation, c.continuation = some continuation →
    c.awaiting = false →
      continuations c.token trace = resumed trace ++ [continuation] ∧
      ∀ last ∈ trace.getLast?, last.1.request ≠ .stop ∧
        (last.2.continuation? c.token).isSome
  waiting : c.continuation.isSome → c.awaiting = true →
    ∀ last ∈ trace.getLast?, last.1.request ≠ .stop ∧ last.2 = .unanswered

theorem Tracked.of_dropped {c : Cursor} (hsettled : c.Settled)
    (htrace : Disciplined c.token trace) (hcontinuation : c.continuation = none) :
    Tracked c trace := by
  refine ⟨hsettled, htrace, fun continuation h => ?_, fun h => ?_⟩
  · rw [hcontinuation] at h
    cases h
  · rw [hcontinuation] at h
    cases h

theorem Tracked.congr {c c' : Cursor} (h : Tracked c trace)
    (hsettled : c'.Settled) (htoken : c'.token = c.token)
    (hcontinuation : c'.continuation = c.continuation)
    (hawaiting : c'.awaiting = c.awaiting) : Tracked c' trace := by
  refine ⟨hsettled, ?_, ?_, ?_⟩
  · rw [htoken]
    exact h.disciplined
  · rw [htoken, hcontinuation, hawaiting]
    exact h.idle
  · rw [hcontinuation, hawaiting]
    exact h.waiting

variable {σ : Type} [Connection σ]

theorem Tracked.resume {c : Cursor} (h : Tracked c trace) (hc : c.Dry)
    {continuation : String} (hcontinuation : c.continuation = some continuation)
    (exchange : Exchange) :
    Disciplined c.token
      (trace ++ [(⟨c.token, .resume continuation⟩, exchange)]) := by
  obtain ⟨hcontinuations, hlast⟩ := h.idle continuation hcontinuation hc.awaiting
  refine h.disciplined.concat (by simp) (fun last hmem => ?_) ?_
  · obtain ⟨hstop, hpart⟩ := hlast last hmem
    exact ⟨hstop, .inl hpart⟩
  · intro asked hasked
    cases hasked
    exact hcontinuations

theorem Tracked.wait {c : Cursor} (h : Tracked c trace) (hc : c.Dry)
    {continuation : String} (hcontinuation : c.continuation = some continuation) :
    Tracked { c with awaiting := true }
      (trace ++ [(⟨c.token, .resume continuation⟩, .unanswered)]) := by
  refine ⟨fun hfault => ?_, h.resume hc hcontinuation _,
    fun _ _ hidle => (by cases hidle), ?_⟩
  · simp [hc.fault] at hfault
  · simp

theorem Tracked.receive {c : Cursor} (h : Tracked c trace) (hc : c.Dry)
    {continuation : String} (hcontinuation : c.continuation = some continuation)
    {bytes : Bytes} {items : List Datum} {more : Option String}
    (hbatch : batchOf bytes c.token = .ok (items, more)) :
    Tracked (c.receive items more)
      (trace ++ [(⟨c.token, .resume continuation⟩, .reply bytes)]) := by
  have hpart : (Exchange.reply bytes).continuation? c.token = more :=
    Exchange.continuation?_of_decode (decode_of_batchOf hbatch)
  have hready : (c.receive items more).Ready := ⟨hc.awaiting, hc.fault⟩
  have hbefore := (h.idle continuation hcontinuation hc.awaiting).1
  refine ⟨hready.settled, h.resume hc hcontinuation _, fun next hnext _ => ?_,
    fun _ hwaiting => ?_⟩
  · have hmore : more = some next := hnext
    constructor
    · have hcontinuations := continuations_concat c.token trace
        (⟨c.token, .resume continuation⟩, .reply bytes)
      rw [hpart, hmore, hbefore] at hcontinuations
      rw [resumed_concat]
      exact hcontinuations
    · intro last hlast
      rw [List.getLast?_concat, Option.mem_some_iff] at hlast
      rw [← hlast]
      exact ⟨by simp, Option.isSome_of_eq_some (hpart.trans hmore)⟩
  · rw [hready.awaiting] at hwaiting
    cases hwaiting

theorem Tracked.stop {c : Cursor} (h : Tracked c trace)
    {continuation : String} (hcontinuation : c.continuation = some continuation)
    (exchange : Exchange) :
    Disciplined c.token (trace ++ [(⟨c.token, .stop⟩, exchange)]) := by
  refine h.disciplined.concat (by simp) (fun last hmem => ?_) (by simp)
  -- Stopping does not ask whether a batch is outstanding.
  by_cases hawaiting : c.awaiting = true
  · obtain ⟨hstop, hunanswered⟩ :=
      h.waiting (Option.isSome_of_eq_some hcontinuation) hawaiting last hmem
    exact ⟨hstop, .inr ⟨hunanswered, rfl⟩⟩
  · obtain ⟨hstop, hpart⟩ :=
      (h.idle continuation hcontinuation (by simpa using hawaiting)).2 last hmem
    exact ⟨hstop, .inl hpart⟩

theorem disciplined_send {request : Envelope} {s s' : Session (Logged σ)}
    {exchange : Exchange} (hsend : s.send request = (exchange, s'))
    (htrace : Disciplined token (trace ++ s.connection.log))
    (hsent : Disciplined token
      (trace ++ s.connection.log ++ [(request, exchange)])) :
    Disciplined token (trace ++ s'.connection.log) := by
  rcases Session.log_send_cases hsend with ⟨_, rfl⟩ | hlog
  · exact htrace
  · rw [hlog, ← List.append_assoc]
    exact hsent

theorem Move.tracked {a b : Cursor × Session (Logged σ)} (hmove : Move a b)
    (ha : Tracked a.1 (trace ++ a.2.connection.log)) :
    Tracked b.1 (trace ++ b.2.connection.log) := by
  have hsettled := hmove.settled ha.settled
  cases hmove with
  | abandoned _ => exact .of_dropped hsettled ha.disciplined rfl
  | refused _ _ => exact .of_dropped hsettled ha.disciplined rfl
  | dropped hcontinuation =>
      exact .of_dropped hsettled ha.disciplined hcontinuation
  | handedOut _ _ _ => exact ha.congr hsettled rfl rfl rfl
  | taken _ _ => exact ha.congr hsettled rfl rfl rfl
  | aggregated _ _ => exact ha.congr hsettled rfl rfl rfl
  | unfolded hready =>
      exact ha.congr hsettled (unfoldSingle_token _) (unfoldSingle_continuation _)
        (hready.unfoldSingle.awaiting.trans hready.awaiting.symm)
  | noted names =>
      simp only [Session.noteAll_eq]
      exact ha
  | unreachable hdry hcontinuation hsend =>
      have htrace := disciplined_send hsend ha.disciplined
        (ha.resume hdry hcontinuation _)
      exact .of_dropped hsettled htrace rfl
  | misanswered hdry hcontinuation hsend _ =>
      have htrace := disciplined_send hsend ha.disciplined
        (ha.resume hdry hcontinuation _)
      exact .of_dropped hsettled htrace rfl
  | stopped hcontinuation hsend =>
      have htrace := disciplined_send hsend ha.disciplined
        (ha.stop hcontinuation _)
      exact .of_dropped hsettled htrace rfl
  | lost hdry hcontinuation hsend =>
      have htracked := ha.wait hdry hcontinuation
      rw [List.append_assoc,
        ← Session.log_send_of_ne_failed hsend (by simp)] at htracked
      exact htracked
  | received hdry hcontinuation hsend hbatch =>
      have htracked := ha.receive hdry hcontinuation hbatch
      rw [List.append_assoc,
        ← Session.log_send_of_ne_failed hsend (by simp)] at htracked
      exact htracked

/-! ## Traces -/

theorem Tracked.run {q : Query} {s : Session σ} {s' : Session (Logged σ)}
    {c : Cursor} (h : q.run s.logged = (.ok c, s')) :
    Tracked c s'.connection.log := by
  obtain ⟨before, after, noted, term, bytes, reply, hbefore, hsend, hdecode,
    hreply, hafter, hc⟩ := Query.run_ok h
  have htoken : c.token = s.logged.nextToken := by rw [hc, start_token]
  have hready : c.Ready := by
    rw [hc]
    exact start_ready _ _ _ hreply
  have hpart : (Exchange.reply bytes).continuation? c.token = c.continuation := by
    rw [← htoken] at hdecode
    rw [Exchange.continuation?_of_decode hdecode, hc, start_continuation]
  have hlog : s'.connection.log =
      [(⟨c.token, .start term s.settings.startOptions⟩, .reply bytes)] := by
    rw [hafter, Session.log_send_of_ne_failed hsend (by simp), hbefore, htoken]
    rfl
  rw [hlog]
  refine ⟨hready.settled, .singleton _ _ _ _, fun continuation hfirst _ => ?_,
    fun _ hwaiting => ?_⟩
  · rw [hfirst] at hpart
    simp [continuations, resumed, Request.continuation?, hpart]
  · rw [hready.awaiting] at hwaiting
    cases hwaiting

/-- A cursor of a query, after some calls, with what the query has sent and what
became of it.  Each call is in a session of its own, since others may use the
session between two calls, and it may leave a request unanswered, since it can
be given up at each of them. -/
inductive Traced (q : Query) :
    Cursor → List (Envelope × Exchange) → Prop where
  | run {σ : Type} [Connection σ] {s : Session σ} {s' : Session (Logged σ)}
      {c : Cursor} : q.run s.logged = (.ok c, s') → Traced q c s'.connection.log
  | call {σ : Type} [Connection σ] {c : Cursor}
      {trace : List (Envelope × Exchange)} (operation : Operation)
      (s : Session σ) : Traced q c trace →
      Traced q (operation.perform c s.logged).1
        (trace ++ (operation.perform c s.logged).2.connection.log)

omit [Connection σ] in
theorem Traced.tracked {q : Query} {c : Cursor} (h : Traced q c trace) :
    Tracked c trace := by
  induction h with
  | run hrun => exact .run hrun
  | @call τ _ c trace operation s _ ih =>
      have hstart : Tracked c (trace ++ s.logged.connection.log) := by
        rw [show s.logged.connection.log = [] from rfl, List.append_nil]
        exact ih
      exact (operation.moves c s.logged).keeps
        (P := fun a => Tracked a.1 (trace ++ a.2.connection.log))
        (fun _ _ hmove => hmove.tracked) hstart

/-- The trace of a query is disciplined.  A call that reads asks for batches as
long as it needs an element, and closing the cursor stops the query.  Any request
leaves when the cursor has not failed and everything received before has been
taken out of it: this is the cursor that stays behind when the call is given up
at the request. -/
theorem Traced.disciplined {q : Query} {c : Cursor} (h : Traced q c trace) :
    Disciplined c.token trace ∧
    ∀ {τ : Type} [Connection τ] (operation : Operation) (s : Session τ)
      (before : List (Envelope × Exchange)) (entry : Envelope × Exchange),
      before ++ [entry] <+: (operation.perform c s.logged).2.connection.log →
      operation.Asks (c.stored.length + (brought c.token before).length)
        entry.1.request ∧
      ∃ left after,
        operation.perform c (s.logged.limited before.length) = (left, after) ∧
        after.connection.connection.log = before ++ [entry] ∧
        left.fault = none ∧ left.stored = [] :=
  ⟨h.tracked.disciplined, fun operation s _ _ hentry =>
    operation.at_request h.tracked.settled s hentry⟩

/-- A batch is asked for and given up; then the query is stopped. -/
theorem Traced.disciplined_waiting :
    ∃ (q : Query) (c : Cursor) (trace : List (Envelope × Exchange))
      (s : Session Script),
      Traced q c trace ∧ resumed trace = ["more"] ∧
      [] ++ [(⟨1, .stop⟩, .unanswered)] <+:
        (Operation.close.perform c s.logged).2.connection.log ∧
      Disciplined 1 trace ∧
      ∃ left after,
        Operation.close.perform c (s.logged.limited 0) = (left, after) ∧
        after.connection.connection.log = [(⟨1, .stop⟩, .unanswered)] ∧
        left.fault = none ∧ left.stored = [] := by
  let answering : Session Script := openSession
  let silent : Session Script := { connection := ⟨[.unanswered], none, 0⟩ }
  obtain ⟨events, hrun⟩ : ∃ events, Query.null.run answering.logged =
      (.ok openCursor, ⟨_, answering.settings, 2, false, events⟩) :=
    Query.run_batch_session rfl rfl rfl rfl decode_openBatch
  have hgivenUp := Traced.call .next (answering.limited 0) (.run hrun)
  rw [Operation.perform, Cursor.next] at hgivenUp
  have hstop : [] ++ [(⟨1, .stop⟩, .unanswered)] <+:
      (Operation.close.perform { openCursor with awaiting := true }
        silent.logged).2.connection.log :=
    List.prefix_rfl
  obtain ⟨hdisciplined, hcalls⟩ := hgivenUp.disciplined
  exact ⟨Query.null, _, _, silent, hgivenUp, rfl, hstop, hdisciplined,
    (hcalls .close silent [] _ hstop).2⟩

end Cursor

end DocumentQuery
