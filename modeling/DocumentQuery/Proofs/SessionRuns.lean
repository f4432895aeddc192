import DocumentQuery.Proofs.CursorRelease
import DocumentQuery.Proofs.DefaultDatabase
import DocumentQuery.Proofs.QueryRun

/-!
# Runs in the course of a session

All clones of a session share its tokens, its settings and its connection, so
that the history of a session is one list of what was done with any of them.
Whatever the history, the runs that compile have taken the tokens from one on in
their order, and what a run does is settled by the settings of that moment, by
whether the session is closed, and by what becomes of one request.
-/

namespace DocumentQuery

inductive Deed : Type 1 where
  | run (q : Query)
  | change (name : String) (value : Datum)
  | close
  | call (c : Cursor) (operation : Cursor.Operation)

/-- A response under a token settles how a run ends: it is made into a cursor
unless it reports a failure. -/
inductive Answered (token : Token) (shape : ResultShape) :
    Exchange → Outcome Cursor → Prop where
  | accepted {bytes : Bytes} {response : Response} :
      bytes.toText?.bind Response.parse? = some response →
      response.token = token →
      (∀ report, response.payload ≠ .failure report) →
      Answered token shape (.reply bytes)
        (.ok ((Reply.ofPayload response.payload).cursor token shape))
  | rejected {bytes : Bytes} {response : Response} {report : Failure} :
      bytes.toText?.bind Response.parse? = some response →
      response.token = token →
      response.payload = .failure report →
      Answered token shape (.reply bytes) (.error (.query report))
  | malformed {bytes : Bytes} :
      bytes.toText?.bind Response.parse? = none →
      Answered token shape (.reply bytes) (.error (.decode .malformed))
  | misdirected {bytes : Bytes} {response : Response} :
      bytes.toText?.bind Response.parse? = some response →
      response.token ≠ token →
      Answered token shape (.reply bytes)
        (.error (.decode (.wrongToken response.token token)))
  | failed (fault : Fault) : Answered token shape (.failed fault) (.error fault)
  | unanswered : Answered token shape .unanswered .pending

theorem Query.answered_verdict (q : Query) (token : Token) (exchange : Exchange) :
    Answered token q.shape exchange (q.verdict token exchange) := by
  cases exchange with
  | unanswered => exact .unanswered
  | failed fault => exact .failed fault
  | reply bytes =>
      cases hparse : bytes.toText?.bind Response.parse? with
      | none =>
          have hdecode : Reply.decode bytes token = .error .malformed := by
            rw [Reply.decode, hparse]
          simp only [Query.verdict, hdecode]
          exact .malformed hparse
      | some response =>
          have hdecode := Reply.decode_of_parse hparse token
          by_cases htoken : response.token = token
          · rw [if_pos htoken] at hdecode
            cases hpayload : response.payload with
            | failure report =>
                simp only [Query.verdict, hdecode, hpayload, Reply.ofPayload]
                exact .rejected hparse htoken hpayload
            | _ =>
                have haccepted : Answered token q.shape _ _ :=
                  .accepted hparse htoken (by simp [hpayload])
                simp only [hpayload, Reply.ofPayload] at haccepted
                simpa only [Query.verdict, hdecode, hpayload, Reply.ofPayload]
                  using haccepted
          · rw [if_neg htoken] at hdecode
            simp only [Query.verdict, hdecode]
            exact .misdirected hparse htoken

namespace Session

variable {σ : Type}

theorem started_prepend (s : Session σ) (events : List Event) :
    ({ s with events := events ++ s.events } : Session σ).started =
      s.started ++ (events.filterMap Event.started?).reverse := by
  simp [started, List.filterMap_reverse]

theorem requests_prepend (s : Session σ) (events : List Event) :
    ({ s with events := events ++ s.events } : Session σ).requests =
      s.requests ++ (events.filterMap Event.request?).reverse := by
  simp [requests, List.filterMap_reverse]

theorem started_note {s : Session σ} {event : Event} (h : event.started? = none) :
    (s.note event).started = s.started := by
  simp [started, note, h]

/-- The tokens from one on do not repeat before all have been taken. -/
theorem token_inj {m n : Nat} (hm : m < 2 ^ 64) (hn : n < 2 ^ 64)
    (h : UInt64.ofNat (m + 1) = UInt64.ofNat (n + 1)) : m = n := by
  have hnat := congrArg UInt64.toNat h
  simp only [UInt64.toNat_ofNat'] at hnat
  omega

structure Numbered (s : Session σ) : Prop where
  started : s.started =
    (List.range s.started.length).map fun k => UInt64.ofNat (k + 1)
  next : s.nextToken = UInt64.ofNat (s.started.length + 1)

theorem Numbered.congr {s s' : Session σ} (h : s.Numbered)
    (hstarted : s'.started = s.started) (hnext : s'.nextToken = s.nextToken) :
    s'.Numbered := by
  constructor
  · rw [hstarted]
    exact h.started
  · rw [hstarted, hnext]
    exact h.next

theorem Numbered.take {s s' : Session σ} (h : s.Numbered)
    (hstarted : s'.started = s.started ++ [s.nextToken])
    (hnext : s'.nextToken = s.nextToken + 1) : s'.Numbered := by
  have hlength : s'.started.length = s.started.length + 1 := by
    rw [hstarted, List.length_append, List.length_singleton]
  constructor
  · rw [hlength, List.range_succ, List.map_append, ← h.started, hstarted, h.next]
    rfl
  · rw [hlength, hnext, h.next, UInt64.ofNat_add (s.started.length + 1)]
    rfl

theorem Numbered.nodup {s : Session σ} (h : s.Numbered)
    (hcount : s.started.length ≤ 2 ^ 64) : s.started.Nodup := by
  rw [h.started]
  refine List.Nodup.map_on (fun a ha b hb hab => ?_) List.nodup_range
  rw [List.mem_range] at ha hb
  exact token_inj (by omega) (by omega) hab

variable [Connection σ]

/-- The session after something was done with it, or where a call was given
up. -/
def perform (s : Session σ) : Deed → Session σ
  | .run q => (q.run s).2
  | .change name value => (s.changeSetting name value).2
  | .close => s.close.2
  | .call c operation => (operation.perform c s).2

def afterAll (s : Session σ) (deeds : List Deed) : Session σ := deeds.foldl perform s

def fresh (connection : σ) (settings : Settings) : Session σ :=
  { connection, settings }

theorem started_send (s : Session σ) (request : Envelope) :
    (s.send request).2.started = s.started := by
  unfold send
  split
  · rfl
  · exact s.started_note rfl

theorem nextToken_send (s : Session σ) (request : Envelope) :
    (s.send request).2.nextToken = s.nextToken := by
  unfold send
  split <;> rfl

theorem settings_send (s : Session σ) (request : Envelope) :
    (s.send request).2.settings = s.settings := by
  unfold send
  split <;> rfl

theorem Numbered.send {s s' : Session σ} {request : Envelope}
    {exchange : Exchange} (h : s.Numbered)
    (hsend : s.send request = (exchange, s')) : s'.Numbered := by
  have hstarted := s.started_send request
  have hnext := s.nextToken_send request
  rw [hsend] at hstarted hnext
  exact h.congr hstarted hnext

omit [Connection σ] in
theorem Numbered.changeSetting {s : Session σ} (h : s.Numbered) (name : String)
    (value : Datum) : (s.changeSetting name value).2.Numbered := by
  unfold Session.changeSetting
  split
  · exact h.congr (started_note rfl) rfl
  · exact h

theorem Numbered.close {s : Session σ} (h : s.Numbered) : s.close.2.Numbered := by
  unfold Session.close
  split
  · exact h
  · exact h.congr (started_note rfl) rfl

end Session

variable {σ : Type} [Connection σ]

theorem Cursor.Move.numbered {a b : Cursor × Session σ} (hmove : Move a b)
    (ha : a.2.Numbered) : b.2.Numbered := by
  cases hmove with
  | unfolded | handedOut | taken | dropped => exact ha
  | abandoned =>
      exact ha.congr (Session.started_note rfl) rfl
  | refused => exact ha.congr (Session.started_note rfl) rfl
  | aggregated => exact ha.congr (Session.started_note rfl) rfl
  | lost _ _ hsend => exact ha.send hsend
  | unreachable _ _ hsend => exact (ha.send hsend).congr (Session.started_note rfl) rfl
  | misanswered _ _ hsend _ =>
      exact (ha.send hsend).congr (Session.started_note rfl) rfl
  | received _ _ hsend _ => exact (ha.send hsend).congr (Session.started_note rfl) rfl
  | @stopped c s _ _ _ _ hsend =>
      have hnoted : (s.note (.stopping c.token)).Numbered :=
        ha.congr (Session.started_note rfl) rfl
      exact hnoted.send hsend
  | noted names =>
      rw [Session.noteAll_eq, ← List.map_reverse]
      refine ha.congr ((Session.started_prepend _ _).trans ?_) rfl
      simp [List.filterMap_map, Function.comp_def, Event.started?]

/-! ## The run of a query -/

/-- What the run of a query that does not compile leaves of a session: all but
the record of its warnings. -/
structure Session.Untouched (s s' : Session σ) : Prop where
  connection : s'.connection = s.connection
  settings : s'.settings = s.settings
  nextToken : s'.nextToken = s.nextToken
  closed : s'.closed = s.closed
  started : s'.started = s.started
  requests : s'.requests = s.requests

/-- The term was compiled for the database that the options name: it is what the
expression compiles to, without a default, once every table has this database
put before it that has none. -/
structure Query.Consistent (q : Query) (settings : Settings) (term database : Term) :
    Prop where
  option : Fields.find? "db" settings.startOptions = some database
  explicit : ∀ i j : NodeId,
    (Expr.explicitDatabase i j settings.defaultDatabase).compile ⟨none, q.atomic⟩ =
      .ok database
  qualified : ∀ i j : NodeId,
    (Expr.qualified (Expr.explicitDatabase i j settings.defaultDatabase)
      q.expr).compile ⟨none, q.atomic⟩ = .ok term

theorem Query.consistent_of_compile {q : Query} {settings : Settings} {term : Term}
    (h : q.compile (some settings.defaultDatabase) = .ok term) :
    q.Consistent settings term
      (.ofArgs .db [.literal (.string settings.defaultDatabase)]) := by
  refine ⟨rfl, fun i j => rfl, fun i j => ?_⟩
  rw [Expr.compile, Expr.compileWithWarnings, Compile.expr_qualified]
  exact h

/-- What the run of a query that compiles does, given the session before it. -/
structure Query.Ran (q : Query) (s : Session σ) (term : Term)
    (outcome : Outcome Cursor) (s' : Session σ) : Prop where
  nextToken : s'.nextToken = s.nextToken + 1
  settings : s'.settings = s.settings
  closed : s'.closed = s.closed
  started : s'.started = s.started ++ [s.nextToken]
  refused : s.closed = true →
    outcome = .error (.connection .sessionClosed) ∧
      s'.connection = s.connection ∧ s'.requests = s.requests
  sent : s.closed = false →
    ∃ exchange,
      Connection.send ⟨s.nextToken, .start term s.settings.startOptions⟩
        s.connection = (exchange, s'.connection) ∧
      s'.requests =
        s.requests ++ [⟨s.nextToken, .start term s.settings.startOptions⟩] ∧
      Answered s.nextToken q.shape exchange outcome

theorem Query.untouched_run {q : Query} {s : Session σ} {cause : BuildFault}
    (h : q.compile (some s.settings.defaultDatabase) = .error cause) :
    (q.run s).1 = .error (.build cause) ∧ s.Untouched (q.run s).2 := by
  obtain ⟨warnings, hcompile⟩ : ∃ warnings,
      q.compileWithWarnings (some s.settings.defaultDatabase) =
        (.error cause, warnings) := ⟨_, Prod.ext h rfl⟩
  have hsilent := Event.silent_refusedWrites warnings
  rw [Query.run_of_error hcompile]
  refine ⟨rfl, rfl, rfl, rfl, rfl, ?_, ?_⟩
  · rw [Session.started_prepend, hsilent.2, List.reverse_nil, List.append_nil]
  · rw [Session.requests_prepend, hsilent.1, List.reverse_nil, List.append_nil]

theorem Query.ran_run {q : Query} {s : Session σ} {term : Term}
    (h : q.compile (some s.settings.defaultDatabase) = .ok term) :
    q.Ran s term (q.run s).1 (q.run s).2 := by
  obtain ⟨warnings, hcompile⟩ : ∃ warnings,
      q.compileWithWarnings (some s.settings.defaultDatabase) =
        (.ok term, warnings) := ⟨_, Prod.ext h rfl⟩
  -- `before` is the session in which the request is sent.
  generalize hbefore : ({ s with
    nextToken := s.nextToken + 1,
    events := q.opening s.nextToken term warnings ++ s.events } : Session σ) = before
  have hstarted : before.started = s.started ++ [s.nextToken] := by
    rw [← hbefore]
    refine (Session.started_prepend { s with nextToken := s.nextToken + 1 } _).trans ?_
    rw [Query.opening_started?]
    rfl
  have hrequests : before.requests = s.requests := by
    rw [← hbefore]
    refine (Session.requests_prepend { s with nextToken := s.nextToken + 1 } _).trans ?_
    rw [Query.opening_request?, List.reverse_nil, List.append_nil]
    rfl
  rcases hsend : before.send ⟨s.nextToken, .start term s.settings.startOptions⟩
    with ⟨exchange, after⟩
  have hsilent := q.silent_ending s.nextToken exchange
  rw [Query.run_of_ok hcompile (hbefore ▸ hsend)]
  have hafter : after = (before.send ⟨s.nextToken, .start term s.settings.startOptions⟩).2 := by
    rw [hsend]
  refine ⟨?_, ?_, ?_, ?_, fun hclosed => ?_, fun hopen => ?_⟩
  · rw [hafter, Session.nextToken_send, ← hbefore]
  · rw [hafter, Session.settings_send, ← hbefore]
  · exact (Session.closed_send hsend).trans (by rw [← hbefore])
  · rw [Session.started_prepend, hsilent.2, List.reverse_nil, List.append_nil, hafter,
      Session.started_send, hstarted]
  · have hbefore_closed : before.closed = true := by
      rw [← hbefore]
      exact hclosed
    rw [Session.send_closed hbefore_closed] at hsend
    cases hsend
    refine ⟨rfl, ?_, ?_⟩
    · rw [← hbefore]
    · rw [Session.requests_prepend, hsilent.1, List.reverse_nil, List.append_nil, hrequests]
  · have hbefore_open : before.closed = false := by
      rw [← hbefore]
      exact hopen
    refine ⟨exchange, ?_, ?_, q.answered_verdict _ _⟩
    · rw [Session.send, hbefore_open] at hsend
      rw [← hbefore] at hsend
      cases hsend
      rfl
    · rw [Session.requests_prepend, hsilent.1, List.reverse_nil, List.append_nil, hafter,
        Session.requests_send hbefore_open, hrequests]

/-! ## Histories -/

namespace Session

theorem Numbered.run {s : Session σ} (h : s.Numbered) (q : Query) :
    (q.run s).2.Numbered := by
  cases hcompile : q.compile (some s.settings.defaultDatabase) with
  | error cause =>
      have huntouched := (Query.untouched_run hcompile).2
      exact h.congr huntouched.started huntouched.nextToken
  | ok term =>
      have hran := Query.ran_run hcompile
      exact h.take hran.started hran.nextToken

theorem Numbered.perform {s : Session σ} (h : s.Numbered) (deed : Deed) :
    (s.perform deed).Numbered := by
  cases deed with
  | run q => exact h.run q
  | change name value => exact h.changeSetting name value
  | close => exact h.close
  | call c operation =>
      have hmoves := operation.moves c s
      exact hmoves.keeps (P := fun x => x.2.Numbered)
        (fun _ _ hmove hx => hmove.numbered hx) h

omit [Connection σ] in
theorem numbered_fresh (connection : σ) (settings : Settings) :
    (fresh connection settings).Numbered :=
  ⟨rfl, rfl⟩

theorem Numbered.afterAll {s : Session σ} (h : s.Numbered) (deeds : List Deed) :
    (s.afterAll deeds).Numbered := by
  induction deeds generalizing s with
  | nil => exact h
  | cons deed later ih => exact ih (h.perform deed)

end Session

/-- Requests that a connection fails to carry fail with connection faults. -/
def Connection.FailsByItself (σ : Type) [Connection σ] : Prop :=
  ∀ (request : Envelope) (connection : σ) (fault : Fault),
    (Connection.send request connection).1 = .failed fault →
    ∃ cause, fault = .connection cause

theorem Answered.ok_iff {token : Token} {shape : ResultShape} {exchange : Exchange}
    {outcome : Outcome Cursor} (h : Answered token shape exchange outcome) :
    (∃ c, outcome = .ok c) ↔
      ∃ bytes response, exchange = .reply bytes ∧
        bytes.toText?.bind Response.parse? = some response ∧
        response.token = token ∧
        ∀ report, response.payload ≠ .failure report := by
  constructor
  · rintro ⟨c, rfl⟩
    cases h with
    | accepted hparse htoken hpayload =>
        exact ⟨_, _, rfl, hparse, htoken, hpayload⟩
  · rintro ⟨bytes, response, rfl, hparse, htoken, hpayload⟩
    cases h with
    | accepted => exact ⟨_, rfl⟩
    | rejected hparse' _ hreport =>
        rw [hparse] at hparse'
        cases hparse'
        exact absurd hreport (hpayload _)
    | malformed hparse' =>
        rw [hparse] at hparse'
        cases hparse'
    | misdirected hparse' htoken' =>
        rw [hparse] at hparse'
        cases hparse'
        exact absurd htoken htoken'

theorem Answered.connection_iff {token : Token} {shape : ResultShape}
    {exchange : Exchange} {outcome : Outcome Cursor}
    (h : Answered token shape exchange outcome)
    (hfails : ∀ fault, exchange = .failed fault → ∃ cause, fault = .connection cause) :
    (∃ cause, outcome = .error (.connection cause)) ↔
      ∃ fault, exchange = .failed fault := by
  constructor
  · rintro ⟨cause, rfl⟩
    cases h with
    | failed => exact ⟨_, rfl⟩
  · rintro ⟨fault, rfl⟩
    cases h with
    | failed =>
        obtain ⟨cause, rfl⟩ := hfails fault rfl
        exact ⟨cause, rfl⟩

/-- Whatever was done with a session before, its runs have taken the tokens from
one on, and a further run goes as its settings, its connection and the reply
have it. -/
theorem Query.run_afterAll (connection : σ) (settings : Settings)
    (deeds : List Deed) (q : Query) :
    let s := (Session.fresh connection settings).afterAll deeds
    s.Numbered ∧ (s.started.length ≤ 2 ^ 64 → s.started.Nodup) ∧
    (∀ cause, q.compile (some s.settings.defaultDatabase) = .error cause →
      (q.run s).1 = .error (.build cause) ∧ s.Untouched (q.run s).2) ∧
    (∀ term, q.compile (some s.settings.defaultDatabase) = .ok term →
      let request : Envelope := ⟨s.nextToken, .start term s.settings.startOptions⟩
      let exchange := (Connection.send request s.connection).1
      (∃ database, q.Consistent s.settings term database) ∧
      q.Ran s term (q.run s).1 (q.run s).2 ∧
      ((∃ c, (q.run s).1 = .ok c) ↔
        s.closed = false ∧ ∃ bytes response, exchange = .reply bytes ∧
          bytes.toText?.bind Response.parse? = some response ∧
          response.token = s.nextToken ∧
          ∀ report, response.payload ≠ .failure report) ∧
      (Connection.FailsByItself σ →
        ((∃ cause, (q.run s).1 = .error (.connection cause)) ↔
          s.closed = true ∨ ∃ fault, exchange = .failed fault))) := by
  intro s
  have hnumbered : s.Numbered :=
    (Session.numbered_fresh connection settings).afterAll deeds
  refine ⟨hnumbered, hnumbered.nodup, fun cause => Query.untouched_run,
    fun term hcompile => ?_⟩
  have hran := Query.ran_run hcompile
  refine ⟨⟨_, Query.consistent_of_compile hcompile⟩, hran, ?_⟩
  cases hclosed : s.closed with
  | true =>
      obtain ⟨houtcome, -, -⟩ := hran.refused hclosed
      rw [houtcome]
      simp
  | false =>
      obtain ⟨exchange, hsend, -, hanswered⟩ := hran.sent hclosed
      rw [hsend]
      simp only [true_and, Bool.false_eq_true, false_or]
      refine ⟨hanswered.ok_iff, fun hfails => hanswered.connection_iff ?_⟩
      intro fault hfault
      exact hfails _ _ fault ((congrArg Prod.fst hsend).trans hfault)

end DocumentQuery
