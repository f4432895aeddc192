import DocumentQuery.Proofs.CursorDraining
import DocumentQuery.Proofs.CursorExhaustion
import DocumentQuery.Proofs.FaultRecording
import DocumentQuery.Proofs.QueryRun

/-!
# Results of exactly one value

What a cursor will hand out is settled by what it has received and by what the server
still answers.  Asking for exactly one value depends on nothing else: how many
elements there are in all batches together, and how the batches end.
-/

namespace DocumentQuery

variable {σ : Type} [Connection σ]

/-! ## What is still to come -/

namespace Session

/-- The elements of all further batches of a result, and how the batches end: with
the last one, with a reply that is none, or with a request left unanswered. -/
def coming (s : Session σ) (token : Token) : Option String → List Datum × Outcome Unit
  | none => ([], .ok ())
  | some continuation =>
    match hsend : s.send ⟨token, .resume continuation⟩ with
    | (.unanswered, _) => ([], .pending)
    | (.failed fault, _) => ([], .error fault)
    | (.reply bytes, after) =>
      match bytes.toText?.bind Response.parse? with
      | none => ([], .error (.decode .malformed))
      | some response =>
        if response.token = token then
          match response.payload with
          | .value _ => ([], .error (.decode .unexpectedValue))
          | .failure report => ([], .error (.query report))
          | .sequence items => (items, .ok ())
          | .done => ([], .ok ())
          | .part items more =>
            have := repliesLeft_send hsend
            let (later, ending) := after.coming token (some more)
            (items ++ later, ending)
        else ([], .error (.decode (.wrongToken response.token token)))
  termination_by s.repliesLeft

@[simp] theorem coming_none (s : Session σ) (token : Token) :
    s.coming token none = ([], .ok ()) := by
  rw [coming]

theorem coming_of_unanswered {s s' : Session σ} {token : Token} {continuation : String}
    (hsend : s.send ⟨token, .resume continuation⟩ = (.unanswered, s')) :
    s.coming token (some continuation) = ([], .pending) := by
  rw [coming]
  split
  · rfl
  · next h => cases hsend.symm.trans h
  · next h => cases hsend.symm.trans h

theorem coming_of_failed {s s' : Session σ} {token : Token} {continuation : String}
    {fault : Fault} (hsend : s.send ⟨token, .resume continuation⟩ = (.failed fault, s')) :
    s.coming token (some continuation) = ([], .error fault) := by
  rw [coming]
  split
  · next h => cases hsend.symm.trans h
  · next h => cases hsend.symm.trans h; rfl
  · next h => cases hsend.symm.trans h

/-- A reply to a request for the next batch either ends the result with a fault, or
its elements come before those of the batches after it. -/
theorem coming_of_reply {s s' : Session σ} {token : Token} {continuation : String}
    {bytes : Bytes} (hsend : s.send ⟨token, .resume continuation⟩ = (.reply bytes, s')) :
    s.coming token (some continuation) =
      match Cursor.batchOf bytes token with
      | .error fault => ([], .error fault)
      | .ok (items, more) =>
        (items ++ (s'.coming token more).1, (s'.coming token more).2) := by
  rw [coming]
  split
  · next h => cases hsend.symm.trans h
  · next h => cases hsend.symm.trans h
  · next h =>
    cases hsend.symm.trans h
    unfold Cursor.batchOf Reply.decode
    cases bytes.toText?.bind Response.parse? with
    | none => rfl
    | some response =>
        by_cases htoken : response.token = token
        · simp only [htoken, if_true]
          cases response.payload <;> simp [Reply.ofPayload]
        · simp only [htoken, if_false]

theorem send_events {s s' : Session σ} {request : Envelope} {exchange : Exchange}
    (hsend : s.send request = (exchange, s')) (events : List Event) :
    ∃ noted, ({ s with events } : Session σ).send request =
      (exchange, { s' with events := noted }) := by
  obtain ⟨connection, settings, nextToken, closed, earlier⟩ := s
  cases closed <;> cases hsend <;> exact ⟨_, rfl⟩

/-- What has been recorded has no influence on what is still to come. -/
theorem coming_events (s : Session σ) (events : List Event) (token : Token)
    (continuation : Option String) :
    ({ s with events } : Session σ).coming token continuation =
      s.coming token continuation := by
  -- Sending records the request behind other events, so these are generalized.
  induction hleft : s.repliesLeft using Nat.strong_induction_on
    generalizing s events continuation with
  | _ left ih =>
    cases continuation with
    | none => rw [coming_none, coming_none]
    | some continuation =>
      rcases hsend : s.send ⟨token, .resume continuation⟩ with ⟨exchange, s'⟩
      obtain ⟨noted, hnoted⟩ := send_events hsend events
      cases exchange with
      | unanswered => rw [coming_of_unanswered hsend, coming_of_unanswered hnoted]
      | failed fault => rw [coming_of_failed hsend, coming_of_failed hnoted]
      | reply bytes =>
          have hless : s'.repliesLeft < left := hleft ▸ repliesLeft_send hsend
          rw [coming_of_reply hsend, coming_of_reply hnoted]
          cases Cursor.batchOf bytes token with
          | error fault => rfl
          | ok batch => simp only [ih s'.repliesLeft hless s' noted batch.2 rfl]

end Session

/-! ## What a cursor hands out -/

namespace Cursor

variable {c c₁ : Cursor} {s s₁ : Session σ}

/-- What a cursor has still to hand out, and how that ends. -/
def due (c : Cursor) (s : Session σ) : List Datum × Outcome Unit :=
  (c.stored ++ (s.coming c.token c.continuation).1,
    (s.coming c.token c.continuation).2)

theorem due_of_stored_nil (hstored : c.stored = []) :
    c.due s = s.coming c.token c.continuation := by
  rw [due, hstored, List.nil_append]

/-- A batch is asked for and comes, and what is due stays due; otherwise nothing was
due but the end that asking for it comes to. -/
theorem due_of_fetch {continuation : String} (hc : c.Dry)
    (hcontinuation : c.continuation = some continuation) :
    match c.fetch s continuation with
    | (.ok (), c₁, s₁) => c₁.Ready ∧ c.due s = c₁.due s₁
    | (.error fault, _, _) => c.due s = ([], .error fault)
    | (.pending, _, _) => c.due s = ([], .pending) := by
  have hstored : c.stored = [] := (stored_eq_buffer hc.single).trans hc.buffer
  have hdue : c.due s = s.coming c.token (some continuation) := by
    rw [due_of_stored_nil hstored, hcontinuation]
  unfold Cursor.fetch
  rcases hsend : s.send ⟨c.token, .resume continuation⟩ with ⟨bytes | fault | _, s'⟩
  · rw [Session.coming_of_reply hsend] at hdue
    rcases hbatch : batchOf bytes c.token with fault | ⟨items, more⟩
    · simp only [hbatch] at hdue ⊢
      exact hdue
    · simp only [hbatch] at hdue ⊢
      have hitems : (c.receive items more).stored = items := by
        rw [stored_eq_buffer (show (c.receive items more).single = none from hc.single)]
        exact congrArg (· ++ items) hc.buffer
      refine ⟨⟨hc.awaiting, hc.fault⟩, ?_⟩
      rw [hdue, due, hitems]
      exact congrArg (fun rest => (items ++ rest.1, rest.2))
        (s'.coming_events _ c.token more).symm
  · exact hdue.trans (Session.coming_of_failed hsend)
  · exact hdue.trans (Session.coming_of_unanswered hsend)

theorem due_unfoldSingle (c : Cursor) (s : Session σ) :
    c.unfoldSingle.due s = c.due s := by
  rw [due, due, stored_unfoldSingle, unfoldSingle_token, unfoldSingle_continuation]

/-- A call of `next` takes the first element that is due, or ends as was due. -/
theorem next_due (hc : c.Ready) :
    match c.next s with
    | (.ok (some datum), c₁, s₁) =>
      c.due s = (datum :: (c₁.due s₁).1, (c₁.due s₁).2)
    | (.ok none, _, _) => c.due s = ([], .ok ())
    | (.error fault, _, _) => c.due s = ([], .error fault)
    | (.pending, _, _) => c.due s = ([], .pending) := by
  fun_induction Cursor.next c s with
  | case1 c s call hblocked =>
      rw [blocked?_eq_none_iff.2 hc] at hblocked
      cases hblocked
  | case2 c s hfree datum rest hstored =>
      have hrest : ({ c.unfoldSingle with buffer := rest } : Cursor).stored = rest :=
        stored_eq_buffer (unfoldSingle_single c)
      dsimp only
      rw [due, due, hrest, hstored]
      simp only [unfoldSingle_token, unfoldSingle_continuation, List.cons_append]
  | case3 c s hfree hstored hcontinuation =>
      dsimp only
      rw [due_of_stored_nil hstored, hcontinuation, Session.coming_none]
  | case4 c s hfree hstored continuation hcontinuation c₁ s₁ hfetch hless ih =>
      have hdue := due_of_fetch (s := s) (hc.dry hstored)
        ((unfoldSingle_continuation c).trans hcontinuation)
      rw [hfetch, due_unfoldSingle] at hdue
      -- What was due is due from the batch that has come.
      rw [hdue.2]
      exact ih hdue.1
  | case5 c s hfree hstored continuation hcontinuation fault c₁ s₁ hfetch
  | case6 c s hfree hstored continuation hcontinuation c₁ s₁ hfetch =>
      have hdue := due_of_fetch (s := s) (hc.dry hstored)
        ((unfoldSingle_continuation c).trans hcontinuation)
      rwa [hfetch, due_unfoldSingle] at hdue

theorem Ends.due {call : Call σ Unit} (h : Ends c s call) (hc : c.Ready) :
    c.due s = ([], call.1) := by
  have hdue := next_due (s := s) hc
  cases h with
  | exhausted hnext | failed hnext | waiting hnext => rwa [hnext] at hdue

theorem Takes.due {elements : List Datum} (h : Takes c s elements c₁ s₁) (hc : c.Ready) :
    c₁.Ready ∧ c.due s = (elements ++ (c₁.due s₁).1, (c₁.due s₁).2) := by
  induction h with
  | nothing => exact ⟨hc, rfl⟩
  | @next c _ _ s _ _ _ _ hnext _ ih =>
      have hdue := next_due (s := s) hc
      rw [hnext] at hdue
      obtain ⟨hready, hrest⟩ := ih (ready_of_next hnext)
      rw [hdue, hrest]
      exact ⟨hready, rfl⟩

/-- Calls of `next` hand out what is due, and end as is due. -/
theorem takes_due (hc : c.Ready) (s : Session σ) :
    ∃ c₁ s₁ call, Takes c s (c.due s).1 c₁ s₁ ∧ Ends c₁ s₁ call ∧
      call.1 = (c.due s).2 := by
  obtain ⟨elements, c₁, s₁, call, htakes, hends⟩ := exists_takes_ends c s
  obtain ⟨hready, hdue⟩ := htakes.due hc
  rw [hends.due hready, List.append_nil] at hdue
  rw [hdue]
  exact ⟨c₁, s₁, call, htakes, hends, rfl⟩

/-! ## Exactly one value -/

theorem oneDatum_of_single (hc : c.Ready) {datum : Datum} (hsingle : c.single = some datum) :
    c.oneDatum s = (.ok datum, { c with single := none }, s) := by
  rw [oneDatum, blocked?_eq_none_iff.2 hc]
  simp only [hsingle]

theorem oneDatum_eq (hc : c.Ready) (hsingle : c.single = none) :
    c.oneDatum s = (c.next s).andThen fun first c s =>
      match first with
      | none => c.fail s (.decode .noValue)
      | some first =>
        (c.next s).andThen fun second c s =>
          match second with
          | none => (.ok first, c, s)
          | some _ => c.fail s (.decode .manyValues) := by
  unfold oneDatum
  split
  · next hblocked =>
    rw [blocked?_eq_none_iff.2 hc] at hblocked
    cases hblocked
  · split
    · next hsome => cases hsingle.symm.trans hsome
    · rfl

theorem oneDatum_of_none (hc : c.Ready) (hsingle : c.single = none) {call : Call σ Unit}
    (hends : Ends c s call) :
    c.oneDatum s = call.andThen fun _ c s => c.fail s (.decode .noValue) := by
  rw [oneDatum_eq hc hsingle]
  cases hends with
  | exhausted hnext | failed hnext | waiting hnext =>
      rw [hnext]
      rfl

theorem oneDatum_of_one (hc : c.Ready) (hsingle : c.single = none) {datum : Datum}
    (htakes : Takes c s [datum] c₁ s₁) {call : Call σ Unit}
    (hends : Ends c₁ s₁ call) :
    c.oneDatum s = call.andThen fun _ c s => (.ok datum, c, s) := by
  rw [oneDatum_eq hc hsingle]
  cases htakes with
  | next hfirst hnothing =>
      cases hnothing
      rw [hfirst]
      cases hends with
      | exhausted hnext | failed hnext | waiting hnext =>
          simp only [Call.andThen, hnext]

theorem Takes.pair {one two : Datum} {others : List Datum}
    (h : Takes c s (one :: two :: others) c₁ s₁) : ∃ c₂ s₂, Takes c s [one, two] c₂ s₂ := by
  cases h with
  | next hone hrest =>
      cases hrest with
      | next htwo _ => exact ⟨_, _, .next hone (.next htwo .nothing)⟩

theorem oneDatum_of_two (hc : c.Ready) (hsingle : c.single = none) {first second : Datum}
    (htakes : Takes c s [first, second] c₁ s₁) :
    c.oneDatum s = c₁.fail s₁ (.decode .manyValues) := by
  rw [oneDatum_eq hc hsingle]
  cases htakes with
  | next hfirst hrest =>
      cases hrest with
      | next hsecond hnothing =>
          cases hnothing
          rw [hfirst]
          simp only [Call.andThen, hsecond]

/-- How asking for exactly one value ends when certain elements are due and then a
certain end.  The second element decides, whatever comes after it. -/
def exactlyOne : List Datum → Outcome Unit → Outcome Datum
  | _ :: _ :: _, _ => .error (.decode .manyValues)
  | _, .error fault => .error fault
  | _, .pending => .pending
  | [], .ok () => .error (.decode .noValue)
  | [datum], .ok () => .ok datum

theorem exactlyOne_eq_ok {elements : List Datum} {ending : Outcome Unit} {datum : Datum} :
    exactlyOne elements ending = .ok datum ↔ elements = [datum] ∧ ending = .ok () := by
  rcases elements with _ | ⟨one, _ | ⟨two, others⟩⟩ <;>
    rcases ending with ⟨⟩ | fault | _ <;> simp [exactlyOne]

theorem exactlyOne_of_error {elements : List Datum} (h : elements.length ≤ 1)
    (fault : Fault) : exactlyOne elements (.error fault) = .error fault := by
  rcases elements with _ | ⟨one, _ | ⟨two, others⟩⟩
  · rfl
  · rfl
  · simp at h

theorem exactlyOne_of_pending {elements : List Datum} (h : elements.length ≤ 1) :
    exactlyOne elements .pending = .pending := by
  rcases elements with _ | ⟨one, _ | ⟨two, others⟩⟩
  · rfl
  · rfl
  · simp at h

/-- A second element ends the call as soon as it has been taken. -/
theorem oneDatum_of_many (hc : c.Ready) (hsingle : c.single = none) {one two : Datum}
    {others : List Datum} (hdue : (c.due s).1 = one :: two :: others) :
    ∃ c₂ s₂, Takes c s [one, two] c₂ s₂ ∧
      c.oneDatum s = c₂.fail s₂ (.decode .manyValues) := by
  obtain ⟨c₁, s₁, call, htakes, _⟩ := takes_due hc s
  rw [hdue] at htakes
  obtain ⟨c₂, s₂, hpair⟩ := htakes.pair
  exact ⟨c₂, s₂, hpair, oneDatum_of_two hc hsingle hpair⟩

/-- Without a single value, what is due decides. -/
theorem oneDatum_outcome (hc : c.Ready) (hsingle : c.single = none) (s : Session σ) :
    (c.oneDatum s).1 = exactlyOne (c.due s).1 (c.due s).2 := by
  obtain ⟨c₁, s₁, call, htakes, hends, hending⟩ := takes_due hc s
  rw [← hending]
  rcases helements : (c.due s).1 with _ | ⟨one, _ | ⟨two, others⟩⟩
  · rw [helements] at htakes
    cases htakes
    rw [oneDatum_of_none hc hsingle hends]
    obtain ⟨⟨⟩ | fault | _, c₂, s₂⟩ := call <;> rfl
  · rw [helements] at htakes
    rw [oneDatum_of_one hc hsingle htakes hends]
    obtain ⟨⟨⟩ | fault | _, c₂, s₂⟩ := call <;> rfl
  · obtain ⟨c₂, s₂, _, hmany⟩ := oneDatum_of_many hc hsingle helements
    rw [hmany]
    rfl

theorem isExhausted_of_next (hnext : c.next s = (.ok none, c₁, s₁)) :
    c₁.isExhausted = true := by
  obtain ⟨hready, hstored, hcontinuation⟩ := exhausted_of_next hnext
  have hsingle := single_of_next hnext
  rw [stored_eq_buffer hsingle] at hstored
  exact isExhausted_iff.2 ⟨hready.fault, hsingle, hstored, hcontinuation⟩

/-- Whoever has got the only element knows that there is nothing more. -/
theorem isExhausted_of_oneDatum (hc : c.Ready) (hsingle : c.single = none) {datum : Datum}
    (h : (c.oneDatum s).1 = .ok datum) : (c.oneDatum s).2.1.isExhausted = true := by
  obtain ⟨c₁, s₁, hcall⟩ : ∃ c₁ s₁, c.oneDatum s = (.ok datum, c₁, s₁) :=
    ⟨_, _, Prod.ext h rfl⟩
  rw [hcall]
  rw [oneDatum_eq hc hsingle] at hcall
  obtain ⟨_ | first, c₂, s₂, _, hrest⟩ := andThen_ok hcall
  · cases hrest
  · obtain ⟨_ | second, c₃, s₃, hsecond, hlast⟩ := andThen_ok hrest
    · cases hlast
      exact isExhausted_of_next hsecond
    · cases hlast

end Cursor

theorem Session.connection_send_of_reply {s s' : Session σ} {request : Envelope}
    {bytes : Bytes} (h : s.send request = (.reply bytes, s')) :
    Connection.send request s.connection = (.reply bytes, s'.connection) := by
  unfold Session.send at h
  split at h
  · cases h
  · obtain ⟨hreply, rfl⟩ := Prod.mk.inj h
    exact Prod.ext hreply rfl

theorem Query.verdict_eq_ok {q : Query} {token : Token} {exchange : Exchange} {c : Cursor}
    (h : q.verdict token exchange = .ok c) :
    ∃ bytes first, exchange = .reply bytes ∧ Reply.decode bytes token = .ok first ∧
      (∀ report, first ≠ .failure report) ∧ c = first.cursor token q.shape := by
  cases exchange with
  | unanswered | failed fault => cases h
  | reply bytes =>
      rcases hdecode : Reply.decode bytes token with cause | datum | ⟨items, more⟩ | report
      all_goals
        simp only [Query.verdict, hdecode] at h
        cases h
      · exact ⟨bytes, _, rfl, hdecode, by simp, rfl⟩
      · exact ⟨bytes, _, rfl, hdecode, by simp, rfl⟩

/-- The cursor of a query is made of the reply to the request that starts it. -/
theorem Query.run_first {q : Query} {s s₁ : Session σ} {c : Cursor}
    (hrun : q.run s = (.ok c, s₁)) :
    ∃ term bytes first, q.compile (some s.settings.defaultDatabase) = .ok term ∧
      Connection.send ⟨s.nextToken, .start term s.settings.startOptions⟩ s.connection =
        (.reply bytes, s₁.connection) ∧
      Reply.decode bytes s.nextToken = .ok first ∧
      (∀ report, first ≠ .failure report) ∧ c = first.cursor s.nextToken q.shape := by
  rcases hcompile : q.compileWithWarnings (some s.settings.defaultDatabase) with
    ⟨cause | term, warnings⟩
  · rw [Query.run_of_error hcompile] at hrun
    cases hrun
  · rcases hsend : ({ s with
        nextToken := s.nextToken + 1,
        events := q.opening s.nextToken term warnings ++ s.events } : Session σ).send
      ⟨s.nextToken, .start term s.settings.startOptions⟩ with ⟨exchange, after⟩
    rw [Query.run_of_ok hcompile hsend] at hrun
    obtain ⟨hverdict, rfl⟩ := Prod.mk.inj hrun
    obtain ⟨bytes, first, rfl, hdecode, hfirst, rfl⟩ := Query.verdict_eq_ok hverdict
    have hterm : q.compile (some s.settings.defaultDatabase) = .ok term := by
      rw [Query.compile, hcompile]
    have hreply := Session.connection_send_of_reply hsend
    exact ⟨term, bytes, first, hterm, hreply, hdecode, hfirst, rfl⟩

namespace Cursor

variable {c : Cursor} {s s₁ : Session σ}

/-- Asking the cursor of a query for exactly one value, in whatever state the session
then is.  There is one if the first reply is a value, or if all batches together have
just one element and the last of them comes; then the cursor is exhausted.  Otherwise
the call ends with a fault that stays: for more than one value once a second element
has been taken, else for the reply or the request that broke the result off, or for no
value.  It waits when a request is not answered. -/
theorem oneDatum_iff_exactly_one {q : Query} (hrun : q.run s = (.ok c, s₁)) :
    ∃ term bytes first, q.compile (some s.settings.defaultDatabase) = .ok term ∧
      Connection.send ⟨c.token, .start term s.settings.startOptions⟩ s.connection =
        (.reply bytes, s₁.connection) ∧
      bytes.answer? c.token = some first ∧
      ∀ t : Session σ,
        (∀ datum, (c.oneDatum t).1 = .ok datum ↔
          first = .value datum ∨ ∃ items more later, first.batch? = some (items, more) ∧
            t.coming c.token more = (later, .ok ()) ∧ items ++ later = [datum]) ∧
        (∀ datum, (c.oneDatum t).1 = .ok datum → (c.oneDatum t).2.1.isExhausted = true) ∧
        (∀ fault, (c.oneDatum t).1 = .error fault →
          (c.oneDatum t).2.1.fault = some fault) ∧
        ∀ items more later ending, first.batch? = some (items, more) →
          t.coming c.token more = (later, ending) →
          (items ++ later = [] → ending = .ok () →
            (c.oneDatum t).1 = .error (.decode .noValue)) ∧
          ((items ++ later).length ≤ 1 → ∀ fault, ending = .error fault →
            (c.oneDatum t).1 = .error fault) ∧
          ((items ++ later).length ≤ 1 → ending = .pending →
            (c.oneDatum t).1 = .pending) ∧
          ∀ one two others, items ++ later = one :: two :: others →
            ∃ c₂ t₂, Takes c t [one, two] c₂ t₂ ∧
              c.oneDatum t = c₂.fail t₂ (.decode .manyValues) := by
  obtain ⟨term, bytes, first, hcompile, hsend, hdecode, hfirst, hc⟩ := Query.run_first hrun
  obtain ⟨payload, hanswer, hpayload⟩ := Reply.decode_eq_ok_iff.1 hdecode
  have htoken : c.token = s.nextToken := by
    rw [hc]
    cases first <;> rfl
  have hready : c.Ready := by
    cases first with
    | failure report => exact (hfirst report rfl).elim
    | _ => exact hc ▸ ⟨rfl, rfl⟩
  rw [← htoken] at hsend hanswer
  refine ⟨term, bytes, payload, hcompile, hsend, hanswer, fun t => ?_⟩
  simp only [← Reply.ofPayload_eq_value_iff, ← Reply.ofPayload_eq_batch_iff, hpayload]
  have hrecords : ∀ fault, (c.oneDatum t).1 = .error fault →
      (c.oneDatum t).2.1.fault = some fault := records_oneDatum c t
  cases first with
  | failure report => exact (hfirst report rfl).elim
  | value value =>
      have hsingle : c.single = some value := by rw [hc]; rfl
      have hone := oneDatum_of_single (s := t) hready hsingle
      refine ⟨fun datum => ?_, fun _ _ => ?_, hrecords, by rintro _ _ _ _ ⟨⟩⟩
      · rw [hone]
        simp [eq_comm]
      · rw [hone, isExhausted_iff]
        refine ⟨hready.fault, rfl, ?_, ?_⟩ <;> rw [hc] <;> rfl
  | batch items more =>
      have hsingle : c.single = none := by rw [hc]; rfl
      have hdue : c.due t =
          (items ++ (t.coming c.token more).1, (t.coming c.token more).2) := by
        rw [due, stored_eq_buffer hsingle, hc]
        rfl
      have houtcome := oneDatum_outcome hready hsingle t
      rw [hdue] at houtcome
      refine ⟨fun datum => ?_, fun datum => isExhausted_of_oneDatum hready hsingle,
        hrecords, ?_⟩
      · rw [houtcome, exactlyOne_eq_ok]
        constructor
        · rintro ⟨helements, hending⟩
          exact .inr ⟨items, more, _, rfl, Prod.ext rfl hending, helements⟩
        · rintro (hvalue | ⟨_, _, later, hbatch, hcoming, helements⟩)
          · cases hvalue
          cases hbatch
          rw [hcoming]
          exact ⟨helements, rfl⟩
      · rintro _ _ later ending ⟨⟩ hcoming
        rw [hcoming] at hdue houtcome
        refine ⟨?_, fun hfew => ?_, fun hfew => ?_, fun one two others hmany => ?_⟩
        · rintro hnone rfl
          rw [houtcome, hnone]
          rfl
        · rintro fault rfl
          rw [houtcome, exactlyOne_of_error hfew]
        · rintro rfl
          rw [houtcome, exactlyOne_of_pending hfew]
        · exact oneDatum_of_many hready hsingle (by rw [hdue]; exact hmany)

/-- The first batch is empty, and the second and last has the only element. -/
theorem oneDatum_of_later_batch :
    ∃ (q : Query) (s s₁ : Session Script),
      q.run s = (.ok openCursor, s₁) ∧
      (openCursor.oneDatum s₁).1 = .ok (.string "x") ∧
      (openCursor.oneDatum s₁).2.1.isExhausted = true := by
  let later : Script := ⟨[.reply fun _ => textBatch], none, 0⟩
  let s : Session Script :=
    { connection := { later with entries := (.reply fun _ => openBatch) :: later.entries } }
  obtain ⟨events, hrun⟩ : ∃ events,
      Query.null.run s = (.ok openCursor, ⟨later, s.settings, 2, false, events⟩) :=
    Query.run_batch_session rfl rfl rfl rfl decode_openBatch
  generalize hs₁ : (⟨later, s.settings, 2, false, events⟩ : Session Script) = s₁ at hrun
  have hcoming : s₁.coming 1 (some "more") = ([.string "x"], .ok ()) := by
    rw [← hs₁, Session.coming_of_reply rfl, batchOf, decode_textBatch]
    simp only [Session.coming_none, List.append_nil]
  obtain ⟨term, bytes, first, _, hsend, hanswer, hone⟩ := oneDatum_iff_exactly_one hrun
  have hfirst : first.batch? = some ([], some "more") := by
    have hbytes : openBatch = bytes := Exchange.reply.inj (congrArg Prod.fst hsend)
    have hbatch := Reply.decode_eq_batch_iff.1 decode_openBatch
    rw [hbytes, show bytes.answer? 1 = some first from hanswer] at hbatch
    exact hbatch
  obtain ⟨hiff, hexhausted, _⟩ := hone s₁
  have hvalue := (hiff (.string "x")).2 (.inr ⟨[], some "more", _, hfirst, hcoming, rfl⟩)
  exact ⟨Query.null, s, s₁, hrun, hvalue, hexhausted _ hvalue⟩

end Cursor

end DocumentQuery
