import DocumentQuery.Proofs.AlikeCalls

/-!
# Calls that nothing overlaps

A query that is run, or a call on a cursor, in a system of overlapping calls is the
run or the call itself if all its requests are answered before anything else
happens: it sends the same requests, ends with the same value or fault and leaves
the same cursor behind.  Until the last answer it is the call given up at its next
request, made once more with the answers that have come.
-/

namespace DocumentQuery

variable {ι σ : Type} {t : Token}

/-! ## The same under one token -/

theorem Fault.Alike.eq {fault fault' : Fault} (h : Fault.Alike t t fault fault') :
    fault = fault' := by
  cases h with
  | same | abandoned | unscripted => rfl
  | misdirected hgiven => rw [hgiven rfl]

theorem Exchange.alike_refl (t : Token) (exchange : Exchange) :
    exchange.Alike t t exchange := by
  cases exchange with
  | failed fault => exact .failed (.same fault)
  | unanswered => exact .unanswered
  | reply bytes =>
      refine .reply ?_
      cases Reply.decode bytes t with
      | ok reply => exact .ok reply
      | error cause => exact .error (.same _)

theorem Outcome.Alike.eq {α : Type} {outcome outcome' : Outcome α}
    (h : outcome.Alike t t outcome') : outcome = outcome' := by
  cases h with
  | ok | pending => rfl
  | error hfault => rw [hfault.eq]

theorem Report.Alike.eq {report report' : Report} (h : report.Alike t t report') :
    report = report' := by
  obtain ⟨hkept, houtcome⟩ := h
  rw [hkept, houtcome.eq]

namespace Cursor

theorem alike_refl (c : Cursor) : c.Alike c.token c.token c := by
  refine ⟨rfl, rfl, rfl, rfl, rfl, rfl, rfl, ?_, rfl⟩
  cases c.fault with
  | none => exact .none
  | some fault => exact .some (.same fault)

theorem Alike.eq {c c' : Cursor} (h : c.Alike t t c') : c = c' := by
  obtain ⟨htoken, htoken', hshape, hsingle, hbuffer, hcontinuation, hawaiting, hfault,
    hwriteState⟩ := h
  obtain ⟨token, shape, single, buffer, continuation, awaiting, fault, writeState⟩ := c
  obtain ⟨token', shape', single', buffer', continuation', awaiting', fault',
    writeState'⟩ := c'
  have hfaults : fault = fault' := by
    cases hfault with
    | none => rfl
    | some hfault => rw [hfault.eq]
  simp_all

theorem Alike.eq_of_rel {c c' : Option Cursor} (h : Option.Rel (Cursor.Alike t t) c c') :
    c = c' := by
  cases h with
  | none => rfl
  | some hc => rw [hc.eq]

end Cursor

/-! ## The requests of a call -/

variable [Connection σ]

def Connection.sends (connection : σ) (requests : List Envelope) : σ :=
  requests.foldl (fun connection request => (Connection.send request connection).2)
    connection

theorem Connection.sends_concat (connection : σ) (requests : List Envelope)
    (request : Envelope) :
    Connection.sends connection (requests ++ [request]) =
      (Connection.send request (Connection.sends connection requests)).2 := by
  rw [Connection.sends, List.foldl_append]
  rfl

/-- The log of a connection tells what state it is in. -/
def Logged.Follows (connection : σ) (logged : Logged σ) : Prop :=
  logged.connection = Connection.sends connection (logged.log.map Prod.fst)

theorem Logged.Follows.send {connection : σ} {logged : Logged σ}
    (h : logged.Follows connection) (request : Envelope) :
    (Connection.send request logged).2.Follows connection := by
  show (Connection.send request logged.connection).2 =
    Connection.sends connection
      ((logged.log ++ [(request, (Connection.send request logged.connection).1)]).map Prod.fst)
  rw [List.map_append, List.map_singleton, Connection.sends_concat, ← h]

/-! ## A call that is given all its answers -/

/-- A call, and the same call that is given its answers at once: so much of the log
of the first is still to come. -/
structure Resumed.Expects (log : List (Envelope × Exchange)) (connection : σ)
    (shared : Session σ) (logged : Logged σ) (view : Resumed σ) : Prop where
  follows : logged.Follows connection
  rest : ∃ rest, logged.log ++ rest = log ∧ view.known = rest.map Prod.snd
  coming : view.coming = none
  shared : view.shared = shared

theorem Resumed.expecting (t : Token) (log : List (Envelope × Exchange))
    (connection : σ) (shared : Session σ) :
    Connection.Answering t t (fun logged : Logged σ => logged.log <+: log)
      (Resumed.Expects log connection shared) := by
  refine ⟨fun request logged h => (List.prefix_append _ _).trans h, ?_⟩
  rintro logged ⟨shared, known, heard, coming⟩ ⟨hfollows, ⟨rest, hlog, hknown⟩, hcoming,
    hshared⟩ request hprefix
  have hsent := hfollows.send ⟨t, request⟩
  -- As the log is as foreseen after the request, the request is the next in it.
  subst hlog
  cases rest with
  | nil =>
      have hlength := hprefix.length_le
      simp [Connection.send] at hlength
  | cons entry rest =>
      have hentry : [(⟨t, request⟩, (Connection.send ⟨t, request⟩ logged.connection).1)] <+:
          entry :: rest := (List.prefix_append_right_inj _).1 hprefix
      obtain ⟨hentry, -⟩ := List.cons_prefix_cons.1 hentry
      subst hknown
      subst hentry
      exact ⟨Exchange.alike_refl t _, hsent, ⟨rest, by simp [Connection.send], rfl⟩, hcoming,
        hshared⟩

/-! ## A call that is given its first answers -/

/-- A call given up at a request, and the same call given its answers up to there:
either so many of them are still to come, or the request has left. -/
inductive Resumed.Reaches (earlier : List (Envelope × Exchange))
    (last : Envelope × Exchange) (connection : σ) (shared : Session σ) :
    Impatient (Logged σ) → Resumed σ → Prop where
  | onTheWay {logged : Logged σ} {rest : List (Envelope × Exchange)}
      {heard : List Exchange} : logged.Follows connection → logged.log ++ rest = earlier →
      Reaches earlier last connection shared ⟨logged, rest.length⟩
        ⟨shared, rest.map Prod.snd, heard, none⟩
  | there {logged : Logged σ} {view : Resumed σ} : logged.log = earlier ++ [last] →
      view.coming = some last.2 → view.shared = (shared.send last.1).2 →
      Reaches earlier last connection shared ⟨logged, 0⟩ view

theorem Resumed.reaching (t : Token) (earlier : List (Envelope × Exchange))
    (last : Envelope × Exchange) {connection : σ} {shared : Session σ}
    (hopen : shared.closed = false)
    (hshared : shared.connection = Connection.sends connection (earlier.map Prod.fst)) :
    Connection.Answering t t
      (fun waiting : Impatient (Logged σ) =>
        waiting.connection.log <+: earlier ++ [last])
      (Resumed.Reaches earlier last connection shared) := by
  refine ⟨fun request waiting h => ?_, fun waiting view hreaches request hprefix => ?_⟩
  · obtain ⟨logged, answers⟩ := waiting
    have hless : logged.log <+: (Connection.send ⟨t, request⟩ logged).2.log :=
      List.prefix_append _ _
    cases answers <;> exact hless.trans h
  · cases hreaches with
    | @onTheWay logged rest heard hfollows hlog =>
        have hsent := hfollows.send ⟨t, request⟩
        have hentry : logged.log ++
            [(⟨t, request⟩, (Connection.send ⟨t, request⟩ logged.connection).1)] <+:
              earlier ++ [last] := by
          cases rest <;> exact hprefix
        cases rest with
        | cons entry rest =>
            rw [← hlog, List.append_assoc, List.prefix_append_right_inj] at hentry
            obtain ⟨rfl, -⟩ := List.cons_prefix_cons.1 hentry
            exact ⟨Exchange.alike_refl t _,
              .onTheWay hsent (by rw [← hlog]; simp)⟩
        | nil =>
            rw [List.append_nil] at hlog
            rw [hlog, List.prefix_append_right_inj] at hentry
            obtain ⟨rfl, -⟩ := List.cons_prefix_cons.1 hentry
            have hsame : logged.connection = shared.connection := by
              rw [hfollows, hshared, hlog]
            simp only [Connection.send, hopen, List.map_nil, Bool.false_eq_true, if_false,
              List.length_nil]
            refine ⟨.unanswered, .there ?_ ?_ rfl⟩
            · rw [hlog]
            · rw [Session.send, hopen, hsame]
              rfl
    | @there logged view hlog hcoming hshared =>
        -- No request follows the last one.
        have hlength := hprefix.length_le
        simp [Connection.send, hlog] at hlength

namespace Cursor

theorem Move.connection_of_closed {a b : Cursor × Session σ} (hmove : Move a b)
    (hclosed : a.2.closed = true) :
    b.2.closed = true ∧ b.2.connection = a.2.connection := by
  cases hmove with
  | abandoned | unfolded | handedOut | taken | refused | aggregated | dropped =>
      exact ⟨hclosed, rfl⟩
  | lost _ _ hsend | misanswered _ _ hsend _ | received _ _ hsend _ =>
      rw [Session.send_closed hclosed] at hsend
      cases hsend
  | unreachable _ _ hsend =>
      rw [Session.send_closed hclosed] at hsend
      cases hsend
      exact ⟨hclosed, rfl⟩
  | stopped _ hsend =>
      rw [Session.send_closed (by exact hclosed)] at hsend
      cases hsend
      exact ⟨hclosed, rfl⟩
  | noted names =>
      rw [Session.noteAll_eq]
      exact ⟨hclosed, rfl⟩

end Cursor

namespace Use

variable (use : Use) (s shared : Session σ)

omit [Connection σ] in
theorem alike_refl : use.Alike (use.token s) (use.token s) use := by
  cases use with
  | run q => exact .run q
  | call c operation => exact .call operation c.alike_refl

theorem log_run (q : Query) :
    (q.run s.logged).2.connection.log = [] ∨
      ∃ entry, (q.run s.logged).2.connection.log = [entry] ∧
        (q.run (s.logged.limited 0)).2.connection.connection.log = [entry] := by
  cases hcompile : q.compile (some s.settings.defaultDatabase) with
  | error cause =>
      have huntouched := (Query.untouched_run (s := s.logged) hcompile).2
      exact .inl (congrArg Logged.log huntouched.connection)
  | ok term =>
      have hran := Query.ran_run (s := s.logged) hcompile
      have hlimited := Query.ran_run (s := s.logged.limited 0) hcompile
      cases hclosed : s.closed with
      | true => exact .inl (congrArg Logged.log (hran.refused hclosed).2.1)
      | false =>
          obtain ⟨exchange, hsend, -⟩ := hran.sent hclosed
          obtain ⟨exchange', hsend', -⟩ := hlimited.sent hclosed
          have hlog := congrArg (fun sent => sent.2.log) hsend
          have hlog' := congrArg (fun sent => sent.2.connection.log) hsend'
          exact .inr ⟨_, hlog.symm, hlog'.symm⟩

theorem log_of_closed (hclosed : s.closed = true) :
    (use.perform s.logged).2.2.connection.log = [] := by
  cases use with
  | run q =>
      cases hcompile : q.compile (some s.settings.defaultDatabase) with
      | error cause =>
          have huntouched := (Query.untouched_run (s := s.logged) hcompile).2
          exact congrArg Logged.log huntouched.connection
      | ok term =>
          have hran := Query.ran_run (s := s.logged) hcompile
          exact congrArg Logged.log (hran.refused hclosed).2.1
  | call c operation =>
      have hkeeps := (operation.moves c s.logged).keeps
        (P := fun a => a.2.closed = true ∧ a.2.connection.log = [])
        (fun a b hmove ha => by
          obtain ⟨hclosed, hconnection⟩ := hmove.connection_of_closed ha.1
          exact ⟨hclosed, hconnection ▸ ha.2⟩)
      rw [← operation.report_snd] at hkeeps
      exact (hkeeps ⟨hclosed, rfl⟩).2

/-- A call is made on a cursor in order. -/
def Settled : Use → Prop
  | run _ => True
  | call c _ => c.Settled

theorem at_request {use : Use} {s : Session σ} (huse : use.Settled)
    {earlier : List (Envelope × Exchange)} {last : Envelope × Exchange}
    (hlast : earlier ++ [last] <+: (use.perform s.logged).2.2.connection.log) :
    (use.perform (s.logged.limited earlier.length)).2.2.connection.connection.log =
      earlier ++ [last] := by
  cases use with
  | run q =>
      have hlast : earlier ++ [last] <+: (q.run s.logged).2.connection.log := hlast
      rcases log_run s q with hlog | ⟨entry, hlog, hlimited⟩
      · rw [hlog] at hlast
        simp at hlast
      · rw [hlog] at hlast
        obtain rfl : earlier = [] := by
          have hlength := hlast.length_le
          rw [List.length_append, List.length_singleton] at hlength
          exact List.eq_nil_of_length_eq_zero (by simpa using hlength)
        obtain ⟨rfl, -⟩ := List.cons_prefix_cons.1 hlast
        exact hlimited
  | call c operation =>
      have hperformed := congrArg Prod.snd (operation.report_snd c s.logged)
      have hlast : earlier ++ [last] <+:
          (operation.perform c s.logged).2.connection.log := hperformed ▸ hlast
      obtain ⟨-, left, after, hlimited, hlog, -, -⟩ := operation.at_request huse s hlast
      rw [← operation.report_snd] at hlimited
      have hafter := congrArg Prod.snd hlimited
      exact (congrArg (fun after => after.connection.connection.log) hafter).trans hlog

theorem perform_logged :
    (use.perform s.logged).1 = (use.perform s).1 ∧
      (use.perform s.logged).2.1 = (use.perform s).2.1 ∧
      (use.perform s.logged).2.2.connection.connection =
        (use.perform s).2.2.connection := by
  have hanswering : Connection.Answering (use.token s) (use.token s) (fun _ => True)
      (fun (logged : Logged σ) connection => logged.connection = connection) := by
    refine ⟨fun _ _ _ => trivial, ?_⟩
    rintro logged connection rfl request -
    exact ⟨Exchange.alike_refl _ _, rfl⟩
  obtain ⟨hreport, hcursor, hsession⟩ := (use.alike_refl s).perform hanswering
    (s := s.logged) ⟨rfl, rfl⟩ rfl (use.token_over ..) rfl trivial
  exact ⟨hreport.eq, Cursor.Alike.eq_of_rel hcursor, hsession.connection⟩

theorem perform_expected (heard : List Exchange) :
    let call := use.perform s.logged
    let view : Session (Resumed σ) :=
      (s.over ()).over ⟨shared, call.2.2.connection.log.map Prod.snd, heard, none⟩
    (use.perform view).1 = call.1 ∧ (use.perform view).2.1 = call.2.1 ∧
      (use.perform view).2.2.connection.coming = none ∧
      (use.perform view).2.2.connection.shared = shared ∧
      call.2.2.connection.Follows s.connection := by
  intro call view
  have hviews : s.logged.Alike
      (Resumed.Expects call.2.2.connection.log s.connection shared) view :=
    ⟨rfl, rfl, ⟨_, rfl, rfl⟩, rfl, rfl⟩
  obtain ⟨hreport, hcursor, hsession⟩ := (use.alike_refl s).perform
    (Resumed.expecting (use.token s) _ s.connection shared) hviews rfl
    (use.token_over ..) (use.token_over ..) List.prefix_rfl
  exact ⟨hreport.eq.symm, (Cursor.Alike.eq_of_rel hcursor).symm, hsession.connection.coming,
    hsession.connection.shared, hsession.connection.follows⟩

variable {use s shared}

theorem perform_reached (huse : use.Settled) {earlier : List (Envelope × Exchange)}
    {last : Envelope × Exchange}
    (hlast : earlier ++ [last] <+: (use.perform s.logged).2.2.connection.log)
    (hopen : shared.closed = false)
    (hshared : shared.connection = Connection.sends s.connection (earlier.map Prod.fst))
    (heard : List Exchange) :
    let view : Session (Resumed σ) :=
      (s.over ()).over ⟨shared, earlier.map Prod.snd, heard, none⟩
    (use.perform view).2.2.connection.coming = some last.2 ∧
      (use.perform view).2.2.connection.shared = (shared.send last.1).2 := by
  intro view
  have hviews : (s.logged.limited earlier.length).Alike
      (Resumed.Reaches earlier last s.connection shared) view :=
    ⟨rfl, .onTheWay rfl rfl⟩
  have hlog := at_request huse hlast
  have hkept : (use.perform (s.logged.limited earlier.length)).2.2.connection.connection.log
      <+: earlier ++ [last] := by
    rw [hlog]
  obtain ⟨-, -, hsession⟩ := (use.alike_refl s).perform
    (Resumed.reaching (use.token s) earlier last hopen hshared) hviews rfl
    (use.token_over ..) (use.token_over ..) hkept
  have hreaches := hsession.connection
  generalize (use.perform (s.logged.limited earlier.length)).2.2.connection = waiting
    at hreaches hlog
  generalize (use.perform view).2.2.connection = seen at hreaches ⊢
  cases hreaches with
  | onTheWay hfollows hrest =>
      have hless := congrArg List.length hrest
      have hmore := congrArg List.length hlog
      simp only [List.length_append, List.length_singleton] at hless hmore
      omega
  | there hreached hcoming hsent => exact ⟨hcoming, hsent⟩

end Use

/-! ## The steps of a call -/

section

variable {use : Use} {s shared : Session σ}

/-- Once it has all its answers, a call reports what it reports without a break. -/
theorem Task.proceed_expected (task : Task) (use : Use) (s shared : Session σ)
    (heard : List Exchange) :
    let call := use.perform s.logged
    let went := task.proceed use (s.over ()) heard
      (call.2.2.connection.log.map Prod.snd) shared
    went.1.waiting = none ∧ went.1.cursor = call.2.1 ∧
      went.1.reports = task.reports ++ [call.1] ∧ went.2.connection.shared = shared := by
  intro call went
  obtain ⟨hreport, hcursor, hcoming, hshared, -⟩ := use.perform_expected s shared heard
  let view : Session (Resumed σ) :=
    (s.over ()).over ⟨shared, call.2.2.connection.log.map Prod.snd, heard, none⟩
  refine ⟨?_, hcursor, ?_, hshared⟩
  · show Option.map _ (use.perform view).2.2.connection.coming = none
    rw [hcoming]
    rfl
  · show task.reports ++ (if (use.perform view).2.2.connection.coming.isNone then
      [(use.perform view).1] else []) = _
    rw [hcoming, hreport]
    rfl

/-- With some of its answers a call sends its next request and waits. -/
theorem Task.proceed_reached (task : Task) (huse : use.Settled)
    {earlier : List (Envelope × Exchange)} {last : Envelope × Exchange}
    (hlast : earlier ++ [last] <+: (use.perform s.logged).2.2.connection.log)
    (hopen : shared.closed = false)
    (hshared : shared.connection = Connection.sends s.connection (earlier.map Prod.fst))
    (heard : List Exchange) :
    let went := task.proceed use (s.over ()) heard (earlier.map Prod.snd) shared
    went.1.waiting = some ⟨use, s.over (), heard, earlier.map Prod.snd, last.2⟩ ∧
      went.1.reports = task.reports ∧
      went.2.connection.shared = (shared.send last.1).2 := by
  intro went
  obtain ⟨hcoming, hsent⟩ := Use.perform_reached huse hlast hopen hshared heard
  let view : Session (Resumed σ) :=
    (s.over ()).over ⟨shared, earlier.map Prod.snd, heard, none⟩
  refine ⟨?_, ?_, hsent⟩
  · show Option.map _ (use.perform view).2.2.connection.coming = _
    rw [hcoming]
    rfl
  · show task.reports ++ (if (use.perform view).2.2.connection.coming.isNone then
      [(use.perform view).1] else []) = _
    rw [hcoming]
    exact List.append_nil _

end

namespace System

variable {S : System ι σ} {i : ι} {use : Use} {s shared : Session σ}
  {heard : List Exchange} {reports : List Report}
  {earlier : List (Envelope × Exchange)} {last : Envelope × Exchange}

structure Got (S : System ι σ) (i : ι) (went : Task × Session (Resumed σ)) : Prop where
  waiting : (S.tasks i).waiting = went.1.waiting
  cursor : (S.tasks i).cursor = went.1.cursor
  reports : (S.tasks i).reports = went.1.reports
  closed : S.session.closed = went.2.connection.shared.closed
  connection : S.session.connection = went.2.connection.shared.connection

/-- A call that was begun in the session `s` waits for the answer to its last
request.  Since then nothing but its requests has left. -/
structure Awaits (S : System ι σ) (i : ι) (use : Use) (s : Session σ)
    (reports : List Report) (earlier : List (Envelope × Exchange))
    (last : Envelope × Exchange) : Prop where
  waiting : ∃ heard, (S.tasks i).waiting =
    some ⟨use, s.over (), heard, earlier.map Prod.snd, last.2⟩
  reports : (S.tasks i).reports = reports
  opened : S.session.closed = false
  connection : S.session.connection =
    Connection.sends s.connection ((earlier ++ [last]).map Prod.fst)

/-- A call has ended as it does without a break. -/
structure Ended (S : System ι σ) (i : ι) (use : Use) (s : Session σ)
    (reports : List Report) : Prop where
  waiting : (S.tasks i).waiting = none
  cursor : (S.tasks i).cursor = (use.perform s).2.1
  reports : (S.tasks i).reports = reports ++ [(use.perform s).1]
  connection : S.session.connection = (use.perform s).2.2.connection

theorem Got.ended {task : Task} {known : List Exchange}
    (h : S.Got i (task.proceed use (s.over ()) heard known shared))
    (hknown : known = (use.perform s.logged).2.2.connection.log.map Prod.snd)
    (hshared : shared.connection = Connection.sends s.connection
      ((use.perform s.logged).2.2.connection.log.map Prod.fst)) :
    Ended S i use s task.reports := by
  subst hknown
  obtain ⟨hreport, hcursor, hconnection⟩ := use.perform_logged s
  obtain ⟨-, -, -, -, hfollows⟩ := use.perform_expected s shared heard
  obtain ⟨hwaiting, hleft, hreported, hsame⟩ :=
    task.proceed_expected use s shared heard
  refine ⟨?_, ?_, ?_, ?_⟩
  · rw [h.waiting, hwaiting]
  · rw [h.cursor, hleft, hcursor]
  · rw [h.reports, hreported, hreport]
  · rw [h.connection, hsame, hshared, ← hfollows, hconnection]

theorem Got.awaits {task : Task} {known : List Exchange}
    (h : S.Got i (task.proceed use (s.over ()) heard known shared))
    (hknown : known = earlier.map Prod.snd) (huse : use.Settled)
    (hlast : earlier ++ [last] <+: (use.perform s.logged).2.2.connection.log)
    (hopen : shared.closed = false)
    (hshared : shared.connection = Connection.sends s.connection (earlier.map Prod.fst)) :
    Awaits S i use s task.reports earlier last := by
  subst hknown
  obtain ⟨hwaiting, hreported, hsent⟩ :=
    task.proceed_reached huse hlast hopen hshared heard
  refine ⟨⟨heard, ?_⟩, ?_, ?_, ?_⟩
  · rw [h.waiting, hwaiting]
  · rw [h.reports, hreported]
  · rw [h.closed, hsent, Session.send, hopen]
    exact hopen
  · rw [h.connection, hsent, Session.send, hopen, List.map_append, List.map_singleton,
      Connection.sends_concat, ← hshared]
    rfl

variable [DecidableEq ι] {queries : ι → Query}

omit [Connection σ] in
theorem got_put (S : System ι σ) (i : ι) (went : Task × Session (Resumed σ)) :
    (S.put i went.1 went.2.connection.shared).Got i went := by
  refine ⟨?_, ?_, ?_, rfl, rfl⟩ <;> rw [put_self]

theorem got_answer (queries : ι → Query) {waiting : Waiting}
    (hwaiting : (S.tasks i).waiting = some waiting) (hanswered : waiting.coming ≠ .unanswered) :
    (S.step queries i .answer).Got i
      ((S.tasks i).proceed waiting.use waiting.origin waiting.heard
        (waiting.known ++ [waiting.coming]) S.session) := by
  obtain ⟨use, origin, heard, known, coming⟩ := waiting
  have hgot := got_put S i
    ((S.tasks i).proceed use origin heard (known ++ [coming]) S.session)
  rw [step, hwaiting]
  cases coming with
  | unanswered => exact absurd rfl hanswered
  | reply | failed => exact hgot

theorem Awaits.run {later : List (Envelope × Exchange)}
    (h : Awaits S i use s reports earlier last) (huse : use.Settled)
    (hlog : (use.perform s.logged).2.2.connection.log = earlier ++ last :: later)
    (hanswered : ∀ entry ∈ last :: later, entry.2 ≠ .unanswered) :
    Ended (S.run queries (List.replicate (later.length + 1) (i, .answer))) i use s
      reports := by
  induction later generalizing S earlier last with
  | nil =>
      obtain ⟨heard, hwaiting⟩ := h.waiting
      have hgot := got_answer queries hwaiting (hanswered last (by simp))
      have hended : Ended (S.step queries i .answer) i use s (S.tasks i).reports :=
        hgot.ended (by simp [hlog]) (hlog ▸ h.connection)
      exact h.reports ▸ hended
  | cons next later ih =>
      obtain ⟨hlast, hlater⟩ := List.forall_mem_cons.1 hanswered
      obtain ⟨heard, hwaiting⟩ := h.waiting
      have hnext : earlier ++ [last] ++ [next] <+:
          (use.perform s.logged).2.2.connection.log := ⟨later, by simp [hlog]⟩
      have hgot := got_answer queries hwaiting hlast
      have hawaits : Awaits (S.step queries i .answer) i use s (S.tasks i).reports
          (earlier ++ [last]) next :=
        hgot.awaits (by simp) huse hnext h.opened h.connection
      exact ih (h.reports ▸ hawaits) (by simp [hlog]) hlater

/-- A call that has begun ends as it does without a break, if all its requests are
answered before anything else happens. -/
theorem Got.run {task : Task}
    (h : S.Got i (task.proceed use (s.over ()) heard [] s)) (huse : use.Settled)
    (hanswered : ∀ entry ∈ (use.perform s.logged).2.2.connection.log,
      entry.2 ≠ .unanswered) :
    Ended (S.run queries (List.replicate
      (use.perform s.logged).2.2.connection.log.length (i, .answer))) i use s
      task.reports := by
  cases hlog : (use.perform s.logged).2.2.connection.log with
  | nil => exact h.ended (by rw [hlog]; rfl) (by rw [hlog]; rfl)
  | cons first later =>
      have hopen : s.closed = false := by
        rw [← Bool.not_eq_true]
        intro hclosed
        cases hlog.symm.trans (use.log_of_closed s hclosed)
      have hawaits : Awaits S i use s task.reports [] first :=
        h.awaits rfl huse ⟨later, hlog.symm⟩ hopen rfl
      exact hawaits.run huse hlog (hlog ▸ hanswered)

/-- A call that is made when no other waits, and whose requests are all answered
before anything else happens, does what it does without a break. -/
theorem call_uninterrupted (queries : ι → Query) (S : System ι σ) {i : ι} {c : Cursor}
    (hidle : (S.tasks i).waiting = none) (hcursor : (S.tasks i).cursor = some c)
    (hc : c.Settled) (operation : Cursor.Operation) :
    let log := (operation.report c S.session.logged).2.2.connection.log
    (∀ entry ∈ log, entry.2 ≠ .unanswered) →
      Ended (S.run queries ((i, .call operation) :: List.replicate log.length (i, .answer)))
        i (.call c operation) S.session (S.tasks i).reports := by
  intro log hanswered
  let task : Task := { S.tasks i with calls := (S.tasks i).calls ++ [operation] }
  have hgot : (S.step queries i (.call operation)).Got i
      (task.proceed (.call c operation) (S.session.over ()) task.heard [] S.session) := by
    rw [step, hidle, hcursor]
    exact got_put S i (task.proceed (.call c operation) (S.session.over ()) task.heard []
      S.session)
  exact hgot.run hc hanswered

/-- So does the run of a query. -/
theorem run_uninterrupted (queries : ι → Query) (S : System ι σ) {i : ι}
    (hunused : (S.tasks i).token = none) :
    let log := ((queries i).run S.session.logged).2.connection.log
    (∀ entry ∈ log, entry.2 ≠ .unanswered) →
      Ended (S.run queries ((i, .run) :: List.replicate log.length (i, .answer)))
        i (.run (queries i)) S.session (S.tasks i).reports := by
  intro log hanswered
  have hgot : (S.step queries i .run).Got i ((S.tasks i).proceed (.run (queries i))
      (S.session.over ()) [] [] S.session) := by
    rw [step, hunused]
    generalize (S.tasks i).proceed (.run (queries i)) (S.session.over ()) [] []
      S.session = went
    simp only [Option.isSome_none, Bool.false_eq_true, if_false]
    refine ⟨?_, ?_, ?_, rfl, rfl⟩ <;> rw [put_self]
  exact hgot.run trivial hanswered

end System

end DocumentQuery
