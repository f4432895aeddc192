import DocumentQuery.Proofs.GivenUpCall
import DocumentQuery.Proofs.OverlappingCalls

/-!
# Closed sessions

Whatever was done with a session and the queries on it, and whichever calls still
wait, once the session is closed its connection is left alone.  Cursors go on with
what they have received.  One that would have to ask for more fails for good, and
one that says that there is nothing more has seen the end of the result, or it was
closed itself.
-/

namespace DocumentQuery

variable {ι σ : Type}

/-! ## Reading to the end in a closed session -/

namespace Cursor

variable [Connection σ]

theorem next_closed {c : Cursor} {s : Session σ} (hclosed : s.closed = true)
    (hc : c.Ready) (hstored : c.stored = []) {continuation : String}
    (hcontinuation : c.continuation = some continuation) :
    c.next s = c.unfoldSingle.fail s (.connection .sessionClosed) := by
  rw [next_of_stored_nil hc hstored hcontinuation, Cursor.fetch,
    Session.send_closed hclosed]
  rfl

theorem drain_closed {c : Cursor} {s : Session σ} (hclosed : s.closed = true)
    (hc : c.Ready) :
    c.drain s = (c.stored,
      match c.continuation with
      | none => (.ok (), { c.unfoldSingle with buffer := [] }, s)
      | some _ =>
        ({ c.unfoldSingle with buffer := [] } : Cursor).fail s
          (.connection .sessionClosed)) := by
  generalize hstored : c.stored = stored
  induction stored generalizing c with
  | nil =>
      have hempty : { c.unfoldSingle with buffer := [] } = c.unfoldSingle := by
        rw [← hstored]
        rfl
      rw [drain_eq, hempty]
      cases hcontinuation : c.continuation with
      | none => rw [next_of_exhausted hc hstored hcontinuation]
      | some continuation =>
          rw [next_closed hclosed hc hstored hcontinuation]
          rfl
  | cons datum rest ih =>
      have hready := hc.unfoldSingle
      have hsingle : ({ c.unfoldSingle with buffer := rest } : Cursor).single = none :=
        unfoldSingle_single c
      have hlater := ih (c := { c.unfoldSingle with buffer := rest })
        ⟨hready.awaiting, hready.fault⟩ (stored_eq_buffer hsingle)
      have hunfolded : ({ c.unfoldSingle with buffer := rest } : Cursor).unfoldSingle =
          { c.unfoldSingle with buffer := rest } := by
        rw [unfoldSingle, hsingle]
      rw [hunfolded] at hlater
      have hcontinuation := unfoldSingle_continuation c
      rw [drain_eq, next_of_stored_cons hc hstored]
      dsimp only at hlater ⊢
      rw [hlater, hcontinuation]

theorem drain_abandoned {c : Cursor} (hawaiting : c.awaiting = true) (s : Session σ) :
    c.drain s = ([], ({ c with awaiting := false } : Cursor).fail s
      (.connection (.fetchAbandoned c.token))) := by
  rw [drain_eq, Cursor.next, blocked?, if_pos hawaiting]
  rfl

end Cursor

/-! ## Watching a connection -/

inductive Contact where
  | request (request : Envelope)
  | closing

structure Watched (σ : Type) where
  connection : σ
  contacts : List Contact := []

instance [Connection σ] : Connection (Watched σ) where
  send request watched :=
    let (exchange, connection) := Connection.send request watched.connection
    (exchange, ⟨connection, watched.contacts ++ [.request request]⟩)
  close watched :=
    let (result, connection) := Connection.close watched.connection
    (result, ⟨connection, watched.contacts ++ [.closing]⟩)
  repliesLeft watched := Connection.repliesLeft watched.connection
  repliesLeft_send request watched bytes after h := by
    obtain ⟨hreply, rfl⟩ := Prod.mk.inj h
    exact Connection.repliesLeft_send request watched.connection bytes _
      (Prod.ext hreply rfl)

/-! ## What a cursor has heard -/

namespace Cursor

variable [Connection σ]

/-- An answer that is given is heard; a request that is only sent on brings no
reply. -/
theorem heard_send {s s' : Session (Resumed σ)} {request : Envelope}
    {exchange : Exchange} (h : s.send request = (exchange, s')) :
    s'.connection.heard = s.connection.heard ++ [exchange] ∨
      exchange.reply? = none ∧ s'.connection.heard = s.connection.heard := by
  unfold Session.send at h
  split at h
  · cases h
    exact .inr ⟨rfl, rfl⟩
  · obtain ⟨⟨shared, known, heard, coming⟩, settings, nextToken, closed, events⟩ := s
    cases known with
    | cons answer known =>
        cases h
        exact .inl rfl
    | nil =>
        refine .inr ?_
        dsimp only [Connection.send, Session.note] at h
        split at h
        · cases h
          exact ⟨rfl, rfl⟩
        · cases h
          exact ⟨rfl, rfl⟩

def repliesHeard (heard : List Exchange) : List Bytes := heard.filterMap Exchange.reply?

theorem repliesHeard_send {s s' : Session (Resumed σ)} {request : Envelope}
    {exchange : Exchange} (h : s.send request = (exchange, s')) :
    repliesHeard s'.connection.heard =
      repliesHeard s.connection.heard ++ exchange.reply?.toList := by
  rcases heard_send h with hheard | ⟨hnone, hheard⟩
  · rw [hheard, repliesHeard, List.filterMap_append, repliesHeard]
    cases hreply : exchange.reply? <;> simp [hreply]
  · rw [hheard, hnone]
    exact (List.append_nil _).symm

/-- If there is nothing to ask for any more, the last reply has said so. -/
def Ended (c : Cursor) (heard : List Exchange) : Prop :=
  c.Ready → c.continuation = none → Terminated c.token (repliesHeard heard)

theorem Move.ended {a b : Cursor × Session (Resumed σ)} (hmove : Move a b)
    (hstopped : b.2.stopped = a.2.stopped) (ha : a.1.Ended a.2.connection.heard) :
    b.1.Ended b.2.connection.heard := by
  cases hmove with
  | abandoned | unreachable | misanswered | refused =>
      exact fun hready => absurd hready (not_ready_failed _ _)
  | unfolded hready =>
      intro _ hnone
      rw [unfoldSingle_continuation] at hnone
      rw [unfoldSingle_token]
      exact ha hready hnone
  | handedOut hready | taken hready | aggregated _ hready => exact fun _ => ha hready
  | lost =>
      intro hready
      cases hready.awaiting
  | @received c s s' _ bytes items more hdry _ hsend hbatch =>
      -- The only move after which the continuation may be gone without a fault.
      intro _ hnone
      have hheard : repliesHeard s'.connection.heard =
          repliesHeard s.connection.heard ++ [bytes] := repliesHeard_send hsend
      have hdecode : Reply.decode bytes c.token = .ok (.batch items none) :=
        hnone ▸ decode_of_batchOf hbatch
      have hterminated : Terminated c.token (repliesHeard s'.connection.heard) :=
        hheard ▸ .of_batch _ hdecode
      exact hterminated
  | noted names =>
      rw [Session.noteAll_eq]
      exact ha
  | dropped => exact fun hready => ha ⟨hready.awaiting, hready.fault⟩
  | @stopped c s _ _ _ _ hsend =>
      have hsent := (s.note (.stopping c.token)).stopped_send ⟨c.token, .stop⟩
      rw [hsend] at hsent
      exact (List.cons_ne_self _ _ (hsent.symm.trans hstopped)).elim

def Drained (c : Cursor) : Prop := c.awaiting = true → c.stored = []

omit [Connection σ] in
theorem Ready.drained {c : Cursor} (hc : c.Ready) : c.Drained := by
  intro hawaiting
  cases hc.awaiting.symm.trans hawaiting

theorem Move.drained {a b : Cursor × Session σ} (hmove : Move a b)
    (ha : a.1.Drained) : b.1.Drained := by
  cases hmove with
  | abandoned =>
      intro hawaiting
      cases hawaiting
  | unfolded hready => exact hready.unfoldSingle.drained
  | handedOut hready | taken hready | refused _ hready | aggregated _ hready =>
      exact fun hawaiting => absurd hawaiting (by simp [failed, hready.awaiting])
  | @lost c _ _ _ hdry =>
      intro _
      have hstored : c.stored = [] := (stored_eq_buffer hdry.single).trans hdry.buffer
      have hsame : ({ c with awaiting := true } : Cursor).stored = c.stored :=
        stored_congr rfl rfl
      exact hsame.trans hstored
  | unreachable hdry | misanswered hdry | received hdry =>
      exact fun hawaiting => absurd hawaiting (by simp [failed, receive, hdry.awaiting])
  | noted => exact ha
  | dropped | stopped => exact fun _ => rfl

structure Kept (c : Cursor) (heard : List Exchange) (calls : List Operation) : Prop where
  settled : c.Settled
  drained : c.Drained
  ended : c.Ended heard ∨ .close ∈ calls

omit [Connection σ] in
theorem Kept.later {c : Cursor} {heard : List Exchange} {calls : List Operation}
    (h : c.Kept heard calls) (operation : Operation) :
    c.Kept heard (calls ++ [operation]) :=
  ⟨h.settled, h.drained, h.ended.imp_right (List.mem_append_left _)⟩

theorem Kept.perform {c : Cursor} {s : Session (Resumed σ)} {calls : List Operation}
    (h : c.Kept s.connection.heard calls) {operation : Operation}
    (hcall : operation ∈ calls) :
    (operation.perform c s).1.Kept (operation.perform c s).2.connection.heard calls := by
  refine ⟨operation.settled h.settled s,
    (operation.moves c s).keeps (P := fun a => a.1.Drained) (fun _ _ => Move.drained)
      h.drained, ?_⟩
  by_cases hclose : operation = .close
  · exact .inr (hclose ▸ hcall)
  · exact h.ended.imp_left ((operation.reads hclose c s).keeps
      (P := fun a => a.1.Ended a.2.connection.heard) (fun _ _ => Move.ended))

end Cursor

/-! ## What the cursors in a system have heard -/

section

variable [Connection σ]

/-- A run has heard nothing before, and a call is made on a cursor as the calls
before it have left it. -/
def Use.Begun (heard : List Exchange) (calls : List Cursor.Operation) : Use → Prop
  | .run _ => heard = []
  | .call c operation => c.Kept heard calls ∧ operation ∈ calls

theorem Query.kept_run {q : Query} {s s' : Session (Resumed σ)} {c : Cursor}
    (hheard : s.connection.heard = []) (h : q.run s = (.ok c, s'))
    (calls : List Cursor.Operation) : c.Kept s'.connection.heard calls := by
  obtain ⟨before, after, noted, term, bytes, reply, hbefore, hsend, hdecode, hreply,
    hafter, rfl⟩ := Query.run_ok h
  have hready := Cursor.start_ready noted s.nextToken q.shape hreply
  refine ⟨hready.settled, hready.drained, .inl fun _ hnone => ?_⟩
  have hsaid : Cursor.repliesHeard s'.connection.heard = [bytes] := by
    rw [hafter, Cursor.repliesHeard_send hsend, hbefore, hheard]
    rfl
  rw [Cursor.start_continuation] at hnone
  rw [Cursor.start_token, hsaid]
  cases reply with
  | failure report => exact absurd rfl (hreply report)
  | value datum => exact .value (Reply.decode_eq_value_iff.1 hdecode)
  | batch items more =>
      cases hnone
      exact .of_batch [] hdecode

theorem Use.Begun.perform {use : Use} {s : Session (Resumed σ)}
    {calls : List Cursor.Operation} (h : use.Begun s.connection.heard calls) {c : Cursor}
    (hc : (use.perform s).2.1 = some c) :
    c.Kept (use.perform s).2.2.connection.heard calls := by
  cases use with
  | run q =>
      rcases hrun : q.run s with ⟨c' | fault | _, s'⟩
      · rw [Use.perform, hrun] at hc ⊢
        cases hc
        exact Query.kept_run h hrun calls
      · rw [Use.perform, hrun] at hc
        cases hc
      · rw [Use.perform, hrun] at hc
        cases hc
  | call c' operation =>
      have hkept := h.1.perform h.2
      rw [← operation.report_snd] at hkept
      cases hc
      exact hkept

/-- The cursor of a query is as its calls have left it, and the one of them that
waits was begun so. -/
structure Task.Kept (task : Task) : Prop where
  cursor : ∀ c, task.cursor = some c → c.Kept task.heard task.calls
  waiting : ∀ waiting, task.waiting = some waiting →
    waiting.use.Begun waiting.heard task.calls

theorem Task.kept_proceed (task : Task) {use : Use} {heard : List Exchange}
    (hbegun : use.Begun heard task.calls) (origin : Session Unit) (known : List Exchange)
    (shared : Session σ) : (task.proceed use origin heard known shared).1.Kept := by
  constructor
  · intro c hc
    exact Use.Begun.perform (s := origin.over ⟨shared, known, heard, none⟩) hbegun hc
  · intro waiting hwaiting
    obtain ⟨coming, -, rfl⟩ := Option.map_eq_some_iff.1 hwaiting
    exact hbegun

end

/-! ## Histories -/

/-- A property of a session that holds whatever is done with the session. -/
structure Session.Invariant [Connection σ] (P : Session σ → Prop) : Prop where
  send : ∀ s request, P s → P (s.send request).2
  take : ∀ (s : Session σ) token, P s → P { s with nextToken := token }
  change : ∀ s name value, P s → P (s.changeSetting name value).2
  close : ∀ s, P s → P s.close.2

/-- What can happen to a session and the queries on it. -/
inductive Act (ι : Type) : Type 1 where
  | task (i : ι) (step : TaskStep)
  | change (name : String) (value : Datum)
  | close

namespace System

variable [Connection σ] [DecidableEq ι]

def act (queries : ι → Query) (S : System ι σ) : Act ι → System ι σ
  | .task i step => S.step queries i step
  | .change name value => { S with session := (S.session.changeSetting name value).2 }
  | .close => { S with session := S.session.close.2 }

def history (queries : ι → Query) (S : System ι σ) (acts : List (Act ι)) : System ι σ :=
  acts.foldl (act queries) S

section

variable {queries : ι → Query} {S : System ι σ}

def Kept (S : System ι σ) : Prop := ∀ i, (S.tasks i).Kept

omit [Connection σ] in
theorem Kept.put (h : S.Kept) (i : ι) {task : Task} (htask : task.Kept)
    (session : Session σ) : (S.put i task session).Kept := by
  intro j
  by_cases hj : j = i
  · rw [hj, put_self]
    exact htask
  · rw [put_of_ne hj]
    exact h j

theorem Kept.step (h : S.Kept) (i : ι) (step : TaskStep) :
    (S.step queries i step).Kept := by
  cases step with
  | run =>
      rw [System.step]
      split
      · exact h
      · have hbegun : Use.Begun [] (S.tasks i).calls (.run (queries i)) := rfl
        have hkept := (S.tasks i).kept_proceed hbegun (S.session.over ()) [] S.session
        rcases hwent : (S.tasks i).proceed (.run (queries i)) (S.session.over ()) [] []
          S.session with ⟨task, view⟩
        rw [hwent] at hkept
        refine h.put i ?_ _
        exact ⟨hkept.cursor, hkept.waiting⟩
  | call operation =>
      rw [System.step]
      split
      · next c hwaiting hcursor =>
        have hbegun : Use.Begun (S.tasks i).heard ((S.tasks i).calls ++ [operation])
            (.call c operation) :=
          ⟨((h i).cursor c hcursor).later operation, by simp⟩
        let task : Task := { S.tasks i with calls := (S.tasks i).calls ++ [operation] }
        exact h.put i (task.kept_proceed hbegun _ _ _) _
      · exact h
  | answer =>
      rw [System.step]
      split
      · exact h
      · exact h
      · next hwaiting =>
        exact h.put i (Task.kept_proceed _ ((h i).waiting _ hwaiting) _ _ _) _
  | drop =>
      have hdropped : ({ S.tasks i with waiting := none } : Task).Kept :=
        ⟨(h i).cursor, fun _ hnone => (by cases hnone)⟩
      exact h.put i hdropped _

theorem Kept.act (h : S.Kept) (act : Act ι) : (S.act queries act).Kept := by
  cases act with
  | task i step => exact h.step i step
  | change name value => exact h
  | close => exact h

theorem Kept.history (h : S.Kept) (acts : List (Act ι)) :
    (S.history queries acts).Kept := by
  induction acts generalizing S with
  | nil => exact h
  | cons act later ih => exact ih (h.act act)

omit [Connection σ] [DecidableEq ι] in
theorem kept_start (connection : σ) (settings : Settings) :
    (start connection settings : System ι σ).Kept :=
  fun _ => ⟨fun _ hnone => (by cases hnone), fun _ hnone => (by cases hnone)⟩

end

/-! ## What all calls keep -/

section

variable {queries : ι → Query} {S : System ι σ} {P : Session σ → Prop}

omit [DecidableEq ι] in
theorem keeps_proceed (hP : Session.Invariant P) (h : P S.session) (task : Task)
    (use : Use) (origin : Session Unit) (heard known : List Exchange) :
    P (task.proceed use origin heard known S.session).2.connection.shared := by
  refine use.keeps_connection (P := fun view : Resumed σ => P view.shared)
    (fun request view hview => ?_) rfl h
  obtain ⟨shared, known, heard, coming⟩ := view
  cases known with
  | cons answer known => exact hview
  | nil =>
      dsimp only [Connection.send]
      split
      · exact hview
      · exact hP.send shared _ hview

theorem keeps_step (hP : Session.Invariant P) (h : P S.session) (i : ι)
    (step : TaskStep) : P (S.step queries i step).session := by
  have hproceed := keeps_proceed hP h
  cases step with
  | run =>
      rw [System.step]
      split
      · exact h
      · have hwent := hproceed (S.tasks i) (.run (queries i)) (S.session.over ()) [] []
        rcases hview : (S.tasks i).proceed (.run (queries i)) (S.session.over ()) [] []
          S.session with ⟨task, view⟩
        rw [hview] at hwent
        exact hP.take _ _ hwent
  | call operation =>
      rw [System.step]
      split
      · next c hwaiting hcursor =>
        let task : Task := { S.tasks i with calls := (S.tasks i).calls ++ [operation] }
        exact hproceed task (.call c operation) (S.session.over ()) task.heard []
      · exact h
  | answer =>
      rw [System.step]
      split
      · exact h
      · exact h
      · next use origin heard known coming _ _ =>
        exact hproceed (S.tasks i) use origin heard (known ++ [coming])
  | drop => exact h

theorem keeps_act (hP : Session.Invariant P) (h : P S.session) (act : Act ι) :
    P (S.act queries act).session := by
  cases act with
  | task i step => exact keeps_step hP h i step
  | change name value => exact hP.change _ name value h
  | close => exact hP.close _ h

theorem keeps_history (hP : Session.Invariant P) (h : P S.session)
    (acts : List (Act ι)) : P (S.history queries acts).session := by
  induction acts generalizing S with
  | nil => exact h
  | cons act later ih => exact ih (keeps_act hP h act)

end

end System

/-! ## Closing -/

namespace Session

variable [Connection σ]

def Sealed (connection : σ) (s : Session σ) : Prop :=
  s.closed = true ∧ s.connection = connection

theorem closed_close (s : Session σ) : s.close.2.closed = true := by
  unfold Session.close
  split
  · assumption
  · rfl

theorem invariant_sealed (connection : σ) : Invariant (Sealed connection) where
  send s request h := by
    rw [send_closed h.1]
    exact h
  take _ _ h := h
  change s name value h := by
    unfold changeSetting
    split <;> exact h
  close s h := by
    rw [Session.close, if_pos h.1]
    exact h

/-- Requests have reached the connection as long as the session was open, and its
closing if it is not open any more. -/
def Told (s : Session (Watched σ)) : Prop :=
  ∃ earlier : List Envelope, s.connection.contacts =
    earlier.map .request ++ if s.closed then [.closing] else []

theorem invariant_told : Invariant (Told (σ := σ)) where
  send s request h := by
    obtain ⟨earlier, hcontacts⟩ := h
    cases hclosed : s.closed with
    | true =>
        rw [send_closed hclosed]
        exact ⟨earlier, hcontacts⟩
    | false =>
        rw [hclosed] at hcontacts
        refine ⟨earlier ++ [request], ?_⟩
        rw [send, hclosed]
        simp [Connection.send, note, hclosed, hcontacts]
  take _ _ h := h
  change s name value h := by
    unfold changeSetting
    split <;> exact h
  close s h := by
    obtain ⟨earlier, hcontacts⟩ := h
    refine ⟨earlier, ?_⟩
    cases hclosed : s.closed with
    | true =>
        rw [hclosed] at hcontacts
        simp [Session.close, hclosed, hcontacts]
    | false =>
        rw [hclosed] at hcontacts
        simp [Session.close, Connection.close, note, hclosed, hcontacts]

end Session

/-- What comes of reading a cursor to its end in a closed session. -/
structure Cursor.RunsDry [Connection σ] (c : Cursor) (s : Session σ)
    (heard : List Exchange) (calls : List Operation) : Prop where
  elements : (c.drain s).1 = c.stored
  connection : (c.drain s).2.2.2.connection = s.connection
  ends : (c.drain s).2.1 ≠ .pending
  fails : ∀ more, c.continuation = some more → ∃ cause : ConnectionFault,
    (c.drain s).2.1 = .error (.connection cause) ∧
      ∀ (later : List (Session σ × Operation)) (s' : Session σ),
        ((c.drain s).2.2.1.after later).next s' =
          (.error (.connection cause), (c.drain s).2.2.1.after later, s')
  complete : (c.drain s).2.1 = .ok () →
    Terminated c.token (repliesHeard heard) ∨ .close ∈ calls

namespace Cursor

variable [Connection σ]

theorem next_failed {c : Cursor} (hawaiting : c.awaiting = false) (fault : Fault)
    (later : List (Session σ × Operation)) (s : Session σ) :
    ((c.failed fault).after later).next s =
      (.error fault, (c.failed fault).after later, s) :=
  have hsettled : (c.failed fault).Settled := .failed hawaiting fault
  (hsettled.after later).next (fault_after hsettled rfl later) s

theorem Kept.runsDry {c : Cursor} {heard : List Exchange} {calls : List Operation}
    (h : c.Kept heard calls) (hfault : c.fault = none) {s : Session σ}
    (hclosed : s.closed = true) : c.RunsDry s heard calls := by
  cases hawaiting : c.awaiting with
  | true =>
      have hdrain := drain_abandoned hawaiting s
      rw [fail_eq] at hdrain
      constructor <;> rw [hdrain]
      · exact (h.drained hawaiting).symm
      · rfl
      · simp
      · exact fun _ _ => ⟨_, rfl, next_failed rfl _⟩
      · intro hok
        cases hok
  | false =>
      have hready : c.Ready := ⟨hawaiting, hfault⟩
      have hdrain := drain_closed hclosed hready
      cases hcontinuation : c.continuation with
      | none =>
          rw [hcontinuation] at hdrain
          constructor <;> rw [hdrain]
          · simp
          · intro more hmore
            cases hcontinuation.symm.trans hmore
          · exact fun _ => h.ended.imp_left fun hended => hended hready hcontinuation
      | some more =>
          rw [hcontinuation] at hdrain
          dsimp only at hdrain
          rw [fail_eq] at hdrain
          let dry : Cursor := { c.unfoldSingle with buffer := [] }
          have hdry : dry.awaiting = false := hready.unfoldSingle.awaiting
          constructor <;> rw [hdrain]
          · rfl
          · simp
          · exact fun _ _ => ⟨_, rfl, next_failed hdry _⟩
          · intro hok
            cases hok

end Cursor

namespace System

variable [Connection σ] [DecidableEq ι]

/-- Whatever is done with a session and the queries on it, once it is closed
nothing reaches its connection any more, and the closing has reached it once.  A
query that compiles cannot be run, and a cursor that has not failed hands out what
it stores and ends. -/
theorem history_closed (connection : σ) (settings : Settings) (queries : ι → Query)
    (before after : List (Act ι)) :
    let start : System ι (Watched σ) := .start ⟨connection, []⟩ settings
    let closed := start.history queries (before ++ [.close])
    let S := start.history queries (before ++ .close :: after)
    S.session.connection = closed.session.connection ∧
    (∃ earlier : List Envelope,
      S.session.connection.contacts = earlier.map .request ++ [.closing]) ∧
    (∀ (q : Query) (term : Term),
      q.compile (some S.session.settings.defaultDatabase) = .ok term →
        (q.run S.session).1 = .error (.connection .sessionClosed) ∧
          (q.run S.session).2.connection = S.session.connection) ∧
    ∀ i c, (S.tasks i).cursor = some c → c.fault = none →
      c.RunsDry S.session (S.tasks i).heard (S.tasks i).calls := by
  intro start closed S
  have hlater : S = closed.history queries after := by
    simp only [S, closed, history, List.foldl_append, List.foldl_cons, List.foldl_nil]
  have hclosed : closed.session.closed = true := by
    simp only [closed, history, List.foldl_append]
    exact Session.closed_close _
  have hsealed : Session.Sealed closed.session.connection S.session := by
    rw [hlater]
    exact keeps_history (Session.invariant_sealed _) ⟨hclosed, rfl⟩ after
  refine ⟨hsealed.2, ?_, fun q term hcompile => ?_, fun i c hc hfault => ?_⟩
  · have htold : S.session.Told :=
      keeps_history Session.invariant_told ⟨[], rfl⟩ _
    obtain ⟨earlier, hcontacts⟩ := htold
    rw [hsealed.1] at hcontacts
    exact ⟨earlier, hcontacts⟩
  · have hrefused := (Query.ran_run hcompile).refused hsealed.1
    exact ⟨hrefused.1, hrefused.2.1⟩
  · have hkept : S.Kept := (kept_start _ settings).history _
    exact ((hkept i).cursor c hc).runsDry hfault hsealed.1

end System

end DocumentQuery
