import DocumentQuery.Proofs.SessionRuns

/-!
# Calls that overlap

Many queries can be in use on one session, and while a call on one of them waits
for an answer, calls on others go on.  A call that has had some answers is where
the same call gets to when it is made once more and these answers are given to it
at once: it either ends, or it sends the next request and waits again.  So the
calls need not be taken apart to let them overlap.  What they share is the
session that their requests go to, and the tokens that their runs take.
-/

namespace DocumentQuery

variable {ι σ τ : Type}

/-! ## One call -/

/-- The connection of a call that has had some answers.  Further requests go to
the session shared with other calls, where nothing is answered at once. -/
structure Resumed (σ : Type) where
  shared : Session σ
  /-- The answers that the call has still to be given. -/
  known : List Exchange
  /-- The answers that it and the calls before it have used. -/
  heard : List Exchange
  /-- What will become of the request that the call waits for. -/
  coming : Option Exchange := none

instance [Connection σ] : Connection (Resumed σ) where
  send request view :=
    match view.known with
    | answer :: known =>
      (answer, { view with known, heard := view.heard ++ [answer] })
    | [] =>
      if view.shared.closed then (.failed (.connection .sessionClosed), view)
      else
        let (exchange, shared) := view.shared.send request
        (.unanswered, { view with shared, coming := some exchange })
  close view :=
    let (result, shared) := view.shared.close
    (result, { view with shared })
  repliesLeft view := view.known.length
  repliesLeft_send request view bytes after h := by
    split at h
    · next hknown =>
      cases h
      simp [hknown]
    · split at h <;> cases h

def Session.over (s : Session σ) (connection : τ) : Session τ :=
  ⟨connection, s.settings, s.nextToken, s.closed, s.events⟩

/-- What a call returns, with what it has put into a destination of the caller. -/
structure Report : Type 1 where
  {Element Value : Type}
  kept : List Element
  outcome : Outcome Value

def Report.of {α : Type} (outcome : Outcome α) : Report := ⟨([] : List Empty), outcome⟩

def Outcome.value? {α : Type} : Outcome α → Option α
  | .ok value => some value
  | _ => none

def Outcome.end {α : Type} : Outcome α → Outcome Unit
  | .ok _ => .ok ()
  | .error fault => .error fault
  | .pending => .pending

/-- What a query is used for: it is run, or its cursor is called. -/
inductive Use : Type 1 where
  | run (q : Query)
  | call (c : Cursor) (operation : Cursor.Operation)

variable [Connection σ]

def Cursor.Operation.report (operation : Operation) (c : Cursor) (s : Session σ) :
    Report × Cursor × Session σ :=
  match operation with
  | .next => let (outcome, after) := c.next s; (.of outcome, after)
  | .oneDatum => let (outcome, after) := c.oneDatum s; (.of outcome, after)
  | .one read => let (outcome, after) := c.one read s; (.of outcome, after)
  | .collect read => let (outcome, after) := c.collect read s; (.of outcome, after)
  | .collectInto read done =>
    let (kept, outcome, after) := c.collectInto read done s; (⟨kept, outcome⟩, after)
  | .writeOutcome => let (outcome, after) := c.writeOutcome s; (.of outcome, after)
  | .close => let (outcome, after) := c.close s; (.of outcome, after)

theorem Cursor.Operation.report_snd (operation : Operation) (c : Cursor)
    (s : Session σ) : (operation.report c s).2 = operation.perform c s := by
  cases operation <;> rfl

namespace Use

def perform (use : Use) (s : Session σ) : Report × Option Cursor × Session σ :=
  match use with
  | .run q =>
    let (outcome, s) := q.run s
    (.of outcome.end, outcome.value?, s)
  | .call c operation =>
    let (report, c, s) := operation.report c s
    (report, some c, s)

def token (use : Use) (s : Session σ) : Token :=
  match use with
  | .run _ => s.nextToken
  | .call c _ => c.token

end Use

/-! ## What calls keep -/

section

variable {P : σ → Prop} {t : Token}

theorem Session.keeps_send {request : Envelope}
    (hP : ∀ connection, P connection → P (Connection.send request connection).2)
    {s s' : Session σ} {exchange : Exchange} (hsend : s.send request = (exchange, s'))
    (h : P s.connection) : P s'.connection := by
  unfold Session.send at hsend
  split at hsend
  · cases hsend
    exact h
  · cases hsend
    exact hP _ h

variable (hP : ∀ request connection, P connection →
  P (Connection.send ⟨t, request⟩ connection).2)

include hP

/-- A cursor sends under its token alone. -/
theorem Cursor.Move.keeps_connection {a b : Cursor × Session σ} (hmove : Move a b)
    (htoken : a.1.token = t) (h : P a.2.connection) : P b.2.connection := by
  subst htoken
  cases hmove with
  | abandoned | unfolded | handedOut | taken | refused | aggregated | dropped => exact h
  | lost _ _ hsend => exact Session.keeps_send (hP _) hsend h
  | unreachable _ _ hsend | misanswered _ _ hsend _ | received _ _ hsend _ =>
      have hsent := Session.keeps_send (hP _) hsend h
      exact hsent
  | stopped _ hsend =>
      refine Session.keeps_send (hP _) hsend ?_
      exact h
  | noted names =>
      rw [Session.noteAll_eq]
      exact h

theorem Use.keeps_connection (use : Use) {s : Session σ} (htoken : use.token s = t)
    (h : P s.connection) : P (use.perform s).2.2.connection := by
  subst htoken
  cases use with
  | run q =>
      cases hcompile : q.compile (some s.settings.defaultDatabase) with
      | error cause =>
          have huntouched := (Query.untouched_run hcompile).2
          exact huntouched.connection ▸ h
      | ok term =>
          have hran := Query.ran_run hcompile
          cases hclosed : s.closed with
          | true =>
              have hconnection := (hran.refused hclosed).2.1
              exact hconnection ▸ h
          | false =>
              obtain ⟨exchange, hsend, -, -⟩ := hran.sent hclosed
              have hsent : P (Connection.send
                  ⟨s.nextToken, .start term s.settings.startOptions⟩ s.connection).2 :=
                hP _ _ h
              rw [hsend] at hsent
              exact hsent
  | call c operation =>
      have hkeeps := (operation.moves c s).keeps
        (P := fun a => a.1.token = c.token ∧ P a.2.connection)
        (fun a b hmove ha =>
          ⟨hmove.token.trans ha.1, hmove.keeps_connection hP ha.1 ha.2⟩)
      have hafter := (hkeeps ⟨rfl, h⟩).2
      rw [← operation.report_snd] at hafter
      exact hafter

end

theorem Use.token_of_perform {use : Use} {s : Session σ} {c : Cursor}
    (h : (use.perform s).2.1 = some c) : c.token = use.token s := by
  cases use with
  | run q =>
      rcases hrun : q.run s with ⟨c' | fault | _, s'⟩
      · rw [perform, hrun] at h
        cases h
        obtain ⟨_, _, noted, _, _, _, _, _, _, _, _, rfl⟩ := Query.run_ok hrun
        exact Cursor.start_token noted _ _ _
      · rw [perform, hrun] at h
        cases h
      · rw [perform, hrun] at h
        cases h
  | call c' operation =>
      have htoken := (operation.moves c' s).token
      rw [← operation.report_snd] at htoken
      cases h
      exact htoken

/-! ## All calls -/

/-- A call that waits for an answer. -/
structure Waiting : Type 1 where
  use : Use
  /-- The session as the call has found it. -/
  origin : Session Unit
  /-- The answers that calls before it have used. -/
  heard : List Exchange
  known : List Exchange
  coming : Exchange

/-- What a query on a session has come to. -/
structure Task : Type 1 where
  /-- The token that its run has taken. -/
  token : Option Token := none
  /-- The cursor, as a call that waits would leave it if it were given up. -/
  cursor : Option Cursor := none
  waiting : Option Waiting := none
  /-- The calls that were made on the cursor. -/
  calls : List Cursor.Operation := []
  heard : List Exchange := []
  reports : List Report := []

/-- Makes a call, or goes on with it when some answers are known, up to the next
request or to its end. -/
def Task.proceed (task : Task) (use : Use) (origin : Session Unit)
    (heard known : List Exchange) (shared : Session σ) :
    Task × Session (Resumed σ) :=
  let view : Session (Resumed σ) := origin.over ⟨shared, known, heard, none⟩
  let (report, cursor, view) := use.perform view
  let coming := view.connection.coming
  ({ task with
      cursor
      waiting := coming.map fun coming => ⟨use, origin, heard, known, coming⟩
      heard := view.connection.heard
      reports := task.reports ++ if coming.isNone then [report] else [] },
    view)

structure System (ι σ : Type) : Type 1 where
  session : Session σ
  tasks : ι → Task := fun _ => {}

/-- What can happen to one of the queries.  Its run and the calls on its cursor
are made when no other call on it waits; a call that waits is answered or given
up. -/
inductive TaskStep : Type 1 where
  | run
  | call (operation : Cursor.Operation)
  | answer
  | drop

namespace System

def start (connection : σ) (settings : Settings) : System ι σ :=
  ⟨.fresh connection settings, fun _ => {}⟩

variable [DecidableEq ι]

def put (S : System ι σ) (i : ι) (task : Task) (session : Session σ) : System ι σ :=
  ⟨session, Function.update S.tasks i task⟩

def step (queries : ι → Query) (S : System ι σ) (i : ι) : TaskStep → System ι σ
  | .run =>
    if (S.tasks i).token.isSome then S
    else
      let (task, view) :=
        (S.tasks i).proceed (.run (queries i)) (S.session.over ()) [] [] S.session
      let taken := view.nextToken ≠ S.session.nextToken
      S.put i { task with token := if taken then some S.session.nextToken else none }
        { view.connection.shared with nextToken := view.nextToken }
  | .call operation =>
    match (S.tasks i).waiting, (S.tasks i).cursor with
    | none, some c =>
      let task := { S.tasks i with calls := (S.tasks i).calls ++ [operation] }
      let (task, view) :=
        task.proceed (.call c operation) (S.session.over ()) task.heard [] S.session
      S.put i task view.connection.shared
    | _, _ => S
  | .answer =>
    match (S.tasks i).waiting with
    | none => S
    | some ⟨_, _, _, _, .unanswered⟩ => S
    | some ⟨use, origin, heard, known, coming⟩ =>
      let (task, view) :=
        (S.tasks i).proceed use origin heard (known ++ [coming]) S.session
      S.put i task view.connection.shared
  | .drop => S.put i { S.tasks i with waiting := none } S.session

/-- The system after some steps, each of them of one of the queries. -/
def run (queries : ι → Query) (S : System ι σ) (steps : List (ι × TaskStep)) :
    System ι σ :=
  steps.foldl (fun S step => S.step queries step.1 step.2) S

end System

/-! ## What a step does -/

/-- A query uses its token alone. -/
structure Task.Owns (task : Task) : Prop where
  cursor : ∀ c, task.cursor = some c → task.token = some c.token
  waiting : ∀ waiting, task.waiting = some waiting →
    task.token = some (waiting.use.token waiting.origin)

theorem Use.token_over {σ τ : Type} (use : Use) (s : Session σ) (connection : τ) :
    use.token (s.over connection) = use.token s := by
  cases use <;> rfl

theorem Task.owns_proceed (task : Task) (use : Use) (origin : Session Unit)
    (heard known : List Exchange) (shared : Session σ) :
    ({ (task.proceed use origin heard known shared).1 with
      token := some (use.token origin) } : Task).Owns := by
  constructor
  · intro c hc
    have hmade := Use.token_of_perform hc
    rw [use.token_over] at hmade
    rw [hmade]
  · intro waiting hwaiting
    obtain ⟨coming, -, rfl⟩ := Option.map_eq_some_iff.1 hwaiting
    rfl

/-- The run of a query that does not compile ends at once and leaves the session
as it is. -/
theorem Task.proceed_run_of_error {q : Query} {shared : Session σ} {cause : BuildFault}
    (hcompile : q.compile (some shared.settings.defaultDatabase) = .error cause)
    (task : Task) :
    ∃ view : Session (Resumed σ),
      task.proceed (.run q) (shared.over ()) [] [] shared =
        ({ task with
            cursor := none
            waiting := none
            heard := []
            reports := task.reports ++ [.of (.error (.build cause) : Outcome Unit)] },
          view) ∧
      view.connection.shared = shared ∧ view.nextToken = shared.nextToken := by
  obtain ⟨warnings, hcompiled⟩ : ∃ warnings,
      q.compileWithWarnings (some shared.settings.defaultDatabase) =
        (.error cause, warnings) := ⟨_, Prod.ext hcompile rfl⟩
  have hrun := Query.run_of_error
    (s := (shared.over ()).over (⟨shared, [], [], none⟩ : Resumed σ)) hcompiled
  unfold Task.proceed Use.perform
  dsimp only
  rw [hrun]
  exact ⟨_, rfl, rfl, rfl⟩

theorem Task.nextToken_proceed_run {q : Query} {shared : Session σ} {term : Term}
    (hcompile : q.compile (some shared.settings.defaultDatabase) = .ok term)
    (task : Task) :
    (task.proceed (.run q) (shared.over ()) [] [] shared).2.nextToken =
      shared.nextToken + 1 :=
  (Query.ran_run (s := (shared.over ()).over (⟨shared, [], [], none⟩ : Resumed σ))
    hcompile).nextToken

namespace System

variable [DecidableEq ι] {queries : ι → Query} {S : System ι σ} {i : ι}

omit [Connection σ] in
theorem put_self (S : System ι σ) (i : ι) (task : Task) (session : Session σ) :
    (S.put i task session).tasks i = task :=
  Function.update_self ..

omit [Connection σ] in
theorem put_of_ne {i j : ι} (h : j ≠ i) (S : System ι σ) (task : Task)
    (session : Session σ) : (S.put i task session).tasks j = S.tasks j :=
  Function.update_of_ne h ..

theorem step_run_of_error {cause : BuildFault} (htoken : (S.tasks i).token = none)
    (hcompile : (queries i).compile (some S.session.settings.defaultDatabase) =
      .error cause) :
    S.step queries i .run = S.put i
      { S.tasks i with
        cursor := none
        waiting := none
        heard := []
        reports := (S.tasks i).reports ++ [.of (.error (.build cause) : Outcome Unit)] }
      S.session := by
  obtain ⟨view, hproceed, hshared, hnext⟩ :=
    Task.proceed_run_of_error hcompile (S.tasks i)
  rw [step, htoken]
  simp only [Option.isSome_none, Bool.false_eq_true, if_false, hproceed, hnext, hshared,
    ne_eq, not_true_eq_false, htoken]

theorem step_run_of_ok {term : Term} {task : Task} {view : Session (Resumed σ)}
    (htoken : (S.tasks i).token = none)
    (hcompile : (queries i).compile (some S.session.settings.defaultDatabase) = .ok term)
    (hwent : (S.tasks i).proceed (.run (queries i)) (S.session.over ()) [] [] S.session =
      (task, view)) :
    S.step queries i .run = S.put i { task with token := some S.session.nextToken }
      { view.connection.shared with nextToken := S.session.nextToken + 1 } := by
  have hnext := Task.nextToken_proceed_run hcompile (S.tasks i)
  rw [hwent] at hnext
  have htaken : view.nextToken = S.session.nextToken + 1 := hnext
  have hne : S.session.nextToken + 1 ≠ S.session.nextToken := by simp
  rw [step, htoken]
  simp only [Option.isSome_none, Bool.false_eq_true, if_false, hwent, htaken, if_pos hne]

/-- What a step of a query can be: nothing at all, something that sends nothing, a
call that goes on under the token of the query, or a run that takes the next
token. -/
inductive Stepped (queries : ι → Query) (S : System ι σ) (i : ι) :
    TaskStep → System ι σ → Prop where
  | still {step : TaskStep} : Stepped queries S i step S
  | quiet {step : TaskStep} {task : Task} :
      task.token = (S.tasks i).token → task.Owns →
      Stepped queries S i step (S.put i task S.session)
  | went {step : TaskStep} (task : Task) (use : Use) (origin : Session Unit)
      (heard known : List Exchange) :
      (S.tasks i).token = some (use.token origin) → task.token = (S.tasks i).token →
      Stepped queries S i step
        (S.put i (task.proceed use origin heard known S.session).1
          (task.proceed use origin heard known S.session).2.connection.shared)
  | ran {task : Task} {view : Session (Resumed σ)} : (S.tasks i).token = none →
      (S.tasks i).proceed (.run (queries i)) (S.session.over ()) [] [] S.session =
        (task, view) →
      Stepped queries S i .run
        (S.put i { task with token := some S.session.nextToken }
          { view.connection.shared with nextToken := S.session.nextToken + 1 })

theorem stepped_step (queries : ι → Query) (howns : (S.tasks i).Owns) (step : TaskStep) :
    Stepped queries S i step (S.step queries i step) := by
  cases step with
  | run =>
      cases htoken : (S.tasks i).token with
      | some token =>
          rw [System.step, htoken]
          exact .still
      | none =>
          cases hcompile :
            (queries i).compile (some S.session.settings.defaultDatabase) with
          | error cause =>
              rw [step_run_of_error htoken hcompile]
              exact .quiet rfl ⟨fun _ h => (by cases h), fun _ h => (by cases h)⟩
          | ok term =>
              rw [step_run_of_ok htoken hcompile rfl]
              exact .ran htoken rfl
  | call operation =>
      rw [System.step]
      split
      · next c hwaiting hcursor =>
        exact .went _ (.call c operation) (S.session.over ()) _ _
          (howns.cursor c hcursor) rfl
      · exact .still
  | answer =>
      rw [System.step]
      split
      · exact .still
      · exact .still
      · next hwaiting => exact .went _ _ _ _ _ (howns.waiting _ hwaiting) rfl
  | drop => exact .quiet rfl ⟨howns.cursor, fun _ h => (by cases h)⟩

end System

end DocumentQuery
