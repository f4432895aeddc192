import DocumentQuery.Proofs.CursorMoves

/-!
# What running a query does

A query that does not compile leaves nothing behind but its warnings.  One that
compiles takes the next token and sends one request, and what becomes of the
request decides how the run ends.  Everything else that a run changes is the
record of events.
-/

namespace DocumentQuery

/-- The token under which an event has a query run, if it does. -/
def Event.started? : Event → Option Token
  | .running token _ _ => some token
  | _ => none

/-- The tokens that runs have taken, the earliest first. -/
def Session.started {σ : Type} (s : Session σ) : List Token :=
  s.events.reverse.filterMap Event.started?

/-- Events among which no request leaves and no token is taken. -/
def Event.Silent (events : List Event) : Prop :=
  events.filterMap Event.request? = [] ∧ events.filterMap Event.started? = []

def Reply.cursor (token : Token) (shape : ResultShape) (first : Reply) : Cursor :=
  let c : Cursor :=
    { token, shape, writeState := if shape.isWrite then some .evaluated else none }
  match first with
  | .value datum => { c with single := some datum }
  | .batch items continuation => c.receive items continuation
  | .failure report => { c with fault := some (.query report) }

/-- How a run ends under a token, by what became of its request. -/
def Query.verdict (q : Query) (token : Token) : Exchange → Outcome Cursor
  | .unanswered => .pending
  | .failed fault => .error fault
  | .reply bytes =>
    match Reply.decode bytes token with
    | .error cause => .error (.decode cause)
    | .ok (.failure report) => .error (.query report)
    | .ok reply => .ok (reply.cursor token q.shape)

/-- What a run records before it sends its request, the latest first. -/
def Query.opening (q : Query) (token : Token) (term : Term)
    (warnings : List RefusedWrite) : List Event :=
  (if q.shape.isWrite then [.writeState token .compiled] else []) ++
    .running token term q.atomic :: (warnings.map .refusedWrite).reverse

/-- What a run records when its request is answered, the latest first. -/
def Query.ending (q : Query) (token : Token) : Exchange → List Event
  | .reply bytes =>
    (match Reply.decode bytes token with
      | .ok (.batch items more) => [.received token items.length more.isSome]
      | .ok (.failure report) => [.rejected token report]
      | _ => []) ++
      (if q.shape.isWrite then [.writeState token .sent] else [])
  | _ => []

theorem Event.silent_refusedWrites (warnings : List RefusedWrite) :
    Event.Silent (warnings.map Event.refusedWrite).reverse := by
  rw [← List.map_reverse]
  constructor
  · rw [List.filterMap_map]
    simp [Function.comp_def, Event.request?]
  · rw [List.filterMap_map]
    simp [Function.comp_def, Event.started?]

theorem Query.silent_ending (q : Query) (token : Token) (exchange : Exchange) :
    Event.Silent (q.ending token exchange) := by
  cases exchange with
  | reply bytes =>
      unfold Query.ending
      cases q.shape.isWrite <;> dsimp only <;> split <;> exact ⟨rfl, rfl⟩
  | _ => exact ⟨rfl, rfl⟩

theorem Query.opening_request? (q : Query) (token : Token) (term : Term)
    (warnings : List RefusedWrite) :
    (q.opening token term warnings).filterMap Event.request? = [] := by
  have hwarnings := (Event.silent_refusedWrites warnings).1
  unfold Query.opening
  split <;> exact hwarnings

theorem Query.opening_started? (q : Query) (token : Token) (term : Term)
    (warnings : List RefusedWrite) :
    (q.opening token term warnings).filterMap Event.started? = [token] := by
  have hwarnings := (Event.silent_refusedWrites warnings).2
  unfold Query.opening
  split <;> exact congrArg (token :: ·) hwarnings

variable {σ : Type} [Connection σ]

theorem Query.run_of_error {q : Query} {s : Session σ} {cause : BuildFault}
    {warnings : List RefusedWrite}
    (hcompile : q.compileWithWarnings (some s.settings.defaultDatabase) =
      (.error cause, warnings)) :
    q.run s = (.error (.build cause),
      { s with events := (warnings.map .refusedWrite).reverse ++ s.events }) := by
  unfold Query.run
  simp only [hcompile, Session.noteAll_eq]

theorem Query.run_of_ok {q : Query} {s after : Session σ} {term : Term}
    {warnings : List RefusedWrite} {exchange : Exchange}
    (hcompile : q.compileWithWarnings (some s.settings.defaultDatabase) =
      (.ok term, warnings))
    (hsend : ({ s with
        nextToken := s.nextToken + 1,
        events := q.opening s.nextToken term warnings ++ s.events } : Session σ).send
      ⟨s.nextToken, .start term s.settings.startOptions⟩ = (exchange, after)) :
    q.run s = (q.verdict s.nextToken exchange,
      { after with events := q.ending s.nextToken exchange ++ after.events }) := by
  unfold Query.run
  unfold Query.opening at hsend
  unfold Query.verdict Query.ending
  cases hwrite : q.shape.isWrite
  all_goals
    simp only [hwrite, if_true, if_false, Bool.false_eq_true, List.nil_append,
      List.cons_append] at hsend
    simp only [hcompile, Session.noteAll_eq, Session.takeToken, Session.note,
      if_true, if_false, Bool.false_eq_true, hsend]
    cases exchange with
    | reply bytes =>
        dsimp only
        rcases Reply.decode bytes s.nextToken with cause | datum | ⟨items, more⟩ | report
        all_goals rfl
    | _ => rfl

end DocumentQuery
