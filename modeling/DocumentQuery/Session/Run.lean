import DocumentQuery.Session.Cursor

/-!
# Running queries

Running a query starts it on the server.  Whatever can be found wrong before
anything is sent costs neither a token nor a request.
-/

namespace DocumentQuery

/-- Runs a query: compiles it with the settings of the session, starts it under
a new token, and makes a cursor of the first reply.  A query that does not
compile takes no token and sends nothing. -/
def Query.run {σ : Type} [Connection σ] (q : Query) (s : Session σ) :
    Outcome Cursor × Session σ :=
  let (result, warnings) := q.compileWithWarnings (some s.settings.defaultDatabase)
  let s := s.noteAll (warnings.map .refusedWrite)
  match result with
  | .error cause => (.error (.build cause), s)
  | .ok term =>
    let (token, s) := s.takeToken
    let s := s.note (.running token term q.atomic)
    let s := if q.shape.isWrite then s.note (.writeState token .compiled) else s
    match s.send ⟨token, .start term s.settings.startOptions⟩ with
    | (.unanswered, s) => (.pending, s)
    | (.failed fault, s) => (.error fault, s)
    | (.reply bytes, s) =>
      let s := if q.shape.isWrite then s.note (.writeState token .sent) else s
      match Reply.decode bytes token with
      | .error cause => (.error (.decode cause), s)
      | .ok (.failure report) => (.error (.query report), s.note (.rejected token report))
      | .ok reply =>
        let (cursor, s) := Cursor.start s token q.shape reply
        (.ok cursor, s)

end DocumentQuery
