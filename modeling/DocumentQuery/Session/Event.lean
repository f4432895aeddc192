import DocumentQuery.Query
import DocumentQuery.Wire.Request

/-!
# Events of a session

What a session does is recorded as events, each of them of a level and with a
few named values.  The requests that left for the server are among them.
-/

namespace DocumentQuery

/-- How important an event is. -/
inductive Level where
  | warn
  | debug
  | trace
  deriving DecidableEq, Repr

namespace Level

def name : Level → String
  | .warn => "WARN"
  | .debug => "DEBUG"
  | .trace => "TRACE"

/-- The most important level has the least rank. -/
def rank : Level → Nat
  | .warn => 0
  | .debug => 1
  | .trace => 2

end Level

/-- How far a write has come. -/
inductive WriteState where
  /-- The query was compiled. -/
  | compiled
  /-- The server has been asked. -/
  | sent
  /-- The server has answered with a summary. -/
  | evaluated
  /-- The summary has become an outcome. -/
  | aggregated
  deriving DecidableEq, Repr

def WriteState.name : WriteState → String
  | .compiled => "Compiled"
  | .sent => "Sent"
  | .evaluated => "Evaluated"
  | .aggregated => "Aggregated"

/-- Something a session did or met. -/
inductive Event where
  | refusedWrite (write : RefusedWrite)
  | running (token : Token) (query : Term) (atomic : Bool)
  | writeState (token : Token) (state : WriteState)
  | sending (request : Envelope)
  | received (token : Token) (rows : Nat) (more : Bool)
  | rejected (token : Token) (failure : Failure)
  | cursorFailed (token : Token) (fault : Fault)
  | writeFinished (token : Token) (outcome : WriteOutcome)
  | ignoredField (name : String)
  | stopping (token : Token)
  | changedSetting (name : String) (value : Datum)
  | closing
  deriving Repr

namespace Event

def level : Event → Level
  | .refusedWrite _ => .warn
  | .sending _ | .received .. | .ignoredField _ => .trace
  | _ => .debug

def message : Event → String
  | .refusedWrite _ => "Atomic write body is not deterministic, the server will reject every row"
  | .running .. => "running query"
  | .writeState .. => "write state"
  | .sending _ => "sending request"
  | .received .. => "received batch"
  | .rejected .. => "query failed"
  | .cursorFailed .. => "cursor failed"
  | .writeFinished .. => "write finished"
  | .ignoredField _ => "ignoring unknown write result field"
  | .stopping _ => "stopping query"
  | .changedSetting .. => "updated session setting"
  | .closing => "closing session"

def tokenField (token : Token) : String × Json := ("token", .ofNat token.toNat)

def values : Event → List (String × Json)
  | .refusedWrite write =>
    [("term", .ofText write.kind.name), ("reason", .ofText write.reason.message)]
  | .running token query atomic =>
    [tokenField token, ("query", .ofText query.display), ("atomic", .bool atomic)]
  | .writeState token state => [tokenField token, ("state", .ofText state.name)]
  | .sending request => [tokenField request.token, ("kind", .ofText request.request.tag)]
  | .received token rows more =>
    [tokenField token, ("rows", .ofNat rows), ("more", .bool more)]
  | .rejected token failure => [tokenField token, ("failure", .ofText failure.display)]
  | .cursorFailed token fault => [tokenField token, ("err", .ofText fault.message)]
  | .writeFinished token outcome => [tokenField token, ("outcome", .ofText outcome.display)]
  | .ignoredField name => [("name", .ofText name)]
  | .stopping token => [tokenField token]
  | .changedSetting name value =>
    [("name", .ofText name), ("value", .ofText value.display)]
  | .closing => []

/-- The request that left for the server, if the event is one. -/
def request? : Event → Option Envelope
  | .sending request => some request
  | _ => none

end Event

end DocumentQuery
