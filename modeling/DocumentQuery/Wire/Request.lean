import DocumentQuery.Wire.Message

/-!
# Requests

A query is started once, continued batch by batch, and stopped early if its
remaining batches are not wanted.  Continuing and stopping use the token under
which the query was started.
-/

namespace DocumentQuery

/-- What the client asks of the server. -/
inductive Request where
  /-- Evaluate a term under options that hold for the whole query. -/
  | start (term : Term) (options : Fields Term)
  /-- Send the batch that a continuation names. -/
  | resume (continuation : String)
  /-- Drop what is left of the result. -/
  | stop
  deriving Repr, Inhabited

/-- A request under its token. -/
structure Envelope where
  token : Token
  request : Request
  deriving Repr, Inhabited

namespace Request

def tags : List String := ["start", "continue", "stop"]

def tag : Request → String
  | .start .. => "start"
  | .resume _ => "continue"
  | .stop => "stop"

def toMembers : Request → List (String × Json)
  | .start term options =>
    ("term", term.toJson) ::
      (if options.isEmpty then []
        else [("options", .object (Term.optionsToJson options))])
  | .resume continuation => [("continuation", .ofText continuation)]
  | .stop => []

def ofMessage? (message : TaggedMessage) : Option Request :=
  match message.tag with
  | 0 => do
    let term ← Term.ofJson? .tagged Json.maxDepth (← message.required? "term")
    let options ← (← Json.member? "options" message.members).elim (some [])
      (Term.fieldsOfJson? Json.maxDepth (Term.ofJson? .tagged Json.maxDepth))
    return .start term options
  | 1 => do
    let continuation ← (← message.required? "continuation").asText?
    return .resume continuation
  | _ => some .stop

/-- Equality of requests, with numbers compared numerically. -/
def equals : Request → Request → Bool
  | .start term options, .start term' options' =>
    term.equals term' && Term.optionsEqual options options'
  | .resume continuation, .resume continuation' => continuation == continuation'
  | .stop, .stop => true
  | _, _ => false

end Request

namespace Envelope

def toJson (e : Envelope) : Json :=
  TaggedMessage.toJson e.token e.request.tag e.request.toMembers

def ofJson? (json : Json) : Option Envelope := do
  let message ← TaggedMessage.ofJson? Request.tags json
  let request ← Request.ofMessage? message
  return ⟨message.token, request⟩

def write (e : Envelope) : String := e.toJson.write

def parse? (text : String) : Option Envelope := do
  let json ← Json.parse? text
  ofJson? json

def equals (a b : Envelope) : Bool := a.token == b.token && a.request.equals b.request

end Envelope

end DocumentQuery
