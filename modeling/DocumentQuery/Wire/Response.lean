import DocumentQuery.Wire.Message

/-!
# Responses

The server answers a query with one value, with a whole sequence, with a part
of a sequence and the name of what follows it, with the end of a sequence, or
with a failure.
-/

namespace DocumentQuery

/-- What the server answers. -/
inductive Payload where
  /-- One value, which may be an array. -/
  | value (datum : Datum)
  /-- A sequence, or the last part of one. -/
  | sequence (batch : List Datum)
  /-- A part of a sequence; more follows under the continuation. -/
  | part (batch : List Datum) (continuation : String)
  /-- The end of a sequence. -/
  | done
  /-- The query was rejected. -/
  | failure (report : Failure)
  deriving Repr, Inhabited

/-- An answer under the token of its request. -/
structure Response where
  token : Token
  payload : Payload
  deriving Repr, Inhabited

namespace Payload

def tags : List String := ["value", "sequence", "partial", "done", "error"]

def tag : Payload → String
  | .value _ => "value"
  | .sequence _ => "sequence"
  | .part .. => "partial"
  | .done => "done"
  | .failure _ => "error"

def batchToJson (batch : List Datum) : Json := .array (Datum.itemsToJson batch)

def toMembers : Payload → List (String × Json)
  | .value datum => [("value", datum.toJson)]
  | .sequence batch => [("batch", batchToJson batch)]
  | .part batch continuation =>
    [("batch", batchToJson batch), ("continuation", .ofText continuation)]
  | .done => []
  | .failure report => report.toMembers

def batchOfJson? : Json → Option (List Datum)
  | .array items => items.mapM (Datum.ofJson? Json.maxDepth)
  | _ => none

def ofMessage? (message : TaggedMessage) : Option Payload :=
  match message.tag with
  | 0 => do
    let datum ← Datum.ofJson? Json.maxDepth (← message.required? "value")
    return .value datum
  | 1 => do
    let batch ← batchOfJson? (← message.required? "batch")
    return .sequence batch
  | 2 => do
    let batch ← batchOfJson? (← message.required? "batch")
    let continuation ← (← message.required? "continuation").asText?
    return .part batch continuation
  | 3 => some .done
  | _ => (Failure.ofJson? .tagged Json.maxDepth (.object message.members)).map .failure

/-- Equality of answers, with numbers compared numerically. -/
def equals : Payload → Payload → Bool
  | .value a, .value b => a.equals b
  | .sequence a, .sequence b => Datum.itemsEqual a b
  | .part a c, .part b c' => Datum.itemsEqual a b && c == c'
  | .done, .done => true
  | .failure a, .failure b => a == b
  | _, _ => false

end Payload

namespace Response

def toJson (r : Response) : Json :=
  TaggedMessage.toJson r.token r.payload.tag r.payload.toMembers

def ofJson? (json : Json) : Option Response := do
  let message ← TaggedMessage.ofJson? Payload.tags json
  let payload ← Payload.ofMessage? message
  return ⟨message.token, payload⟩

def write (r : Response) : String := r.toJson.write

def parse? (text : String) : Option Response := do
  let json ← Json.parse? text
  ofJson? json

def equals (a b : Response) : Bool := a.token == b.token && a.payload.equals b.payload

end Response

end DocumentQuery
