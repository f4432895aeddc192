import DocumentQuery.Fault
import DocumentQuery.Wire.Response

/-!
# Replies

The bytes that answer a request are a response as JSON text.  Once it is known
to carry the token of the request, all that matters of it is whether it is one
value, a batch that may go on, or a failure.
-/

namespace DocumentQuery

abbrev Bytes := List UInt8

namespace Bytes

def ofText (s : String) : Bytes := s.toUTF8.toList

/-- The text that bytes encode, if they encode one. -/
def toText? (bytes : Bytes) : Option String := String.fromUTF8? ⟨bytes.toArray⟩

end Bytes

/-- An answer, as far as it matters to whoever reads the result. -/
inductive Reply where
  | value (datum : Datum)
  /-- A batch; more follows if there is a continuation. -/
  | batch (items : List Datum) (continuation : Option String)
  | failure (report : Failure)
  deriving Repr, Inhabited

namespace Reply

def ofPayload : Payload → Reply
  | .value datum => .value datum
  | .sequence items => .batch items none
  | .part items continuation => .batch items (some continuation)
  | .done => .batch [] none
  | .failure report => .failure report

/-- The answer in the bytes of a response to the request with a token. -/
def decode (bytes : Bytes) (token : Token) : Except DecodeFault Reply :=
  match bytes.toText?.bind Response.parse? with
  | none => .error .malformed
  | some response =>
    if response.token = token then .ok (.ofPayload response.payload)
    else .error (.wrongToken response.token token)

end Reply

end DocumentQuery
