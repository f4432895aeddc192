import DocumentQuery.Session.Reply

/-!
# What responses answer

What a server has said is the payload of its response, and it is said to whoever
asked under the token of the response.  These are the terms in which histories of
replies are described; a cursor sees a payload in a narrower form.
-/

namespace DocumentQuery

/-- The answer in bytes to the requests with a token: the payload of a response
that carries the token. -/
def Bytes.answer? (bytes : Bytes) (token : Token) : Option Payload :=
  (bytes.toText?.bind Response.parse?).bind fun response =>
    if response.token = token then some response.payload else none

/-- The elements of a batch and the name of what follows it. -/
def Payload.batch? : Payload → Option (List Datum × Option String)
  | .sequence items => some (items, none)
  | .part items continuation => some (items, some continuation)
  | .done => some ([], none)
  | .value _ | .failure _ => none

/-- The name of what follows a part of a sequence. -/
def Payload.continuation? : Payload → Option String
  | .part _ continuation => some continuation
  | .value _ | .sequence _ | .done | .failure _ => none

namespace Reply

variable {bytes : Bytes} {token : Token}

theorem decode_of_parse {response : Response}
    (h : bytes.toText?.bind Response.parse? = some response) (token : Token) :
    Reply.decode bytes token =
      if response.token = token then .ok (.ofPayload response.payload)
      else .error (.wrongToken response.token token) := by
  rw [Reply.decode, h]

theorem answer?_of_parse {response : Response}
    (h : bytes.toText?.bind Response.parse? = some response) (token : Token) :
    bytes.answer? token =
      if response.token = token then some response.payload else none := by
  rw [Bytes.answer?, h, Option.bind_some]

theorem decode_eq_ok_iff {reply : Reply} :
    Reply.decode bytes token = .ok reply ↔
      ∃ payload, bytes.answer? token = some payload ∧ ofPayload payload = reply := by
  cases hparse : bytes.toText?.bind Response.parse? with
  | none =>
      have hdecode : Reply.decode bytes token = .error .malformed := by
        rw [Reply.decode, hparse]
      have hanswer : bytes.answer? token = none := by
        rw [Bytes.answer?, hparse, Option.bind_none]
      simp [hdecode, hanswer]
  | some response =>
      rw [decode_of_parse hparse, answer?_of_parse hparse]
      by_cases htoken : response.token = token
      · simp [htoken]
      · simp [htoken]

theorem answer?_of_decode_error {cause : DecodeFault}
    (h : Reply.decode bytes token = .error cause) : bytes.answer? token = none := by
  cases hanswer : bytes.answer? token with
  | none => rfl
  | some payload => cases h.symm.trans (decode_eq_ok_iff.2 ⟨payload, hanswer, rfl⟩)

theorem ofPayload_eq_value_iff {payload : Payload} {datum : Datum} :
    ofPayload payload = .value datum ↔ payload = .value datum := by
  cases payload <;> simp [ofPayload]

theorem ofPayload_eq_failure_iff {payload : Payload} {report : Failure} :
    ofPayload payload = .failure report ↔ payload = .failure report := by
  cases payload <;> simp [ofPayload]

theorem ofPayload_eq_batch_iff {payload : Payload} {items : List Datum}
    {continuation : Option String} :
    ofPayload payload = .batch items continuation ↔
      payload.batch? = some (items, continuation) := by
  cases payload <;> simp [ofPayload, Payload.batch?]

theorem decode_eq_value_iff {datum : Datum} :
    Reply.decode bytes token = .ok (.value datum) ↔
      bytes.answer? token = some (.value datum) := by
  simp [decode_eq_ok_iff, ofPayload_eq_value_iff]

theorem decode_eq_failure_iff {report : Failure} :
    Reply.decode bytes token = .ok (.failure report) ↔
      bytes.answer? token = some (.failure report) := by
  simp [decode_eq_ok_iff, ofPayload_eq_failure_iff]

theorem decode_eq_batch_iff {items : List Datum} {continuation : Option String} :
    Reply.decode bytes token = .ok (.batch items continuation) ↔
      (bytes.answer? token).bind Payload.batch? = some (items, continuation) := by
  simp [decode_eq_ok_iff, ofPayload_eq_batch_iff, Option.bind_eq_some_iff]

/-- What the batch after a reply is asked for by. -/
def continuation? : Reply → Option String
  | .batch _ continuation => continuation
  | _ => none

@[simp] theorem continuation?_ofPayload (payload : Payload) :
    (ofPayload payload).continuation? = payload.continuation? := by
  cases payload <;> rfl

end Reply

end DocumentQuery
