import DocumentQuery.Proofs.MessageReading
import DocumentQuery.Session.Reply

/-!
# Responses in text

What a server answers reaches the session as the bytes of a text.  The session
finds in them what was answered, or notices that the answer belongs to another
request.  The parts of a failure stand among the members of the message itself,
so a failure is looked for in the whole message.
-/

namespace DocumentQuery

-- Powers are those of the core library, whatever else is imported.
attribute [local instance (2000)] instPowNat

/-! ## Texts as bytes -/

namespace Bytes

theorem loop_toList (bytes : ByteArray) (start : Nat) (front : List UInt8) :
    ByteArray.toList.loop bytes start front =
      front.reverse ++ bytes.data.toList.drop start := by
  induction start, front using ByteArray.toList.loop.induct bytes with
  | case1 start front hlt ih =>
      have hstart : start < bytes.data.toList.length := by simpa using hlt
      have hbyte : bytes.get! start = bytes.data.toList[start] := by
        simpa [ByteArray.get!] using getElem!_pos bytes.data start hlt
      rw [ByteArray.toList.loop, if_pos hlt, ih,
        List.drop_eq_getElem_cons hstart, hbyte]
      simp
  | case2 start front hge =>
      have hend : bytes.data.toList.length ≤ start := by simpa using hge
      rw [ByteArray.toList.loop, if_neg hge, List.drop_eq_nil_of_le hend]
      simp

theorem toText?_ofText (s : String) : (ofText s).toText? = some s := by
  have hbytes : ByteArray.mk (ofText s).toArray = s.toUTF8 := by
    rw [ofText, ByteArray.toList, loop_toList]
    simp
  rw [toText?, hbytes, String.fromUTF8?, String.toUTF8_eq_toByteArray,
    dif_pos s.isValidUTF8]
  rfl

end Bytes

/-! ## Failures -/

theorem Stage.ofName?_name (stage : Stage) : ofName? stage.name = some stage := by
  cases stage <;> rfl

namespace Failure

theorem traceOfJson?_map_ofText (trace : List String) {depth : Nat}
    (hdepth : depth ≠ 0) :
    traceOfJson? depth (.array (trace.map .ofText)) = some trace := by
  have htexts : (trace.map Json.ofText).mapM Json.asText? = some trace := by
    induction trace with
    | nil => rfl
    | cons text rest ih =>
        rw [List.map_cons, List.mapM_cons, ih]
        rfl
  rw [traceOfJson?, if_neg hdepth, htexts]

/-- The parts of a failure are texts, the trace being a list of them. -/
theorem text_or_trace {f : Failure} {member : String × Json}
    (h : member ∈ f.toMembers) :
    (∃ text, member.2 = .ofText text) ∨
      member.2 = .array (f.trace.map .ofText) := by
  rw [toMembers, List.mem_append, List.mem_pair] at h
  rcases h with (rfl | rfl) | h
  · exact .inl ⟨_, rfl⟩
  · exact .inl ⟨_, rfl⟩
  · split at h
    · cases h
    · rw [List.mem_singleton] at h
      exact .inr (congrArg Prod.snd h)

theorem isProper_toMembers (f : Failure) :
    ∀ member ∈ f.toMembers, member.2.IsProper := by
  have htexts (trace : List String) :
      Json.ItemsProper (trace.map .ofText) := by
    induction trace with
    | nil => trivial
    | cons text rest ih => exact ⟨trivial, ih⟩
  intro member hmember
  rcases text_or_trace hmember with ⟨text, heq⟩ | heq
  · rw [heq]
    trivial
  · rw [heq]
    exact htexts f.trace

theorem isSound_toMembers {f : Failure} {depth : Nat}
    (hdepth : ∀ member ∈ f.toMembers, member.2.height ≤ depth) :
    ∀ member ∈ f.toMembers, member.2.isSound depth := by
  have htext (text : String) (inner : Nat) :
      (Json.ofText text).isSound inner := by
    simp [Json.ofText, Json.isSound]
  intro member hmember
  have hheight := hdepth member hmember
  rcases text_or_trace hmember with ⟨text, heq⟩ | heq
  · rw [heq]
    exact htext text depth
  · rw [heq] at hheight ⊢
    refine Json.isSound_array hheight fun inner _ => ?_
    rw [List.forall_mem_map]
    exact fun text _ => htext text inner

theorem record?_written (f : Failure) (token : Token) :
    (Json.object (TaggedMessage.written token "error" f.toMembers)).record?
      ["class", "message", "backtrace"] =
      some [some (.ofText f.stage.name), some (.ofText f.message),
        if f.trace.isEmpty then none else some (.array (f.trace.map .ofText))] := by
  cases htrace : f.trace <;>
    simp [TaggedMessage.written, Json.record?, Json.member?, toMembers, htrace]

theorem ofJson?_written (f : Failure) (token : Token) (framing : Framing)
    {depth : Nat} (hdepth : depth ≠ 0) :
    ofJson? framing (depth + 1)
      (.object (TaggedMessage.written token "error" f.toMembers)) = some f := by
  have hstage : (Json.ofText f.stage.name).choice? framing depth =
      some f.stage.name := rfl
  have htrace : (if f.trace.isEmpty then none
      else some (Json.array (f.trace.map .ofText))).elim (some [])
        (traceOfJson? depth) = some f.trace := by
    by_cases hempty : f.trace = []
    · simp [hempty]
    · simp [hempty, traceOfJson?_map_ofText f.trace hdepth]
  rw [ofJson?, record?_written]
  simp only [Option.bind_eq_bind, Option.bind_some, hstage,
    Stage.ofName?_name, htrace]
  rfl

end Failure

/-! ## Payloads -/

namespace Payload

/-- The numbers in an answer. -/
def numbers : Payload → List Number
  | .value datum => datum.numbers
  | .sequence batch | .part batch _ => Datum.itemsNumbers batch
  | .done | .failure _ => []

/-- The fields of every object in the answer ascend by name. -/
def Ordered : Payload → Prop
  | .value datum => datum.Ordered
  | .sequence batch | .part batch _ => Datum.ItemsOrdered batch
  | .done | .failure _ => True

def place : Payload → Nat
  | .value _ => 0
  | .sequence _ => 1
  | .part .. => 2
  | .done => 3
  | .failure _ => 4

theorem findIdx?_tag (p : Payload) :
    tags.findIdx? (· == p.tag) = some p.place := by
  cases p <;> rfl

theorem name_toMembers (p : Payload) :
    ∀ member ∈ p.toMembers, member.1 ≠ "token" ∧ member.1 ≠ "type" := by
  cases p with
  | failure report =>
      cases htrace : report.trace <;>
        simp [toMembers, Failure.toMembers, htrace]
  | _ => simp [toMembers]

theorem isProper_toMembers (p : Payload) :
    ∀ member ∈ p.toMembers, member.2.IsProper := by
  cases p with
  | value datum =>
      have hdatum := datum.isProper_toJson
      simpa [toMembers] using hdatum
  | sequence batch =>
      have hbatch : (batchToJson batch).IsProper := Datum.itemsProper_toJson batch
      simpa [toMembers] using hbatch
  | part batch continuation =>
      have hbatch : (batchToJson batch).IsProper := Datum.itemsProper_toJson batch
      simpa [toMembers, Json.ofText, Json.IsProper] using hbatch
  | done => simp [toMembers]
  | failure report => exact report.isProper_toMembers

theorem isSound_batchToJson {batch : List Datum} {depth : Nat}
    (hrestored : ∀ n ∈ Datum.itemsNumbers batch, n.IsRestored)
    (hdepth : (batchToJson batch).height ≤ depth) :
    (batchToJson batch).isSound depth :=
  Json.isSound_array hdepth fun _ => Datum.itemsSound_toJson batch hrestored

theorem isSound_toMembers {p : Payload} {depth : Nat}
    (hrestored : ∀ n ∈ p.numbers, n.IsRestored)
    (hdepth : ∀ member ∈ p.toMembers, member.2.height ≤ depth) :
    ∀ member ∈ p.toMembers, member.2.isSound depth := by
  cases p with
  | value datum =>
      rw [toMembers, List.forall_mem_singleton] at hdepth ⊢
      exact datum.isSound_toJson hrestored hdepth
  | sequence batch =>
      rw [toMembers, List.forall_mem_singleton] at hdepth ⊢
      exact isSound_batchToJson hrestored hdepth
  | part batch continuation =>
      rw [toMembers, List.forall_mem_cons, List.forall_mem_singleton] at hdepth ⊢
      have htext : (Json.ofText continuation).isSound depth := by
        simp [Json.ofText, Json.isSound]
      exact ⟨isSound_batchToJson hrestored hdepth.1, htext⟩
  | done => simp [toMembers]
  | failure report => exact Failure.isSound_toMembers hdepth

theorem batchOfJson?_batchToJson {batch : List Datum}
    (hordered : Datum.ItemsOrdered batch)
    (hrestored : ∀ n ∈ Datum.itemsNumbers batch, n.IsRestored)
    (hdepth : (batchToJson batch).height ≤ Json.maxDepth) :
    batchOfJson? (batchToJson batch) = some batch :=
  Datum.mapM_itemsToJson batch hordered hrestored (Nat.le_of_succ_le hdepth)

theorem ofMessage?_written {p : Payload} (hordered : p.Ordered)
    (hrestored : ∀ n ∈ p.numbers, n.IsRestored)
    (hdepth : ∀ member ∈ p.toMembers, member.2.height ≤ Json.maxDepth)
    (token : Token) :
    ofMessage? ⟨token, p.place, TaggedMessage.written token p.tag p.toMembers⟩ =
      some p := by
  cases p with
  | value datum =>
      rw [toMembers, List.forall_mem_singleton] at hdepth
      have hread := datum.ofJson?_toJson hordered hrestored hdepth
      simp [ofMessage?, place, TaggedMessage.required?, TaggedMessage.written,
        Json.member?, toMembers, hread]
  | sequence batch =>
      rw [toMembers, List.forall_mem_singleton] at hdepth
      have hread := batchOfJson?_batchToJson hordered hrestored hdepth
      simp [ofMessage?, place, TaggedMessage.required?, TaggedMessage.written,
        Json.member?, toMembers, hread]
  | part batch continuation =>
      rw [toMembers, List.forall_mem_cons] at hdepth
      have hread := batchOfJson?_batchToJson hordered hrestored hdepth.1
      simp [ofMessage?, place, TaggedMessage.required?, TaggedMessage.written,
        Json.member?, toMembers, hread, Json.ofText, Json.asText?]
  | done => rfl
  | failure report =>
      have hpositive : Json.maxDepth - 1 ≠ 0 := by decide
      have hread := report.ofJson?_written token .tagged hpositive
      exact congrArg (Option.map Payload.failure) hread

end Payload

/-! ## Answers to a session -/

namespace Response

/-- A response whose numbers are restored is read back from its text. -/
theorem parse?_write {r : Response} (hordered : r.payload.Ordered)
    (hrestored : ∀ n ∈ r.payload.numbers, n.IsRestored)
    (hdepth : r.toJson.height ≤ Json.maxDepth) : parse? r.write = some r := by
  have hproper : r.toJson.IsProper :=
    TaggedMessage.isProper_toJson _ _ r.payload.isProper_toMembers
  have hmembers := TaggedMessage.height_of_mem hdepth
  have hmessage := TaggedMessage.ofJson?_toJson r.token r.payload.findIdx?_tag
    r.payload.name_toMembers (Payload.isSound_toMembers hrestored hmembers)
  -- The second pass counts containers anew, so the bound of the first is more
  -- than enough.
  have hpayload := Payload.ofMessage?_written hordered hrestored
    (fun member hmember =>
      (hmembers member hmember).trans (Nat.sub_le Json.maxDepth 1)) r.token
  rw [parse?, write, Json.parse?_write hproper, Option.bind_eq_bind,
    Option.bind_some, ofJson?, toJson, hmessage]
  simp only [Option.bind_eq_bind, Option.bind_some, hpayload]
  rfl

end Response

namespace Reply

variable {r : Response}

/-- The bytes of a response are accepted as an answer to its own request only.
Then one value is a value, a part is a batch that goes on, a sequence and the end
of one are batches that do not, and a failure is itself. -/
theorem decode_ofText_write (hordered : r.payload.Ordered)
    (hfinite : ∀ n ∈ r.payload.numbers, n.isFinite)
    (hdepth : r.toJson.height ≤ Json.maxDepth)
    (hreader : ∀ n ∈ r.payload.numbers, ∀ numeral,
      n.toNumeral? .document = some numeral → numeral.toNumber? = some n)
    (token : Token) :
    decode (.ofText r.write) token =
      if r.token = token then
        match r.payload with
        | .value datum => .ok (.value datum)
        | .sequence items => .ok (.batch items none)
        | .part items continuation => .ok (.batch items (some continuation))
        | .done => .ok (.batch [] none)
        | .failure report => .ok (.failure report)
      else .error (.wrongToken r.token token) := by
  have hrestored : ∀ n ∈ r.payload.numbers, n.IsRestored := fun n hn =>
    Binary.isRestored_of_isFinite (hfinite n hn) (hreader n hn)
  have hparse : (Bytes.ofText r.write).toText?.bind Response.parse? = some r := by
    rw [Bytes.toText?_ofText, Option.bind_some,
      Response.parse?_write hordered hrestored hdepth]
  rw [decode, hparse]
  cases hpayload : r.payload <;> simp only [hpayload, ofPayload]

/-- Nulls as a row, in a row and next to a field of an object, one and a half and
a negative zero. -/
def sparseBatch : List Datum :=
  [.null,
    .object [("", .array [.null, .array []]), ("é", .null),
      ("ü", .number (.finite false ⟨0x3FF8000000000000, by decide⟩))],
    .number (.finite true ⟨0, by decide⟩)]

def sparseRows : Response := ⟨7, .part sparseBatch "\"next\" \x01"⟩

theorem decode_sparseRows :
    sparseRows.payload.Ordered ∧ (∀ n ∈ sparseRows.payload.numbers, n.isFinite) ∧
      sparseRows.toJson.height ≤ Json.maxDepth ∧
      (∀ n ∈ sparseRows.payload.numbers, ∀ numeral,
        n.toNumeral? .document = some numeral → numeral.toNumber? = some n) ∧
      decode (.ofText sparseRows.write) 7 =
        .ok (.batch sparseBatch (some "\"next\" \x01")) ∧
      decode (.ofText sparseRows.write) 8 = .error (.wrongToken 7 8) := by
  have hordered : sparseRows.payload.Ordered := by
    simp only [Payload.Ordered, sparseRows, sparseBatch, Datum.ItemsOrdered, Datum.Ordered,
      Datum.FieldsOrdered, Fields.Sorted, and_true, true_and]
    decide
  have hfinite : ∀ n ∈ sparseRows.payload.numbers, n.isFinite := by decide
  have hdepth : sparseRows.toJson.height ≤ Json.maxDepth := by decide +kernel
  have hreader : ∀ n ∈ sparseRows.payload.numbers,
      ∀ numeral ∈ n.toNumeral? .document, numeral.toNumber? = some n := by
    decide +kernel
  have hdecode := decode_ofText_write hordered hfinite hdepth hreader
  exact ⟨hordered, hfinite, hdepth, hreader, hdecode 7, hdecode 8⟩

end Reply

end DocumentQuery
