import DocumentQuery.Proofs.CursorDraining
import DocumentQuery.Proofs.CursorElements
import DocumentQuery.Proofs.CursorFailure
import DocumentQuery.Proofs.DatumVisitor
import DocumentQuery.Proofs.ResponseText

/-!
# The elements of a cursor are in order

A datum that was read from a document has the fields of all its objects in order.
All that a cursor ever stores was in a reply, so whatever it hands out is in order
too.  Hence reading the elements of a result as datums gives the very elements.
-/

namespace DocumentQuery

/-! ## Datums in replies -/

namespace Datum

theorem ordered_ofPairs {pairs : List (String × Datum)}
    (h : ∀ pair ∈ pairs, pair.2.Ordered) : (ofPairs pairs).Ordered :=
  ⟨Fields.sorted_ofList pairs, fieldsOrdered_iff.2 fun field hfield =>
    h field (Fields.mem_of_mem_ofList hfield)⟩

/-- A datum that was read from a document is in order, whatever the order of the
members was. -/
theorem ordered_of_ofJson? : ∀ {depth : Nat} {json : Json} {d : Datum},
    ofJson? depth json = some d → d.Ordered
  | _, .null, _, h | _, .bool _, _, h => by
    rw [ofJson?] at h
    cases h
    trivial
  | _, .number _, _, h | _, .string _, _, h => by
    rw [ofJson?] at h
    obtain ⟨value, _, rfl⟩ := Option.map_eq_some_iff.1 h
    trivial
  | 0, .array _, _, h | 0, .object _, _, h => by cases h
  | depth + 1, .array items, _, h => by
    rw [ofJson?] at h
    obtain ⟨values, hvalues, rfl⟩ := Option.map_eq_some_iff.1 h
    refine itemsOrdered_iff.2 fun d hd => ?_
    obtain ⟨item, _, hitem⟩ := exists_mem_of_mapM hvalues hd
    exact ordered_of_ofJson? hitem
  | depth + 1, .object members, _, h => by
    rw [ofJson?] at h
    obtain ⟨pairs, hpairs, rfl⟩ := Option.map_eq_some_iff.1 h
    refine ordered_ofPairs fun pair hpair => ?_
    obtain ⟨member, _, hmember⟩ := exists_mem_of_mapM hpairs hpair
    simp only [Option.bind_eq_bind, Option.bind_eq_some_iff] at hmember
    obtain ⟨name, _, value, hvalue, heq⟩ := hmember
    cases heq
    exact ordered_of_ofJson? hvalue

end Datum

namespace Payload

theorem itemsOrdered_of_batchOfJson? {json : Json} {batch : List Datum}
    (h : batchOfJson? json = some batch) : Datum.ItemsOrdered batch := by
  cases json with
  | array items =>
      refine Datum.itemsOrdered_iff.2 fun d hd => ?_
      obtain ⟨item, _, hitem⟩ := exists_mem_of_mapM h hd
      exact Datum.ordered_of_ofJson? hitem
  | _ => cases h

theorem ordered_of_ofMessage? {message : TaggedMessage} {p : Payload}
    (h : ofMessage? message = some p) : p.Ordered := by
  unfold ofMessage? at h
  simp only [Option.bind_eq_bind, Option.pure_def] at h
  split at h
  · simp only [Option.bind_eq_some_iff] at h
    obtain ⟨json, _, datum, hdatum, heq⟩ := h
    cases heq
    exact Datum.ordered_of_ofJson? hdatum
  · simp only [Option.bind_eq_some_iff] at h
    obtain ⟨json, _, batch, hbatch, heq⟩ := h
    cases heq
    exact itemsOrdered_of_batchOfJson? hbatch
  · simp only [Option.bind_eq_some_iff] at h
    obtain ⟨json, _, batch, hbatch, _, _, _, _, heq⟩ := h
    cases heq
    exact itemsOrdered_of_batchOfJson? hbatch
  · cases h
    trivial
  · obtain ⟨report, _, rfl⟩ := Option.map_eq_some_iff.1 h
    trivial

end Payload

namespace Reply

/-- The datums in a reply have their fields in order. -/
def Ordered : Reply → Prop
  | .value datum => datum.Ordered
  | .batch items _ => ∀ d ∈ items, d.Ordered
  | .failure _ => True

theorem ordered_ofPayload {p : Payload} (h : p.Ordered) : (ofPayload p).Ordered := by
  cases p with
  | value datum => exact h
  | sequence batch => exact Datum.itemsOrdered_iff.1 h
  | part batch continuation => exact Datum.itemsOrdered_iff.1 h
  | done => exact List.forall_mem_nil _
  | failure report => trivial

theorem ordered_of_decode {bytes : Bytes} {token : Token} {reply : Reply}
    (h : decode bytes token = .ok reply) : reply.Ordered := by
  unfold decode at h
  split at h
  · cases h
  · next response hparse =>
    split at h
    · cases h
      obtain ⟨text, _, hresponse⟩ := Option.bind_eq_some_iff.1 hparse
      unfold Response.parse? Response.ofJson? at hresponse
      simp only [Option.bind_eq_bind, Option.bind_eq_some_iff] at hresponse
      obtain ⟨json, _, message, _, payload, hpayload, heq⟩ := hresponse
      cases heq
      exact ordered_ofPayload (Payload.ordered_of_ofMessage? hpayload)
    · cases h

end Reply

/-! ## Cursors -/

namespace Cursor

variable {σ : Type}

/-- All that the cursor stores is in order. -/
structure Orderly (c : Cursor) : Prop where
  single : ∀ d ∈ c.single, d.Ordered
  buffer : ∀ d ∈ c.buffer, d.Ordered

theorem Orderly.unfoldSingle {c : Cursor} (hc : c.Orderly) : c.unfoldSingle.Orderly := by
  refine ⟨by simp, ?_⟩
  unfold Cursor.unfoldSingle
  split
  · exact hc.buffer
  · next items hsingle =>
    exact List.forall_mem_append.2
      ⟨hc.buffer, Datum.itemsOrdered_iff.1 (hc.single _ hsingle)⟩
  · next d _ hsingle =>
    exact List.forall_mem_append.2
      ⟨hc.buffer, List.forall_mem_singleton.2 (hc.single _ hsingle)⟩

theorem Orderly.receive {c : Cursor} (hc : c.Orderly) {items : List Datum}
    (hitems : ∀ d ∈ items, d.Ordered) (more : Option String) :
    (c.receive items more).Orderly :=
  ⟨hc.single, List.forall_mem_append.2 ⟨hc.buffer, hitems⟩⟩

theorem orderly_start (s : Session σ) (token : Token) (shape : ResultShape)
    {reply : Reply} (hreply : reply.Ordered) :
    (Cursor.start s token shape reply).1.Orderly := by
  cases reply with
  | value datum =>
      have hdatum : datum.Ordered := hreply
      exact ⟨by simpa [Cursor.start] using hdatum, by simp [Cursor.start]⟩
  | batch items more =>
      exact Orderly.receive ⟨by simp, by simp⟩ hreply more
  | failure report => exact ⟨by simp [Cursor.start], by simp [Cursor.start]⟩

theorem ordered_of_batchOf {bytes : Bytes} {token : Token} {items : List Datum}
    {more : Option String} (h : batchOf bytes token = .ok (items, more)) :
    ∀ d ∈ items, d.Ordered := by
  unfold batchOf at h
  split at h
  · cases h
  · cases h
  · cases h
  · next hdecode =>
    cases h
    exact Reply.ordered_of_decode hdecode

variable [Connection σ]

theorem Move.orderly {a b : Cursor × Session σ} (hmove : Move a b)
    (ha : a.1.Orderly) : b.1.Orderly := by
  cases hmove with
  | unfolded _ => exact ha.unfoldSingle
  | handedOut _ _ hbuffer =>
      exact ⟨ha.single, fun d hd => ha.buffer d (hbuffer ▸ List.mem_cons_of_mem _ hd)⟩
  | taken _ _ => exact ⟨by simp, ha.buffer⟩
  | received _ _ _ hbatch => exact ha.receive (ordered_of_batchOf hbatch) _
  | dropped _ => exact ⟨by simp, by simp⟩
  | stopped _ _ => exact ⟨by simp, by simp⟩
  | abandoned | lost | unreachable | misanswered | refused | noted | aggregated =>
      exact ⟨ha.single, ha.buffer⟩

theorem Moves.orderly {a b : Cursor × Session σ} (h : Moves a b)
    (ha : a.1.Orderly) : b.1.Orderly :=
  h.keeps (P := fun a => a.1.Orderly) (fun _ _ => Move.orderly) ha

theorem Operation.orderly (operation : Operation) {c : Cursor} (hc : c.Orderly)
    (s : Session σ) : (operation.perform c s).1.Orderly :=
  (operation.moves c s).orderly hc

theorem Orderly.after {c : Cursor} (hc : c.Orderly)
    (later : List (Session σ × Operation)) : (c.after later).Orderly := by
  induction later generalizing c with
  | nil => exact hc
  | cons call later ih => exact ih (call.2.orderly hc call.1)

theorem Reachable.orderly {c : Cursor} (hc : c.Reachable σ) : c.Orderly := by
  obtain ⟨q, s, s', first, earlier, hrun, rfl⟩ := hc
  obtain ⟨_, _, noted, _, _, reply, _, _, hdecode, _, _, rfl⟩ := Query.run_ok hrun
  exact (orderly_start noted _ _ (Reply.ordered_of_decode hdecode)).after earlier

/-! ## What is handed out -/

variable {c c₁ : Cursor} {s s₁ : Session σ}

theorem Orderly.next (hc : c.Orderly) {element : Option Datum}
    (hnext : c.next s = (.ok element, c₁, s₁)) : ∀ d ∈ element, d.Ordered := by
  fun_induction Cursor.next c s with
  | case1 c s call hblocked =>
      exact (blocked?_ne_ok hblocked (congrArg Prod.fst hnext)).elim
  | case2 c s hfree datum rest hstored =>
      cases hnext
      have hmem : datum ∈ c.stored := by
        rw [hstored]
        exact List.mem_cons_self
      rintro d ⟨⟩
      exact hc.unfoldSingle.buffer datum hmem
  | case3 =>
      cases hnext
      simp
  | case4 c s hfree hstored continuation hcontinuation c₂ s₂ hfetch hless ih =>
      -- What was stored is used up, so the element is in the batch that came.
      have hready := blocked?_eq_none_iff.1 hfree
      have hmoves := (Reads.fetch (s := s) hready hstored hcontinuation).moves
      rw [hfetch] at hmoves
      exact ih (hmoves.orderly hc) hnext
  | case5 => cases hnext
  | case6 => cases hnext

theorem Orderly.of_next (hc : c.Orderly) {element : Option Datum}
    (hnext : c.next s = (.ok element, c₁, s₁)) : c₁.Orderly := by
  have horderly := Operation.next.orderly hc s
  rwa [Operation.perform, hnext] at horderly

/-- Exactly one value is the single value, or the first element. -/
theorem single_or_next_of_oneDatum {d : Datum} (hone : c.oneDatum s = (.ok d, c₁, s₁)) :
    c.single = some d ∨ ∃ c₂ s₂, c.next s = (.ok (some d), c₂, s₂) := by
  unfold Cursor.oneDatum at hone
  split at hone
  · next call hblocked =>
    exact (blocked?_ne_ok hblocked (congrArg Prod.fst hone)).elim
  · split at hone
    · next hsingle =>
      cases hone
      exact .inl hsingle
    · obtain ⟨_ | first, c₂, s₂, hfirst, hrest⟩ := andThen_ok hone
      · cases hrest
      · obtain ⟨_ | second, c₃, s₃, _, hlast⟩ := andThen_ok hrest
        · cases hlast
          exact .inr ⟨c₂, s₂, hfirst⟩
        · cases hlast

theorem Orderly.oneDatum (hc : c.Orderly) {d : Datum}
    (hone : c.oneDatum s = (.ok d, c₁, s₁)) : d.Ordered := by
  rcases single_or_next_of_oneDatum hone with hsingle | ⟨c₂, s₂, hnext⟩
  · exact hc.single d hsingle
  · exact hc.next hnext d rfl

theorem Orderly.takes (hc : c.Orderly) {elements : List Datum}
    (htakes : Takes c s elements c₁ s₁) : ∀ d ∈ elements, d.Ordered := by
  induction htakes with
  | nothing => simp
  | next hnext _ ih =>
      exact List.forall_mem_cons.2 ⟨hc.next hnext _ rfl, ih (hc.of_next hnext)⟩

/-! ## Elements read as datums -/

theorem Orderly.one_any (hc : c.Orderly) (s : Session σ) :
    c.one Reader.any s = c.oneDatum s := by
  rw [Cursor.one]
  rcases hone : c.oneDatum s with ⟨d | fault | _, c₁, s₁⟩
  · have hread := Datum.readAs_any (hc.oneDatum hone)
    simp only [Call.andThen, hread]
    rfl
  · rfl
  · rfl

theorem Orderly.readAs_any (hc : c.Orderly) {elements : List Datum}
    (htakes : Takes c s elements c₁ s₁) : ReadAs Reader.any elements elements :=
  List.forall₂_same.2 fun d hd => Datum.readAs_any (hc.takes htakes d hd)

theorem Orderly.collectInto_any (hc : c.Orderly) {elements : List Datum}
    (htakes : Takes c s elements c₁ s₁) {ending : Call σ Unit}
    (hends : Ends c₁ s₁ ending) (done : List Datum) :
    c.collectInto Reader.any done s = (done ++ elements, ending) := by
  rw [htakes.collectInto (hc.readAs_any htakes), hends.collectInto]

end Cursor

/-- Reading a datum as a datum gives the datum itself, whatever numbers are in it.
Hence exactly one value, read as a datum, is the value itself, and collecting datums
gives the elements that calls of `next` hand out.  A datum of finite numbers can be
read as a document, and the document, taken as a datum, is the one it came from. -/
theorem datums_read_back :
    (∀ d : Datum, d.Ordered → d.readAs Reader.any = .ok d) ∧
    (∀ (σ : Type) [Connection σ] (c : Cursor), c.Reachable σ → ∀ s : Session σ,
      c.one Reader.any s = c.oneDatum s ∧
      (∃ elements c₁ s₁ ending, Cursor.Takes c s elements c₁ s₁ ∧
        Cursor.Ends c₁ s₁ ending) ∧
      ∀ elements c₁ s₁ ending, Cursor.Takes c s elements c₁ s₁ →
        Cursor.Ends c₁ s₁ ending →
          (∀ done, c.collectInto Reader.any done s = (done ++ elements, ending)) ∧
          c.collect Reader.any s =
            ending.andThen fun _ c s => (.ok elements, c, s)) ∧
    ∀ v : Visitor JsonValue, v.MakesDocuments → ∀ d : Datum, d.Ordered → d.isFinite →
      ∃ value, d.readAs (Reader.visit v) = .ok value ∧ value.toDatum = d := by
  refine ⟨fun d => Datum.readAs_any, fun σ _ c hreachable s => ?_,
    fun v hv d hordered hfinite => ?_⟩
  · have hc := hreachable.orderly
    refine ⟨hc.one_any s, Cursor.exists_takes_ends c s,
      fun elements c₁ s₁ ending htakes hends => ?_⟩
    have hcollect := hc.collectInto_any htakes hends
    refine ⟨hcollect, ?_⟩
    rw [Cursor.collect, hcollect, List.nil_append]
  · exact ⟨d.toValue, hv.readAs hordered, d.toDatum_toValue hordered hfinite⟩

/-- An object within an array within an object, with a zero of either sign. -/
def nestedZeros : Datum :=
  .object [("a", .array [.null, .object [("x", .number (.ofRank true 0))]]),
    ("b", .number .zero)]

/-- The zeros keep their signs, what is no number stays so, and null as the only
element of a sequence is collected. -/
theorem datums_read_back_nestedZeros :
    Visitor.document.MakesDocuments ∧ nestedZeros.Ordered ∧ nestedZeros.isFinite ∧
      (Datum.array [.number .nan, nestedZeros]).readAs Reader.any =
        .ok (.array [.number .nan, nestedZeros]) ∧
      (∃ value : JsonValue, nestedZeros.readAs (Reader.visit .document) = .ok value ∧
        value.toDatum = nestedZeros) ∧
      ∃ (c c₁ : Cursor) (s : Session Script), c.Reachable Script ∧
        c.one Reader.any s = c.oneDatum s ∧
        c.collect Reader.any s = (.ok [.null], c₁, s) := by
  have hordered : nestedZeros.Ordered := by
    simp only [nestedZeros, Datum.Ordered, Datum.ItemsOrdered, Datum.FieldsOrdered,
      Fields.Sorted, and_true, true_and]
    decide
  have hfinite : nestedZeros.isFinite := by decide
  let c : Cursor := { token := 1, shape := .other, buffer := [.null] }
  obtain ⟨s, hrun⟩ : ∃ s, Query.null.run Cursor.singleSession = (.ok c, s) :=
    Query.run_batch rfl rfl rfl rfl Cursor.decode_singleBatch
  have hreachable : c.Reachable Script := ⟨Query.null, _, s, c, [], hrun, rfl⟩
  have hfirst : c.next s = (.ok (some .null), { c with buffer := [] }, s) := by
    rw [Cursor.next]
    rfl
  have hsecond : ({ c with buffer := [] } : Cursor).next s =
      (.ok none, { c with buffer := [] }, s) := by
    rw [Cursor.next]
    rfl
  obtain ⟨hsame, helements, hdocument⟩ := datums_read_back
  obtain ⟨hone, -, hcollect⟩ := helements Script c hreachable s
  exact ⟨Visitor.document_makesDocuments, hordered, hfinite,
    hsame _ ⟨trivial, hordered, trivial⟩,
    hdocument _ Visitor.document_makesDocuments _ hordered hfinite,
    c, { c with buffer := [] }, s, hreachable, hone,
    (hcollect [.null] _ _ _ (.next hfirst .nothing) (.exhausted hsecond)).2⟩

end DocumentQuery
