import DocumentQuery.Proofs.BuilderProgram
import DocumentQuery.Proofs.CursorMoves
import DocumentQuery.Session.Script

/-!
# Writes of one document

The summary of a write that is meant for the document with a key is checked
before it is accepted, and it is checked counter by counter: no counter may hold
more than one row.  So an accepted summary reports as many rows as it has
counters in use, and that may be more than one.
-/

namespace DocumentQuery

/-! ## The check -/

theorem Counter.mem_all (counter : Counter) : counter ∈ Counter.all := by
  cases counter <;> simp [Counter.all]

namespace WriteOutcome

theorem checkPoint_eq_ok_iff {o : WriteOutcome} :
    o.checkPoint = .ok () ↔ ∀ counter, o.count counter ≤ 1 := by
  unfold checkPoint
  cases hfound : Counter.all.find? fun counter => decide (1 < o.count counter) with
  | none =>
      simp only [List.find?_eq_none, decide_eq_true_eq, UInt64.not_lt] at hfound
      simp [fun counter => hfound counter counter.mem_all]
  | some counter =>
      have hmany := List.find?_some hfound
      simp only [decide_eq_true_eq] at hmany
      simp only [reduceCtorEq, false_iff, not_forall, UInt64.not_le]
      exact ⟨counter, hmany⟩

theorem toNat_total (o : WriteOutcome) :
    o.total.toNat =
      (Counter.all.map fun counter => (o.count counter).toNat).sum % 2 ^ 64 := by
  simp only [total, Counter.all, count, UInt64.toNat_add, List.map_cons, List.map_nil,
    List.sum_cons, List.sum_nil]
  omega

theorem sum_count_eq_countP {o : WriteOutcome}
    (h : ∀ counter, o.count counter ≤ 1) (counters : List Counter) :
    (counters.map fun counter => (o.count counter).toNat).sum =
      counters.countP fun counter => o.count counter = 1 := by
  induction counters with
  | nil => rfl
  | cons counter rest ih =>
      have hle : (o.count counter).toNat ≤ 1 := UInt64.le_iff_toNat_le.1 (h counter)
      rw [List.map_cons, List.sum_cons, List.countP_cons, ih]
      simp only [decide_eq_true_eq, ← UInt64.toNat_inj, UInt64.toNat_one]
      split <;> omega

/-- Where no counter exceeds one, the rows are as many as the counters in use. -/
theorem total_eq_countP {o : WriteOutcome}
    (h : ∀ counter, o.count counter ≤ 1) :
    o.total.toNat = Counter.all.countP fun counter => o.count counter = 1 := by
  have hfew : Counter.all.countP (fun counter => o.count counter = 1) ≤ 6 :=
    List.countP_le_length
  rw [toNat_total, sum_count_eq_countP h]
  omega

end WriteOutcome

/-! ## Shapes -/

/-- The operators that write the document with a key, and the sort of each. -/
inductive PointWrite : TermKind → WriteKind → Prop where
  | update : PointWrite .update .update
  | replace : PointWrite .replace .replace
  | delete : PointWrite .delete .delete

theorem Query.shape_of_pointWrite {q : Query} {operator : TermKind}
    {kind : WriteKind} (hwrite : PointWrite operator kind)
    (hoperator : q.expr.operator? = some operator) (hpoint : q.isPoint) :
    q.shape = .write kind true := by
  cases hwrite <;> simp [shape, hoperator, hpoint]

namespace Cursor

variable {σ : Type}

theorem start_shape (s : Session σ) (token : Token) (shape : ResultShape)
    (reply : Reply) : (Cursor.start s token shape reply).1.shape = shape := by
  cases reply <;> rfl

theorem unfoldSingle_shape (c : Cursor) : c.unfoldSingle.shape = c.shape := by
  unfold Cursor.unfoldSingle
  split <;> rfl

variable [Connection σ]

theorem Move.shape {a b : Cursor × Session σ} (hmove : Move a b) :
    b.1.shape = a.1.shape := by
  cases hmove with
  | unfolded _ => exact unfoldSingle_shape _
  | _ => rfl

theorem Operation.shape (operation : Operation) (c : Cursor) (s : Session σ) :
    (operation.perform c s).1.shape = c.shape :=
  (operation.moves c s).keeps (P := fun x => x.1.shape = c.shape)
    (fun _ _ hmove hx => hmove.shape.trans hx) rfl

theorem after_shape (c : Cursor) (later : List (Session σ × Operation)) :
    (c.after later).shape = c.shape := by
  induction later generalizing c with
  | nil => rfl
  | cons call later ih => exact (ih _).trans (call.2.shape c call.1)

/-! ## Accepted summaries -/

theorem writeOutcome_ok_iff {c : Cursor} {kind : WriteKind}
    (hshape : c.shape = .write kind true) (s : Session σ) (o : WriteOutcome) :
    (c.writeOutcome s).1 = .ok o ↔
      ∃ d, (c.oneDatum s).1 = .ok d ∧ WriteOutcome.ofDatum kind d = .ok o ∧
        ∀ counter, o.count counter ≤ 1 := by
  simp only [← WriteOutcome.checkPoint_eq_ok_iff]
  unfold Cursor.writeOutcome
  rw [hshape]
  obtain ⟨d | fault | _, c₁, s₁⟩ := c.oneDatum s
  · cases hsummary : WriteOutcome.ofDatum kind d with
    | error cause => simp [Call.andThen, hsummary, fail_eq]
    | ok outcome =>
        cases hcheck : outcome.checkPoint with
        | error cause =>
            simp only [Call.andThen, hsummary, hcheck, if_true, fail_eq,
              reduceCtorEq, false_iff, not_exists, not_and]
            rintro _ ⟨⟩ hother haccepted
            cases hsummary.symm.trans hother
            cases hcheck.symm.trans haccepted
        | ok _ =>
            simp [Call.andThen, hsummary, hcheck]
            rintro rfl
            exact hcheck
  · simp [Call.andThen]
  · simp [Call.andThen]

end Cursor

/-- The cursor of a write that is meant for the document with a key accepts a
summary exactly if no counter of it exceeds one.  The rows of an accepted
summary are its counters in use. -/
theorem Query.pointWrite_accepts {σ : Type} [Connection σ] {q : Query}
    {operator : TermKind} {kind : WriteKind} (hwrite : PointWrite operator kind)
    (hoperator : q.expr.operator? = some operator) (hpoint : q.isPoint)
    {s s' : Session σ} {c : Cursor} (hrun : q.run s = (.ok c, s'))
    (earlier : List (Session σ × Cursor.Operation)) (t : Session σ)
    (o : WriteOutcome) :
    (((c.after earlier).writeOutcome t).1 = .ok o ↔
      ∃ d, ((c.after earlier).oneDatum t).1 = .ok d ∧
        WriteOutcome.ofDatum kind d = .ok o ∧ ∀ counter, o.count counter ≤ 1) ∧
    (((c.after earlier).writeOutcome t).1 = .ok o →
      o.total.toNat = Counter.all.countP fun counter => o.count counter = 1) := by
  have hshape : (c.after earlier).shape = .write kind true := by
    obtain ⟨_, _, noted, _, _, reply, _, _, _, _, _, rfl⟩ := Query.run_ok hrun
    rw [Cursor.after_shape, Cursor.start_shape]
    exact Query.shape_of_pointWrite hwrite hoperator hpoint
  have haccepts := Cursor.writeOutcome_ok_iff hshape t o
  refine ⟨haccepts, fun hok => ?_⟩
  obtain ⟨_, _, _, hcounts⟩ := haccepts.1 hok
  exact WriteOutcome.total_eq_countP hcounts

/-! ## Two rows -/

/-- A write without warnings yields a cursor when the server answers with one
value. -/
theorem Query.run_value {σ : Type} [Connection σ] {q : Query} {s : Session σ}
    {connection : σ} {term : Term} {bytes : Bytes} {d : Datum}
    {kind : WriteKind} {point : Bool} (hshape : q.shape = .write kind point)
    (hcompile : q.compileWithWarnings (some s.settings.defaultDatabase) =
      (.ok term, []))
    (hopen : s.closed = false)
    (hsend : Connection.send ⟨s.nextToken, .start term s.settings.startOptions⟩
      s.connection = (.reply bytes, connection))
    (hdecode : Reply.decode bytes s.nextToken = .ok (.value d)) :
    ∃ s', q.run s =
      (.ok ⟨s.nextToken, .write kind point, some d, [], none, false, none,
        some .evaluated⟩, s') := by
  unfold Query.run
  rw [hcompile, hshape]
  simp only [List.map_nil, Session.noteAll_eq, Session.takeToken, Session.note,
    Session.send, ResultShape.isWrite, hopen, hsend, hdecode,
    Bool.false_eq_true, if_false, if_true]
  exact ⟨_, rfl⟩

/-- A summary of one row that was removed and one that was made. -/
def twoRows : Bytes :=
  .ofText
    "\x7b\"token\":1,\"type\":\"value\",\"value\":\x7b\"deleted\":1,\"inserted\":1\x7d\x7d"

/-- The summary that a reply is, if it is one. -/
def Reply.summary? (kind : WriteKind) : Reply → Option WriteOutcome
  | .value d => (WriteOutcome.ofDatum kind d).toOption
  | _ => none

theorem Reply.exists_of_summary? {kind : WriteKind}
    {result : Except DecodeFault Reply} {o : WriteOutcome}
    (h : result.toOption.bind (summary? kind) = some o) :
    ∃ d, result = .ok (.value d) ∧ WriteOutcome.ofDatum kind d = .ok o := by
  cases result with
  | error cause => cases h
  | ok reply =>
      cases reply with
      | value d =>
          have hd : (WriteOutcome.ofDatum kind d).toOption = some o := h
          cases hsummary : WriteOutcome.ofDatum kind d with
          | error cause => rw [hsummary] at hd; cases hd
          | ok o' => rw [hsummary] at hd; cases hd; exact ⟨d, rfl, hsummary⟩
      | _ => cases h

theorem decode_twoRows :
    ∃ (d : Datum) (o : WriteOutcome), Reply.decode twoRows 1 = .ok (.value d) ∧
      WriteOutcome.ofDatum .replace d = .ok o ∧ o.inserted = 1 ∧ o.deleted = 1 ∧
      o.total = 2 ∧ o.checkPoint = .ok () := by
  have hcheck : ((Reply.decode twoRows 1).toOption.bind
      (Reply.summary? .replace)).map (fun o =>
        (o.inserted, o.deleted, o.total, o.checkPoint.isOk)) =
        some (1, 1, 2, true) := by decide +kernel
  obtain ⟨o, hsummary, hcounts⟩ := Option.map_eq_some_iff.1 hcheck
  simp only [Prod.mk.injEq] at hcounts
  obtain ⟨hinserted, hdeleted, htotal, hpoint⟩ := hcounts
  obtain ⟨d, hdecode, hreplace⟩ := Reply.exists_of_summary? hsummary
  refine ⟨d, o, hdecode, hreplace, hinserted, hdeleted, htotal, ?_⟩
  cases hresult : o.checkPoint with
  | ok _ => rfl
  | error _ => simp [hresult, Except.isOk, Except.toBool] at hpoint

def Expr.keyedReplace : Expr :=
  let name : Expr := ⟨0, .literal (.string "t"), [], []⟩
  let key : Expr := ⟨2, .literal (.string "k"), [], []⟩
  let document : Expr := ⟨4, .literal (.object [("id", .string "k")]), [], []⟩
  ⟨5, .operator .replace,
    [⟨3, .operator .get, [⟨1, .table, [name], []⟩, key], []⟩, document], []⟩

theorem Expr.keyedReplace_obtainable : keyedReplace.Obtainable := by
  refine ⟨Expr.table "t" >>= fun t => Expr.text "k" >>= fun key =>
    Expr.get t key >>= fun selection =>
      Expr.object [("id", key)] >>= fun document =>
        Expr.replaceWith selection document, ?_, rfl⟩
  refine .bind .table fun t => .bind .text fun key => .bind (.get ?_ ?_)
    fun selection => .bind (.object ?_) fun document => .replaceWith ?_ ?_
  all_goals simp

def twoRowsSession : Session Script :=
  { connection := ⟨[.reply fun _ => twoRows], none, 0⟩ }

theorem run_keyedReplace :
    ∃ (d : Datum) (o : WriteOutcome) (c : Cursor) (s : Session Script),
      Query.run ⟨Expr.keyedReplace, true⟩ twoRowsSession = (.ok c, s) ∧
      (c.oneDatum s).1 = .ok d ∧ WriteOutcome.ofDatum .replace d = .ok o ∧
      o.inserted = 1 ∧ o.deleted = 1 ∧ o.total = 2 ∧ o.checkPoint = .ok () := by
  obtain ⟨d, o, hdecode, hsummary⟩ := decode_twoRows
  let c : Cursor :=
    { token := 1, shape := .write .replace true, single := some d,
      writeState := some .evaluated }
  obtain ⟨s, hrun⟩ : ∃ s, Query.run ⟨Expr.keyedReplace, true⟩ twoRowsSession =
      (.ok c, s) :=
    Query.run_value rfl rfl rfl rfl hdecode
  exact ⟨d, o, c, s, hrun, rfl, hsummary⟩

/-- The summary of two rows is accepted, since both of its counters are one. -/
theorem keyedReplace_accepts :
    let q : Query := ⟨Expr.keyedReplace, true⟩
    q.expr.operator? = some .replace ∧ q.isPoint ∧
    ∃ (c : Cursor) (s : Session Script) (o : WriteOutcome),
      q.run twoRowsSession = (.ok c, s) ∧ (c.writeOutcome s).1 = .ok o ∧
      o.total.toNat = Counter.all.countP fun counter => o.count counter = 1 := by
  obtain ⟨d, o, c, s, hrun, hdatum, hsummary, _, _, _, hcheck⟩ :=
    run_keyedReplace
  obtain ⟨haccepts, htotal⟩ :=
    Query.pointWrite_accepts .replace rfl rfl hrun [] s o
  have hok := haccepts.2
    ⟨d, hdatum, hsummary, WriteOutcome.checkPoint_eq_ok_iff.1 hcheck⟩
  exact ⟨rfl, rfl, c, s, o, hrun, hok, htotal hok⟩

/-- A replacement that is meant for one document reports that it has removed one
row and made another, and its summary is accepted with a total of two. -/
theorem keyedReplace_total_not_le_one :
    Expr.keyedReplace.Obtainable ∧
    Query.shape ⟨Expr.keyedReplace, true⟩ = .write .replace true ∧
    ∃ (c : Cursor) (s : Session Script) (o : WriteOutcome),
      Query.run ⟨Expr.keyedReplace, true⟩ twoRowsSession = (.ok c, s) ∧
      (c.writeOutcome s).1 = .ok o ∧ o.inserted = 1 ∧ o.deleted = 1 ∧
      ¬ o.total ≤ 1 := by
  obtain ⟨d, o, c, s, hrun, hdatum, hsummary, hinserted, hdeleted, htotal,
    hcheck⟩ := run_keyedReplace
  have hshape : c.shape = .write .replace true := by
    obtain ⟨_, _, noted, _, _, reply, _, _, _, _, _, rfl⟩ := Query.run_ok hrun
    exact Cursor.start_shape noted _ _ reply
  have hok := (Cursor.writeOutcome_ok_iff hshape s o).2
    ⟨d, hdatum, hsummary, WriteOutcome.checkPoint_eq_ok_iff.1 hcheck⟩
  refine ⟨Expr.keyedReplace_obtainable, rfl, c, s, o, hrun, hok, hinserted,
    hdeleted, ?_⟩
  rw [htotal]
  decide

end DocumentQuery
