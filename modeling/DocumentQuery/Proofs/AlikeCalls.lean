import DocumentQuery.Proofs.GivenUpCall
import DocumentQuery.Proofs.OverlappingCalls

/-!
# Calls in different sessions

The same calls are made in two sessions, on cursors that differ in nothing but
their tokens.  As long as both connections answer a request alike, the calls go
alike: they end with the same values, or with faults that differ in the tokens
that they name, and they leave cursors behind that differ in nothing but their
tokens.  It is enough that the connections do so in calls after which the first of
them is in a state of a given kind, if this kind is never reached from others.
-/

namespace DocumentQuery

/-! ## The same up to tokens -/

inductive Fault.Alike (t t' : Token) : Fault → Fault → Prop where
  | same (fault : Fault) : Alike t t' fault fault
  | abandoned : Alike t t' (.connection (.fetchAbandoned t))
      (.connection (.fetchAbandoned t'))
  | misdirected {given given' : Token} : (t = t' → given = given') →
      Alike t t' (.decode (.wrongToken given t)) (.decode (.wrongToken given' t'))
  | unscripted : Alike t t'
      (.connection (.other ("no scripted reply for token " ++ toString t)))
      (.connection (.other ("no scripted reply for token " ++ toString t')))

/-- What a reply says is the same under two tokens. -/
inductive Reply.Alike (t t' : Token) :
    Except DecodeFault Reply → Except DecodeFault Reply → Prop where
  | ok (reply : Reply) : Alike t t' (.ok reply) (.ok reply)
  | error {cause cause' : DecodeFault} :
      Fault.Alike t t' (.decode cause) (.decode cause') →
      Alike t t' (.error cause) (.error cause')

inductive Exchange.Alike (t t' : Token) : Exchange → Exchange → Prop where
  | reply {bytes bytes' : Bytes} :
      Reply.Alike t t' (Reply.decode bytes t) (Reply.decode bytes' t') →
      Alike t t' (.reply bytes) (.reply bytes')
  | failed {fault fault' : Fault} :
      Fault.Alike t t' fault fault' → Alike t t' (.failed fault) (.failed fault')
  | unanswered : Alike t t' .unanswered .unanswered

inductive Outcome.Alike {α : Type} (t t' : Token) : Outcome α → Outcome α → Prop where
  | ok (value : α) : Alike t t' (.ok value) (.ok value)
  | error {fault fault' : Fault} :
      Fault.Alike t t' fault fault' → Alike t t' (.error fault) (.error fault')
  | pending : Alike t t' .pending .pending

structure Cursor.Alike (t t' : Token) (c c' : Cursor) : Prop where
  token : c.token = t
  token' : c'.token = t'
  shape : c.shape = c'.shape
  single : c.single = c'.single
  buffer : c.buffer = c'.buffer
  continuation : c.continuation = c'.continuation
  awaiting : c.awaiting = c'.awaiting
  fault : Option.Rel (Fault.Alike t t') c.fault c'.fault
  writeState : c.writeState = c'.writeState

variable {σ τ α β : Type}

/-- Two sessions that are both open or both closed, with related connections. -/
structure Session.Alike (R : σ → τ → Prop) (s : Session σ) (s' : Session τ) :
    Prop where
  closed : s.closed = s'.closed
  connection : R s.connection s'.connection

structure Call.Same (t t' : Token) (R : σ → τ → Prop) (call : Call σ α)
    (call' : Call τ α) : Prop where
  outcome : call.1.Alike t t' call'.1
  cursor : call.2.1.Alike t t' call'.2.1
  session : call.2.2.Alike R call'.2.2

/-- Two calls go alike if the first ends in a state of a kind. -/
def Call.Alike (t t' : Token) (T : σ → Prop) (R : σ → τ → Prop) (call : Call σ α)
    (call' : Call τ α) : Prop :=
  T call.2.2.connection → call.Same t t' R call'

/-- Related connections answer a request alike under two tokens, and stay related,
if the first is then in a state of a kind.  This kind of states is reached from no
others. -/
structure Connection.Answering [Connection σ] [Connection τ] (t t' : Token)
    (T : σ → Prop) (R : σ → τ → Prop) : Prop where
  before : ∀ (request : Request) (connection : σ),
    T (Connection.send ⟨t, request⟩ connection).2 → T connection
  send : ∀ connection connection', R connection connection' → ∀ request : Request,
    T (Connection.send ⟨t, request⟩ connection).2 →
      (Connection.send ⟨t, request⟩ connection).1.Alike t t'
          (Connection.send ⟨t', request⟩ connection').1 ∧
        R (Connection.send ⟨t, request⟩ connection).2
          (Connection.send ⟨t', request⟩ connection').2

section

variable {t t' : Token} {T : σ → Prop} {R : σ → τ → Prop}

theorem Session.Alike.note {s : Session σ} {s' : Session τ} (h : s.Alike R s')
    (event event' : Event) : (s.note event).Alike R (s'.note event') :=
  ⟨h.closed, h.connection⟩

theorem Session.Alike.noteAll {s : Session σ} {s' : Session τ} (h : s.Alike R s')
    (events events' : List Event) :
    (s.noteAll events).Alike R (s'.noteAll events') := by
  rw [Session.noteAll_eq, Session.noteAll_eq]
  exact ⟨h.closed, h.connection⟩

theorem Session.Alike.send [Connection σ] [Connection τ]
    (hR : Connection.Answering t t' T R) {s : Session σ} {s' : Session τ}
    (h : s.Alike R s') (request : Request)
    (hT : T (s.send ⟨t, request⟩).2.connection) :
    (s.send ⟨t, request⟩).1.Alike t t' (s'.send ⟨t', request⟩).1 ∧
      (s.send ⟨t, request⟩).2.Alike R (s'.send ⟨t', request⟩).2 := by
  have hclosed := h.closed
  unfold Session.send at hT ⊢
  by_cases hs : s.closed = true
  · rw [if_pos hs, if_pos (hclosed ▸ hs)]
    exact ⟨.failed (.same _), h⟩
  · rw [if_neg hs] at hT ⊢
    rw [if_neg (hclosed ▸ hs)]
    obtain ⟨hexchange, hconnection⟩ := hR.send _ _ h.connection request hT
    exact ⟨hexchange, hclosed, hconnection⟩

namespace Cursor

theorem Alike.unfoldSingle {c c' : Cursor} (h : c.Alike t t' c') :
    c.unfoldSingle.Alike t t' c'.unfoldSingle := by
  have hsingle := h.single
  unfold Cursor.unfoldSingle
  rw [← hsingle]
  split
  · exact h
  · exact { h with single := rfl, buffer := congrArg (· ++ _) h.buffer }
  · exact { h with single := rfl, buffer := congrArg (· ++ _) h.buffer }

theorem Alike.stored {c c' : Cursor} (h : c.Alike t t' c') : c.stored = c'.stored :=
  h.unfoldSingle.buffer

theorem Alike.fault_none {c c' : Cursor} (h : c.Alike t t' c') :
    c.fault = none ↔ c'.fault = none := by
  have hfault := h.fault
  generalize c.fault = fault at hfault
  generalize c'.fault = fault' at hfault
  cases hfault <;> simp

theorem Alike.ready {c c' : Cursor} (h : c.Alike t t' c') (hc : c.Ready) :
    c'.Ready :=
  ⟨h.awaiting.symm.trans hc.awaiting, h.fault_none.1 hc.fault⟩

theorem Alike.receive {c c' : Cursor} (h : c.Alike t t' c') (items : List Datum)
    (continuation : Option String) :
    (c.receive items continuation).Alike t t' (c'.receive items continuation) :=
  { h with buffer := congrArg (· ++ items) h.buffer, continuation := rfl }

/-! ## Calls -/

variable {s : Session σ} {s' : Session τ} {c c' : Cursor}

theorem Alike.fail (h : c.Alike t t' c') (hs : s.Alike R s') {fault fault' : Fault}
    (hfault : Fault.Alike t t' fault fault') :
    (c.fail s fault : Call σ α).Alike t t' T R (c'.fail s' fault') :=
  fun _ => ⟨.error hfault, { h with continuation := rfl, fault := .some hfault },
    hs.note _ _⟩

theorem Alike.blocked (h : c.Alike t t' c') (hs : s.Alike R s') :
    Option.Rel (Call.Alike t t' T R) (c.blocked? s : Option (Call σ α))
      (c'.blocked? s' : Option (Call τ α)) := by
  have hawaiting := h.awaiting
  have hfault := h.fault
  have habandoned : Fault.Alike t t' (.connection (.fetchAbandoned c.token))
      (.connection (.fetchAbandoned c'.token)) := by
    rw [h.token, h.token']
    exact .abandoned
  unfold blocked?
  by_cases hc : c.awaiting = true
  · rw [if_pos hc, if_pos (hawaiting ▸ hc)]
    have hnoticed : Cursor.Alike t t' { c with awaiting := false }
        { c' with awaiting := false } := { h with awaiting := rfl }
    exact .some (hnoticed.fail hs habandoned)
  · rw [if_neg hc, if_neg (hawaiting ▸ hc)]
    generalize c.fault = fault at hfault
    generalize c'.fault = fault' at hfault
    cases hfault with
    | none => exact .none
    | some hfault => exact .some fun _ => ⟨.error hfault, h, hs⟩

end Cursor

/-- What is so after all of a call was so after its first part. -/
theorem Call.before_andThen {call : Call σ α}
    {rest : α → Cursor → Session σ → Call σ β}
    (hrest : ∀ value c s, call = (.ok value, c, s) →
      T (rest value c s).2.2.connection → T s.connection)
    (hT : T (call.andThen rest).2.2.connection) : T call.2.2.connection := by
  obtain ⟨value | fault | _, c, s⟩ := call
  · exact hrest value c s rfl hT
  · exact hT
  · exact hT

theorem Call.Alike.andThen {call : Call σ α} {call' : Call τ α}
    (h : call.Alike t t' T R call') {rest : α → Cursor → Session σ → Call σ β}
    {rest' : α → Cursor → Session τ → Call τ β}
    (hbefore : ∀ value c s, call = (.ok value, c, s) →
      T (rest value c s).2.2.connection → T s.connection)
    (hrest : ∀ value (c c' : Cursor) (s : Session σ) (s' : Session τ),
      call = (.ok value, c, s) → c.Alike t t' c' → s.Alike R s' →
      (rest value c s).Alike t t' T R (rest' value c' s')) :
    (call.andThen rest).Alike t t' T R (call'.andThen rest') := by
  intro hT
  obtain ⟨houtcome, hcursor, hsession⟩ := h (Call.before_andThen hbefore hT)
  obtain ⟨outcome, c, s⟩ := call
  obtain ⟨outcome', c', s'⟩ := call'
  cases houtcome with
  | ok value => exact hrest value c c' s s' rfl hcursor hsession hT
  | error hfault => exact ⟨.error hfault, hcursor, hsession⟩
  | pending => exact ⟨.pending, hcursor, hsession⟩

theorem Call.Same.of_ok {value : α} {c : Cursor} {s : Session σ} {call' : Call τ α}
    (h : Call.Same t t' R (.ok value, c, s) call') :
    ∃ c' s', call' = (.ok value, c', s') ∧ c.Alike t t' c' ∧ s.Alike R s' := by
  obtain ⟨outcome', c', s'⟩ := call'
  obtain ⟨houtcome, hcursor, hsession⟩ := h
  cases houtcome with
  | ok => exact ⟨c', s', rfl, hcursor, hsession⟩

theorem Call.Same.of_error {fault : Fault} {c : Cursor} {s : Session σ}
    {call' : Call τ α} (h : Call.Same t t' R (.error fault, c, s) call') :
    ∃ fault' c' s', call' = (.error fault', c', s') ∧
      Fault.Alike t t' fault fault' ∧ c.Alike t t' c' ∧ s.Alike R s' := by
  obtain ⟨outcome', c', s'⟩ := call'
  obtain ⟨houtcome, hcursor, hsession⟩ := h
  cases houtcome with
  | error hfault => exact ⟨_, c', s', rfl, hfault, hcursor, hsession⟩

theorem Call.Same.of_pending {c : Cursor} {s : Session σ} {call' : Call τ α}
    (h : Call.Same t t' R (.pending, c, s) call') :
    ∃ c' s', call' = (.pending, c', s') ∧ c.Alike t t' c' ∧ s.Alike R s' := by
  obtain ⟨outcome', c', s'⟩ := call'
  obtain ⟨houtcome, hcursor, hsession⟩ := h
  cases houtcome with
  | pending => exact ⟨c', s', rfl, hcursor, hsession⟩

/-- What ends in a state of the kind has begun in one. -/
theorem Connection.Answering.before_moves [Connection σ] [Connection τ]
    (hR : Connection.Answering t t' T R) {a b : Cursor × Session σ}
    (hmoves : Cursor.Moves a b) (htoken : a.1.token = t) (hT : T b.2.connection) :
    T a.2.connection := by
  have hkeeps := hmoves.keeps
    (P := fun x => x.1.token = t ∧ (T x.2.connection → T a.2.connection))
    fun x y hmove hx => ⟨hmove.token.trans hx.1, hmove.keeps_connection
      (P := fun connection => T connection → T a.2.connection)
      (fun request connection h hsent => h (hR.before request connection hsent))
      hx.1 hx.2⟩
  exact (hkeeps ⟨htoken, id⟩).2 hT

namespace Cursor

theorem batchOf_alike {bytes bytes' : Bytes}
    (h : Reply.Alike t t' (Reply.decode bytes t) (Reply.decode bytes' t')) :
    (∃ batch, batchOf bytes t = .ok batch ∧ batchOf bytes' t' = .ok batch) ∨
      ∃ fault fault', batchOf bytes t = .error fault ∧
        batchOf bytes' t' = .error fault' ∧ Fault.Alike t t' fault fault' := by
  unfold batchOf
  generalize Reply.decode bytes t = said at h
  generalize Reply.decode bytes' t' = said' at h
  cases h with
  | error hcause => exact .inr ⟨_, _, rfl, rfl, hcause⟩
  | ok reply =>
      cases reply with
      | batch items more => exact .inl ⟨_, rfl, rfl⟩
      | value datum => exact .inr ⟨_, _, rfl, rfl, .same _⟩
      | failure report => exact .inr ⟨_, _, rfl, rfl, .same _⟩

variable [Connection σ] [Connection τ] {s : Session σ} {s' : Session τ}
  {c c' : Cursor}

theorem connection_fetch (c : Cursor) (s : Session σ) (continuation : String) :
    (c.fetch s continuation).2.2.connection =
      (s.send ⟨c.token, .resume continuation⟩).2.connection := by
  unfold Cursor.fetch
  split
  · next hsend => rw [hsend]
  · next hsend =>
    rw [hsend]
    rfl
  · next hsend =>
    rw [hsend]
    split <;> rfl

theorem Alike.fetch (hR : Connection.Answering t t' T R) (h : c.Alike t t' c')
    (hs : s.Alike R s') (continuation : String) :
    (c.fetch s continuation).Alike t t' T R (c'.fetch s' continuation) := by
  intro hT
  rw [connection_fetch, h.token] at hT
  have hsent := hs.send hR (.resume continuation) hT
  unfold Cursor.fetch
  rw [h.token, h.token']
  generalize s.send ⟨t, .resume continuation⟩ = sent at hsent hT
  generalize s'.send ⟨t', .resume continuation⟩ = sent' at hsent
  obtain ⟨exchange, after⟩ := sent
  obtain ⟨exchange', after'⟩ := sent'
  obtain ⟨hexchange, hafter⟩ := hsent
  cases hexchange with
  | unanswered =>
      have hwaits : Cursor.Alike t t' { c with awaiting := true }
          { c' with awaiting := true } := { h with awaiting := rfl }
      rw [h.token, h.token'] at hwaits
      exact ⟨.pending, hwaits, hafter⟩
  | failed hfault => exact h.fail hafter hfault hT
  | reply hsaid =>
      dsimp only
      rcases batchOf_alike hsaid with ⟨⟨items, more⟩, hbatch, hbatch'⟩ |
        ⟨fault, fault', hbatch, hbatch', hfault⟩
      · rw [hbatch, hbatch']
        exact ⟨.ok (), h.receive items more, hafter.note _ _⟩
      · rw [hbatch, hbatch']
        exact h.fail hafter hfault hT

theorem Alike.next_of_fetch (hR : Connection.Answering t t' T R)
    (h : c.Alike t t' c') (hs : s.Alike R s') (hc : c.Ready) (hstored : c.stored = [])
    {continuation : String} (hcontinuation : c.continuation = some continuation) :
    (c.unfoldSingle.fetch s continuation).Alike t t' T R
        (c'.unfoldSingle.fetch s' continuation) ∧
      c'.next s' = (c'.unfoldSingle.fetch s' continuation).andThen
        fun _ c s => c.next s :=
  ⟨h.unfoldSingle.fetch hR hs continuation,
    next_of_stored_nil (h.ready hc) (h.stored.symm.trans hstored)
      (h.continuation.symm.trans hcontinuation)⟩

theorem Alike.next (hR : Connection.Answering t t' T R) (h : c.Alike t t' c')
    (hs : s.Alike R s') : (c.next s).Alike t t' T R (c'.next s') := by
  fun_induction Cursor.next c s generalizing c' s' with
  | case1 c s call hblocked =>
      have hboth : Option.Rel (Call.Alike t t' T R) _ _ :=
        h.blocked (α := Option Datum) hs
      rw [hblocked] at hboth
      rw [Cursor.next]
      generalize (c'.blocked? s' : Option (Call τ (Option Datum))) = call' at hboth
      cases hboth with
      | some hcall => exact hcall
  | case2 c s hfree datum rest hstored =>
      have hready := h.ready (blocked?_eq_none_iff.1 hfree)
      rw [next_of_stored_cons hready (h.stored.symm.trans hstored)]
      exact fun _ => ⟨.ok _, { h.unfoldSingle with buffer := rfl }, hs⟩
  | case3 c s hfree hstored hcontinuation =>
      have hready := h.ready (blocked?_eq_none_iff.1 hfree)
      rw [next_of_exhausted hready (h.stored.symm.trans hstored)
        (h.continuation.symm.trans hcontinuation)]
      exact fun _ => ⟨.ok none, h.unfoldSingle, hs⟩
  | case4 c s hfree hstored continuation hcontinuation c₁ s₁ hfetch hless ih =>
      have hready := blocked?_eq_none_iff.1 hfree
      obtain ⟨hfetched, hnext⟩ := h.next_of_fetch hR hs hready hstored hcontinuation
      have htoken := (Reads.fetch (s := s) hready hstored hcontinuation).moves.token
      rw [hfetch] at hfetched htoken
      rw [hnext]
      show (Call.andThen ((.ok (), c₁, s₁) : Call σ Unit) fun _ c s => c.next s).Alike
        t t' T R _
      -- The batch may be empty, and then both ask for another one.
      refine hfetched.andThen (fun value d u hcall hT => ?_)
        fun value d d' u u' hcall hd hu => ?_
      · cases hcall
        exact hR.before_moves (Moves.next c₁ s₁) (htoken.trans h.token) hT
      · cases hcall
        exact ih hd hu
  | case5 c s hfree hstored continuation hcontinuation fault c₁ s₁ hfetch =>
      obtain ⟨hfetched, hnext⟩ := h.next_of_fetch hR hs
        (blocked?_eq_none_iff.1 hfree) hstored hcontinuation
      rw [hfetch] at hfetched
      rw [hnext]
      intro hT
      obtain ⟨fault', d, u, hfetch', hfault, hd, hu⟩ := (hfetched hT).of_error
      rw [hfetch']
      exact ⟨.error hfault, hd, hu⟩
  | case6 c s hfree hstored continuation hcontinuation c₁ s₁ hfetch =>
      obtain ⟨hfetched, hnext⟩ := h.next_of_fetch hR hs
        (blocked?_eq_none_iff.1 hfree) hstored hcontinuation
      rw [hfetch] at hfetched
      rw [hnext]
      intro hT
      obtain ⟨d, u, hfetch', hd, hu⟩ := (hfetched hT).of_pending
      rw [hfetch']
      exact ⟨.pending, hd, hu⟩

theorem Alike.oneDatum (hR : Connection.Answering t t' T R) (h : c.Alike t t' c')
    (hs : s.Alike R s') : (c.oneDatum s).Alike t t' T R (c'.oneDatum s') := by
  have hboth : Option.Rel (Call.Alike t t' T R) _ _ := h.blocked (α := Datum) hs
  have hsingle := h.single
  unfold Cursor.oneDatum
  generalize (c.blocked? s : Option (Call σ Datum)) = call at hboth
  generalize (c'.blocked? s' : Option (Call τ Datum)) = call' at hboth
  cases hboth with
  | some hcall => exact hcall
  | none =>
      rw [← hsingle]
      cases c.single with
      | some datum => exact fun _ => ⟨.ok datum, { h with single := rfl }, hs⟩
      | none =>
          refine (h.next hR hs).andThen (fun first d u hfirst hT => ?_)
            fun first d d' u u' _ hd hu => ?_
          · have htoken := (Moves.next c s).token
            rw [hfirst] at htoken
            cases first with
            | none => exact hT
            | some first =>
                refine hR.before_moves (Moves.next d u) (htoken.trans h.token) ?_
                refine Call.before_andThen (fun second d u _ hT => ?_) hT
                cases second <;> exact hT
          · cases first with
            | none => exact hd.fail hu (.same _)
            | some first =>
                refine (hd.next hR hu).andThen (fun second d u _ hT => ?_)
                  fun second d d' u u' _ hd hu => ?_
                · cases second <;> exact hT
                · cases second with
                  | none => exact fun _ => ⟨.ok first, hd, hu⟩
                  | some second => exact hd.fail hu (.same _)

theorem Alike.one (hR : Connection.Answering t t' T R) (h : c.Alike t t' c')
    (hs : s.Alike R s') (read : Reader α) :
    (c.one read s).Alike t t' T R (c'.one read s') := by
  refine (h.oneDatum hR hs).andThen (fun _ _ _ _ hT => hT)
    fun datum d d' u u' _ hd hu _ => ?_
  cases (datum.readAs read).mapError Fault.decode with
  | ok value => exact ⟨.ok value, hd, hu⟩
  | error fault => exact ⟨.error (.same fault), hd, hu⟩

theorem Alike.collectInto (hR : Connection.Answering t t' T R) (h : c.Alike t t' c')
    (hs : s.Alike R s') (read : Reader α) (done : List α)
    (hT : T (c.collectInto read done s).2.2.2.connection) :
    (c.collectInto read done s).1 = (c'.collectInto read done s').1 ∧
      (c.collectInto read done s).2.Same t t' R (c'.collectInto read done s').2 := by
  fun_induction Cursor.collectInto read done c s generalizing c' s' with
  | case1 done c s c₁ s₁ hnext =>
      have hboth := h.next hR hs
      rw [hnext] at hboth
      obtain ⟨d, u, hnext', hd, hu⟩ := (hboth hT).of_pending
      rw [collectInto_eq, hnext']
      exact ⟨rfl, .pending, hd, hu⟩
  | case2 done c s fault c₁ s₁ hnext =>
      have hboth := h.next hR hs
      rw [hnext] at hboth
      obtain ⟨fault', d, u, hnext', hfault, hd, hu⟩ := (hboth hT).of_error
      rw [collectInto_eq, hnext']
      exact ⟨rfl, .error hfault, hd, hu⟩
  | case3 done c s c₁ s₁ hnext =>
      have hboth := h.next hR hs
      rw [hnext] at hboth
      obtain ⟨d, u, hnext', hd, hu⟩ := (hboth hT).of_ok
      rw [collectInto_eq, hnext']
      exact ⟨rfl, .ok (), hd, hu⟩
  | case4 done c s datum c₁ s₁ hnext value hread hless ih =>
      have hboth := h.next hR hs
      have htoken := (Moves.next c s).token
      rw [hnext] at hboth htoken
      have hT₁ : T s₁.connection :=
        hR.before_moves (Moves.collectInto read _ c₁ s₁) (htoken.trans h.token) hT
      obtain ⟨d, u, hnext', hd, hu⟩ := (hboth hT₁).of_ok
      rw [collectInto_eq read done c', hnext']
      simp only [hread]
      exact ih hd hu hT
  | case5 done c s datum c₁ s₁ hnext cause hread =>
      have hboth := h.next hR hs
      rw [hnext] at hboth
      obtain ⟨d, u, hnext', hd, hu⟩ := (hboth hT).of_ok
      rw [collectInto_eq, hnext']
      simp only [hread, true_and]
      exact hd.fail hu (.same _) hT

theorem Alike.collect (hR : Connection.Answering t t' T R) (h : c.Alike t t' c')
    (hs : s.Alike R s') (read : Reader α) :
    (c.collect read s).Alike t t' T R (c'.collect read s') := by
  intro hT
  have hread : T (c.collectInto read [] s).2.2.2.connection :=
    collect_snd read c s ▸ hT
  obtain ⟨hvalues, hcall⟩ := h.collectInto hR hs read [] hread
  have hboth : (c.collectInto read [] s).2.Alike t t' T R
      (c'.collectInto read [] s').2 := fun _ => hcall
  unfold Cursor.collect
  dsimp only
  rw [← hvalues]
  exact hboth.andThen (fun _ _ _ _ hT => hT)
    (fun _ d d' u u' _ hd hu _ => ⟨.ok _, hd, hu⟩) hT

theorem Alike.writeOutcome (hR : Connection.Answering t t' T R) (h : c.Alike t t' c')
    (hs : s.Alike R s') : (c.writeOutcome s).Alike t t' T R (c'.writeOutcome s') := by
  unfold Cursor.writeOutcome
  rw [← h.shape]
  refine (h.oneDatum hR hs).andThen (fun datum d u _ hT => ?_)
    fun datum d d' u u' _ hd hu => ?_
  · rw [Session.noteAll_eq] at hT
    dsimp only at hT
    split at hT
    · exact hT
    · split at hT <;> exact hT
  · have hnoted := fun names => hu.noteAll (names : List Event) names
    dsimp only
    split
    · exact hd.fail (hnoted _) (.same _)
    · split
      · exact hd.fail (hnoted _) (.same _)
      · exact fun _ => ⟨.ok _, { hd with writeState := rfl }, (hnoted _).note _ _⟩

theorem connection_close {continuation : String} (hc : c.continuation = some continuation) :
    (c.close s).2.2.connection =
      ((s.note (.stopping c.token)).send ⟨c.token, .stop⟩).2.connection := by
  rw [Cursor.close, hc]
  dsimp only
  split
  · next hsend => rw [hsend]
  · next hsend => rw [hsend]
  · next hsend =>
    rw [hsend]
    split <;> rfl

theorem Alike.close (hR : Connection.Answering t t' T R) (h : c.Alike t t' c')
    (hs : s.Alike R s') : (c.close s).Alike t t' T R (c'.close s') := by
  intro hT
  cases hcontinuation : c.continuation with
  | none =>
      rw [Cursor.close, Cursor.close, ← h.continuation, hcontinuation]
      exact ⟨.ok (), { h with single := rfl, buffer := rfl, continuation := rfl }, hs⟩
  | some continuation =>
      rw [connection_close hcontinuation, h.token] at hT
      have hclosed : Cursor.Alike t t'
          { c with single := none, buffer := [], continuation := none }
          { c' with single := none, buffer := [], continuation := none } :=
        { h with single := rfl, buffer := rfl, continuation := rfl }
      have hsent := (hs.note (.stopping t) (.stopping t')).send hR .stop hT
      rw [Cursor.close, Cursor.close, ← h.continuation, hcontinuation]
      dsimp only
      rw [h.token, h.token'] at hclosed ⊢
      generalize (s.note (.stopping t)).send ⟨t, .stop⟩ = sent at hsent
      generalize (s'.note (.stopping t')).send ⟨t', .stop⟩ = sent' at hsent
      obtain ⟨exchange, after⟩ := sent
      obtain ⟨exchange', after'⟩ := sent'
      obtain ⟨hexchange, hafter⟩ := hsent
      cases hexchange with
      | unanswered => exact ⟨.pending, hclosed, hafter⟩
      | failed hfault => exact ⟨.error hfault, hclosed, hafter⟩
      | @reply bytes bytes' hsaid =>
          dsimp only
          generalize Reply.decode bytes t = said at hsaid
          generalize Reply.decode bytes' t' = said' at hsaid
          cases hsaid with
          | error hcause => exact ⟨.error hcause, hclosed, hafter⟩
          | ok reply =>
              cases reply with
              | failure report => exact ⟨.error (.same _), hclosed, hafter⟩
              | value datum => exact ⟨.ok (), hclosed, hafter⟩
              | batch items more => exact ⟨.ok (), hclosed, hafter⟩

end Cursor

/-! ## Runs and reports -/

inductive Report.Alike (t t' : Token) : Report → Report → Prop where
  | intro {Element Value : Type} {kept kept' : List Element}
      {outcome outcome' : Outcome Value} :
      kept = kept' → outcome.Alike t t' outcome' →
      Alike t t' ⟨kept, outcome⟩ ⟨kept', outcome'⟩

theorem Report.Alike.of {α : Type} {outcome outcome' : Outcome α}
    (h : outcome.Alike t t' outcome') :
    Report.Alike t t' (Report.of outcome) (Report.of outcome') :=
  .intro rfl h

inductive Use.Alike (t t' : Token) : Use → Use → Prop where
  | run (q : Query) : Alike t t' (.run q) (.run q)
  | call {c c' : Cursor} (operation : Cursor.Operation) :
      c.Alike t t' c' → Alike t t' (.call c operation) (.call c' operation)

variable [Connection σ] [Connection τ] {s : Session σ} {s' : Session τ}

theorem Reply.cursor_alike (t t' : Token) (shape : ResultShape) {reply : Reply}
    (h : ∀ report, reply ≠ .failure report) :
    (reply.cursor t shape).Alike t t' (reply.cursor t' shape) := by
  cases reply with
  | failure report => exact absurd rfl (h report)
  | value datum => exact ⟨rfl, rfl, rfl, rfl, rfl, rfl, rfl, .none, rfl⟩
  | batch items more => exact ⟨rfl, rfl, rfl, rfl, rfl, rfl, rfl, .none, rfl⟩

theorem Query.verdict_alike (q : Query) {exchange exchange' : Exchange}
    (h : exchange.Alike t t' exchange') :
    (q.verdict t exchange).end.Alike t t' (q.verdict t' exchange').end ∧
      Option.Rel (Cursor.Alike t t') (q.verdict t exchange).value?
        (q.verdict t' exchange').value? := by
  unfold Query.verdict
  cases h with
  | unanswered => exact ⟨.pending, .none⟩
  | failed hfault => exact ⟨.error hfault, .none⟩
  | @reply bytes bytes' hsaid =>
      dsimp only
      generalize Reply.decode bytes t = said at hsaid
      generalize Reply.decode bytes' t' = said' at hsaid
      cases hsaid with
      | error hcause => exact ⟨.error hcause, .none⟩
      | ok reply =>
          cases reply with
          | failure report => exact ⟨.error (.same _), .none⟩
          | value datum => exact ⟨.ok (), .some (Reply.cursor_alike t t' _ (by simp))⟩
          | batch items more =>
              exact ⟨.ok (), .some (Reply.cursor_alike t t' _ (by simp))⟩

theorem Query.run_alike (hR : Connection.Answering t t' T R) (q : Query)
    (hs : s.Alike R s') (hsettings : s.settings = s'.settings)
    (ht : s.nextToken = t) (ht' : s'.nextToken = t')
    (hT : T (q.run s).2.connection) :
    (q.run s).1.end.Alike t t' (q.run s').1.end ∧
      Option.Rel (Cursor.Alike t t') (q.run s).1.value? (q.run s').1.value? ∧
      (q.run s).2.Alike R (q.run s').2 := by
  rcases hcompile : q.compileWithWarnings (some s.settings.defaultDatabase) with
    ⟨cause | term, warnings⟩
  · have hcompile' := hsettings ▸ hcompile
    rw [Query.run_of_error hcompile, Query.run_of_error hcompile']
    exact ⟨.error (.same _), .none, hs.closed, hs.connection⟩
  · have hcompile' := hsettings ▸ hcompile
    -- The two sessions in which the requests are sent.
    generalize hbefore : ({ s with
      nextToken := s.nextToken + 1,
      events := q.opening s.nextToken term warnings ++ s.events } : Session σ) = before
    generalize hbefore' : ({ s' with
      nextToken := s'.nextToken + 1,
      events := q.opening s'.nextToken term warnings ++ s'.events } : Session τ) = before'
    have halike : before.Alike R before' := by
      rw [← hbefore, ← hbefore']
      exact ⟨hs.closed, hs.connection⟩
    rcases hsend : before.send ⟨s.nextToken, .start term s.settings.startOptions⟩ with
      ⟨exchange, after⟩
    rw [Query.run_of_ok hcompile (hbefore ▸ hsend)] at hT
    have hsent := halike.send hR (.start term s.settings.startOptions)
    rw [← ht, ← ht', hsend] at hsent
    rw [← ht, ← ht']
    replace hsent := hsent hT
    rcases hsend' : before'.send ⟨s'.nextToken, .start term s.settings.startOptions⟩ with
      ⟨exchange', after'⟩
    rw [hsend'] at hsent
    rw [hsettings] at hsend'
    rw [Query.run_of_ok hcompile (hbefore ▸ hsend),
      Query.run_of_ok hcompile' (hbefore' ▸ hsend')]
    obtain ⟨hexchange, hafter⟩ := hsent
    obtain ⟨hend, hvalue⟩ := q.verdict_alike hexchange
    exact ⟨hend, hvalue, hafter.closed, hafter.connection⟩

theorem Cursor.Operation.report_alike (hR : Connection.Answering t t' T R)
    (operation : Operation) {c c' : Cursor} (h : c.Alike t t' c') (hs : s.Alike R s')
    (hT : T (operation.report c s).2.2.connection) :
    (operation.report c s).1.Alike t t' (operation.report c' s').1 ∧
      (operation.report c s).2.1.Alike t t' (operation.report c' s').2.1 ∧
      (operation.report c s).2.2.Alike R (operation.report c' s').2.2 := by
  cases operation with
  | next =>
      have hcall := h.next hR hs hT
      exact ⟨.of hcall.outcome, hcall.cursor, hcall.session⟩
  | oneDatum =>
      have hcall := h.oneDatum hR hs hT
      exact ⟨.of hcall.outcome, hcall.cursor, hcall.session⟩
  | one read =>
      have hcall := h.one hR hs read hT
      exact ⟨.of hcall.outcome, hcall.cursor, hcall.session⟩
  | collect read =>
      have hcall := h.collect hR hs read hT
      exact ⟨.of hcall.outcome, hcall.cursor, hcall.session⟩
  | collectInto read done =>
      obtain ⟨hkept, hcall⟩ := h.collectInto hR hs read done hT
      exact ⟨.intro hkept hcall.outcome, hcall.cursor, hcall.session⟩
  | writeOutcome =>
      have hcall := h.writeOutcome hR hs hT
      exact ⟨.of hcall.outcome, hcall.cursor, hcall.session⟩
  | close =>
      have hcall := h.close hR hs hT
      exact ⟨.of hcall.outcome, hcall.cursor, hcall.session⟩

theorem Use.Alike.perform (hR : Connection.Answering t t' T R) {use use' : Use}
    (h : use.Alike t t' use') (hs : s.Alike R s') (hsettings : s.settings = s'.settings)
    (ht : use.token s = t) (ht' : use'.token s' = t')
    (hT : T (use.perform s).2.2.connection) :
    (use.perform s).1.Alike t t' (use'.perform s').1 ∧
      Option.Rel (Cursor.Alike t t') (use.perform s).2.1 (use'.perform s').2.1 ∧
      (use.perform s).2.2.Alike R (use'.perform s').2.2 := by
  cases h with
  | run q =>
      obtain ⟨hend, hvalue, hafter⟩ := q.run_alike hR hs hsettings ht ht' hT
      exact ⟨.of hend, hvalue, hafter⟩
  | call operation hc =>
      obtain ⟨hreport, hcursor, hafter⟩ := operation.report_alike hR hc hs hT
      exact ⟨hreport, .some hcursor, hafter⟩

end

end DocumentQuery
