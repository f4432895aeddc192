import DocumentQuery.Session.Run
import Mathlib.Logic.Relation
import Mathlib.Tactic

/-!
# What happens to a cursor

Every call on a cursor is a sequence of a few moves: a lost batch is noticed, an
element is handed out, a batch is asked for and comes or does not, the cursor
fails, it is closed.  A property that each move keeps is kept by every call, by
those too that are given up while they wait.
-/

namespace DocumentQuery

variable {σ : Type}

theorem Session.noteAll_eq (s : Session σ) (events : List Event) :
    s.noteAll events = { s with events := events.reverse ++ s.events } := by
  induction events generalizing s with
  | nil => rfl
  | cons event rest ih =>
      rw [Session.noteAll, List.foldl_cons, ← Session.noteAll, ih]
      simp [Session.note]

/-- The query that an event stops, if it stops one. -/
def Event.stopped? : Event → Option Token
  | .stopping token => some token
  | _ => none

/-- The queries that were stopped, the latest first. -/
def Session.stopped (s : Session σ) : List Token :=
  s.events.filterMap Event.stopped?

theorem Session.stopped_send [Connection σ] (s : Session σ)
    (request : Envelope) : (s.send request).2.stopped = s.stopped := by
  unfold Session.send
  split <;> rfl

/-- The cursor of a query is made of the first reply, which is no failure. -/
theorem Query.run_ok [Connection σ] {q : Query} {s s' : Session σ} {c : Cursor}
    (h : q.run s = (.ok c, s')) :
    ∃ (before after noted : Session σ) (term : Term) (bytes : Bytes)
      (reply : Reply),
      before.connection = s.connection ∧
      before.send ⟨s.nextToken, .start term s.settings.startOptions⟩ =
        (.reply bytes, after) ∧
      Reply.decode bytes s.nextToken = .ok reply ∧
      (∀ report, reply ≠ .failure report) ∧
      s'.connection = after.connection ∧
      c = (Cursor.start noted s.nextToken q.shape reply).1 := by
  unfold Query.run at h
  generalize q.compileWithWarnings (some s.settings.defaultDatabase) =
    compiled at h
  obtain ⟨cause | term, warnings⟩ := compiled
  · cases h
  · simp only [Session.noteAll_eq, Session.takeToken] at h
    generalize hbefore :
      (if q.shape.isWrite = true then _ else _ : Session σ) = before at h
    have hconnection : before.connection = s.connection := by
      rw [← hbefore]
      split <;> rfl
    have hsettings : before.settings = s.settings := by
      rw [← hbefore]
      split <;> rfl
    rw [hsettings] at h
    rcases hsend :
      before.send ⟨s.nextToken, .start term s.settings.startOptions⟩ with
      ⟨bytes | fault | _, after⟩
    · rw [hsend] at h
      simp only at h
      generalize hnoted :
        (if q.shape.isWrite = true then _ else _ : Session σ) = noted at h
      have hafter : noted.connection = after.connection := by
        rw [← hnoted]
        split <;> rfl
      rcases hdecode : Reply.decode bytes s.nextToken with cause | reply
      · rw [hdecode] at h
        cases h
      · rw [hdecode] at h
        cases reply with
        | failure report => cases h
        | value datum =>
            cases h
            exact ⟨before, after, noted, term, bytes, _, hconnection, hsend,
              hdecode, by simp, hafter, rfl⟩
        | batch items continuation =>
            cases h
            exact ⟨before, after, noted, term, bytes, _, hconnection, hsend,
              hdecode, by simp, hafter, rfl⟩
    · rw [hsend] at h
      cases h
    · rw [hsend] at h
      cases h

/-- A query that asks for a constant. -/
def Query.null : Query := ⟨⟨0, .literal .null, [], []⟩, true⟩

/-- A query that writes nothing yields a cursor when the server answers with a
batch, and uses up a token. -/
theorem Query.run_batch_session [Connection σ] {q : Query} {s : Session σ}
    {connection : σ}
    {term : Term} {bytes : Bytes} {items : List Datum} {more : Option String}
    (hshape : q.shape = .other)
    (hcompile : q.compileWithWarnings (some s.settings.defaultDatabase) =
      (.ok term, []))
    (hopen : s.closed = false)
    (hsend : Connection.send ⟨s.nextToken, .start term s.settings.startOptions⟩
      s.connection = (.reply bytes, connection))
    (hdecode : Reply.decode bytes s.nextToken = .ok (.batch items more)) :
    ∃ events, q.run s =
      (.ok ⟨s.nextToken, .other, none, items, more, false, none, none⟩,
        ⟨connection, s.settings, s.nextToken + 1, false, events⟩) := by
  unfold Query.run
  rw [hcompile, hshape]
  simp only [List.map_nil, Session.noteAll_eq, Session.takeToken, Session.note,
    Session.send,
    ResultShape.isWrite, hopen, hsend, hdecode, Bool.false_eq_true, if_false]
  exact ⟨_, rfl⟩

theorem Query.run_batch [Connection σ] {q : Query} {s : Session σ}
    {connection : σ}
    {term : Term} {bytes : Bytes} {items : List Datum} {more : Option String}
    (hshape : q.shape = .other)
    (hcompile : q.compileWithWarnings (some s.settings.defaultDatabase) =
      (.ok term, []))
    (hopen : s.closed = false)
    (hsend : Connection.send ⟨s.nextToken, .start term s.settings.startOptions⟩
      s.connection = (.reply bytes, connection))
    (hdecode : Reply.decode bytes s.nextToken = .ok (.batch items more)) :
    ∃ s', q.run s =
      (.ok ⟨s.nextToken, .other, none, items, more, false, none, none⟩, s') := by
  obtain ⟨events, hrun⟩ :=
    Query.run_batch_session hshape hcompile hopen hsend hdecode
  exact ⟨_, hrun⟩

namespace Cursor

/-- A call can begin: no batch was lost, and the cursor has not failed. -/
structure Ready (c : Cursor) : Prop where
  awaiting : c.awaiting = false
  fault : c.fault = none

/-- Nothing is left to hand out. -/
structure Dry (c : Cursor) : Prop extends Ready c where
  single : c.single = none
  buffer : c.buffer = []

/-- The cursor with a fault that stays. -/
def failed (c : Cursor) (fault : Fault) : Cursor :=
  { c with continuation := none, fault := some fault }

theorem start_ready (s : Session σ) (token : Token) (shape : ResultShape)
    {reply : Reply} (hreply : ∀ report, reply ≠ .failure report) :
    (Cursor.start s token shape reply).1.Ready := by
  cases reply with
  | failure report => exact (hreply report rfl).elim
  | _ => exact ⟨rfl, rfl⟩

theorem fail_eq {α : Type} (c : Cursor) (s : Session σ) (fault : Fault) :
    (c.fail s fault : Call σ α) =
      (.error fault, c.failed fault, s.note (.cursorFailed c.token fault)) :=
  rfl

theorem blocked?_eq_none_iff {α : Type} {c : Cursor} {s : Session σ} :
    (c.blocked? s : Option (Call σ α)) = none ↔ c.Ready := by
  unfold blocked?
  by_cases hawaiting : c.awaiting
  · rw [if_pos hawaiting]
    refine ⟨fun h => (by cases h), fun h => ?_⟩
    rw [h.awaiting] at hawaiting
    cases hawaiting
  · rw [if_neg hawaiting, Option.map_eq_none_iff]
    exact ⟨fun h => ⟨by simpa using hawaiting, h⟩, Ready.fault⟩

theorem blocked?_eq_some {α : Type} {c : Cursor} {s : Session σ}
    {call : Call σ α} (h : c.blocked? s = some call) :
    (c.awaiting = true ∧ call = ({ c with awaiting := false } : Cursor).fail s
      (.connection (.fetchAbandoned c.token))) ∨
    (c.awaiting = false ∧ ∃ fault, c.fault = some fault ∧
      call = (.error fault, c, s)) := by
  unfold blocked? at h
  by_cases hawaiting : c.awaiting
  · rw [if_pos hawaiting] at h
    exact .inl ⟨hawaiting, (Option.some.inj h).symm⟩
  · rw [if_neg hawaiting] at h
    obtain ⟨fault, hfault, hcall⟩ := Option.map_eq_some_iff.1 h
    exact .inr ⟨by simpa using hawaiting, fault, hfault, hcall.symm⟩

theorem Ready.unfoldSingle {c : Cursor} (hc : c.Ready) :
    c.unfoldSingle.Ready := by
  unfold Cursor.unfoldSingle
  split
  · exact hc
  · exact ⟨hc.awaiting, hc.fault⟩
  · exact ⟨hc.awaiting, hc.fault⟩

theorem unfoldSingle_continuation (c : Cursor) :
    c.unfoldSingle.continuation = c.continuation := by
  unfold Cursor.unfoldSingle
  split <;> rfl

theorem unfoldSingle_token (c : Cursor) : c.unfoldSingle.token = c.token := by
  unfold Cursor.unfoldSingle
  split <;> rfl

/-! ## Moves -/

/-- One thing that happens to a cursor, and to the session, in the course of a
call. -/
inductive Move [Connection σ] :
    Cursor × Session σ → Cursor × Session σ → Prop where
  | abandoned {c : Cursor} {s : Session σ} : c.awaiting = true →
      Move (c, s) (({ c with awaiting := false } : Cursor).failed
        (.connection (.fetchAbandoned c.token)),
        s.note (.cursorFailed c.token (.connection (.fetchAbandoned c.token))))
  | unfolded {c : Cursor} {s : Session σ} :
      c.Ready → Move (c, s) (c.unfoldSingle, s)
  | handedOut {c : Cursor} {s : Session σ} {datum : Datum} {rest : List Datum} :
      c.Ready → c.single = none → c.buffer = datum :: rest →
      Move (c, s) ({ c with buffer := rest }, s)
  | taken {c : Cursor} {s : Session σ} {datum : Datum} :
      c.Ready → c.single = some datum →
      Move (c, s) ({ c with single := none }, s)
  | lost {c : Cursor} {s s' : Session σ} {continuation : String} :
      c.Dry → c.continuation = some continuation →
      s.send ⟨c.token, .resume continuation⟩ = (.unanswered, s') →
      Move (c, s) ({ c with awaiting := true }, s')
  | unreachable {c : Cursor} {s s' : Session σ} {continuation : String}
      {fault : Fault} :
      c.Dry → c.continuation = some continuation →
      s.send ⟨c.token, .resume continuation⟩ = (.failed fault, s') →
      Move (c, s) (c.failed fault, s'.note (.cursorFailed c.token fault))
  | misanswered {c : Cursor} {s s' : Session σ} {continuation : String}
      {bytes : Bytes}
      {fault : Fault} :
      c.Dry → c.continuation = some continuation →
      s.send ⟨c.token, .resume continuation⟩ = (.reply bytes, s') →
      batchOf bytes c.token = .error fault →
      Move (c, s) (c.failed fault, s'.note (.cursorFailed c.token fault))
  | received {c : Cursor} {s s' : Session σ} {continuation : String}
      {bytes : Bytes}
      {items : List Datum} {more : Option String} :
      c.Dry → c.continuation = some continuation →
      s.send ⟨c.token, .resume continuation⟩ = (.reply bytes, s') →
      batchOf bytes c.token = .ok (items, more) →
      Move (c, s) (c.receive items more, s'.note (c.receiving items more))
  | refused {c : Cursor} {s : Session σ} (cause : DecodeFault) : c.Ready →
      Move (c, s)
        (c.failed (.decode cause), s.note (.cursorFailed c.token (.decode cause)))
  | noted {c : Cursor} {s : Session σ} (names : List String) :
      Move (c, s) (c, s.noteAll (names.map .ignoredField))
  | aggregated {c : Cursor} {s : Session σ} (outcome : WriteOutcome) : c.Ready →
      Move (c, s) ({ c with writeState := some .aggregated },
        s.note (.writeFinished c.token outcome))
  | dropped {c : Cursor} {s : Session σ} : c.continuation = none →
      Move (c, s) ({ c with single := none, buffer := [] }, s)
  | stopped {c : Cursor} {s s' : Session σ} {continuation : String}
      {exchange : Exchange} :
      c.continuation = some continuation →
      (s.note (.stopping c.token)).send ⟨c.token, .stop⟩ = (exchange, s') →
      Move (c, s)
        ({ c with single := none, buffer := [], continuation := none }, s')

/-- A sequence of moves. -/
def Moves [Connection σ] : Cursor × Session σ → Cursor × Session σ → Prop :=
  Relation.ReflTransGen Move

/-- A sequence of moves in the course of which no query is stopped. -/
def Reads [Connection σ] : Cursor × Session σ → Cursor × Session σ → Prop :=
  Relation.ReflTransGen fun a b => Move a b ∧ b.2.stopped = a.2.stopped

variable [Connection σ]

theorem Moves.keeps {P : Cursor × Session σ → Prop}
    (hmove : ∀ a b, Move a b → P a → P b)
    {a b : Cursor × Session σ} (h : Moves a b) (ha : P a) : P b := by
  induction h with
  | refl => exact ha
  | tail _ hlast ih => exact hmove _ _ hlast ih

theorem Reads.moves {a b : Cursor × Session σ} (h : Reads a b) : Moves a b :=
  Relation.ReflTransGen.mono (fun _ _ hmove => hmove.1) _ _ h

theorem Reads.single {a b : Cursor × Session σ} (hmove : Move a b)
    (hstopped : b.2.stopped = a.2.stopped) : Reads a b :=
  Relation.ReflTransGen.single ⟨hmove, hstopped⟩

theorem Reads.tail {a b c : Cursor × Session σ} (h : Reads a b)
    (hmove : Move b c) (hstopped : c.2.stopped = b.2.stopped) : Reads a c :=
  Relation.ReflTransGen.tail h ⟨hmove, hstopped⟩

theorem Reads.keeps {P : Cursor × Session σ → Prop}
    (hmove : ∀ a b, Move a b → b.2.stopped = a.2.stopped → P a → P b)
    {a b : Cursor × Session σ} (h : Reads a b) (ha : P a) : P b := by
  induction h with
  | refl => exact ha
  | tail _ hlast ih => exact hmove _ _ hlast.1 hlast.2 ih

theorem Move.token {a b : Cursor × Session σ} (hmove : Move a b) :
    b.1.token = a.1.token := by
  cases hmove with
  | unfolded _ => exact unfoldSingle_token _
  | _ => rfl

theorem Moves.token {a b : Cursor × Session σ} (h : Moves a b) :
    b.1.token = a.1.token :=
  h.keeps (P := fun x => x.1.token = a.1.token)
    (fun _ _ hmove hx => hmove.token.trans hx) rfl

/-! ## Calls are sequences of moves -/

omit [Connection σ] in
theorem andThen_ok {α β : Type} {call : Call σ α}
    {rest : α → Cursor → Session σ → Call σ β}
    {value : β} {c : Cursor} {s : Session σ}
    (h : call.andThen rest = (.ok value, c, s)) :
    ∃ first c₁ s₁, call = (.ok first, c₁, s₁) ∧
      rest first c₁ s₁ = (.ok value, c, s) := by
  obtain ⟨first | fault | _, c₁, s₁⟩ := call
  · exact ⟨first, c₁, s₁, rfl, h⟩
  · cases h
  · cases h

theorem Reads.andThen {α β : Type} {start : Cursor × Session σ}
    {call : Call σ α}
    {rest : α → Cursor → Session σ → Call σ β} (hcall : Reads start call.2)
    (hrest : ∀ value c s, call = (.ok value, c, s) →
      Reads (c, s) (rest value c s).2) :
    Reads start (call.andThen rest).2 := by
  obtain ⟨value | fault | _, c, s⟩ := call
  · exact hcall.trans (hrest value c s rfl)
  · exact hcall
  · exact hcall

theorem Reads.blocked {α : Type} {c : Cursor} {s : Session σ} {call : Call σ α}
    (h : c.blocked? s = some call) : Reads (c, s) call.2 := by
  rcases blocked?_eq_some h with ⟨hawaiting, rfl⟩ | ⟨_, fault, _, rfl⟩
  · exact .single (.abandoned hawaiting) rfl
  · exact .refl

theorem Move.fetch {c : Cursor} {s : Session σ} {continuation : String}
    (hc : c.Dry) (hcontinuation : c.continuation = some continuation) :
    Move (c, s) (c.fetch s continuation).2 := by
  unfold Cursor.fetch
  split
  · next hsend => exact .lost hc hcontinuation hsend
  · next hsend => exact .unreachable hc hcontinuation hsend
  · next hsend =>
    split
    · next hbatch => exact .misanswered hc hcontinuation hsend hbatch
    · next hbatch => exact .received hc hcontinuation hsend hbatch

omit [Connection σ] in
theorem Ready.dry {c : Cursor} (hc : c.Ready) (hstored : c.stored = []) :
    c.unfoldSingle.Dry :=
  ⟨hc.unfoldSingle, unfoldSingle_single c, hstored⟩

theorem stopped_fetch (c : Cursor) (s : Session σ) (continuation : String) :
    (c.fetch s continuation).2.2.stopped = s.stopped := by
  have hstopped := s.stopped_send ⟨c.token, .resume continuation⟩
  unfold Cursor.fetch
  split
  · next hsend => rwa [hsend] at hstopped
  · next hsend => rwa [hsend] at hstopped
  · next hsend =>
    rw [hsend] at hstopped
    split <;> exact hstopped

/-- A batch is asked for when everything has been handed out. -/
theorem Reads.fetch {c : Cursor} {s : Session σ} {continuation : String}
    (hc : c.Ready) (hstored : c.stored = [])
    (hcontinuation : c.continuation = some continuation) :
    Reads (c, s) (c.unfoldSingle.fetch s continuation).2 := by
  rw [← unfoldSingle_continuation] at hcontinuation
  exact .tail (.single (.unfolded hc) rfl) (.fetch (hc.dry hstored) hcontinuation)
    (stopped_fetch _ _ _)

theorem Reads.next (c : Cursor) (s : Session σ) :
    Reads (c, s) (c.next s).2 := by
  fun_induction Cursor.next c s with
  | case1 c s call hblocked => exact .blocked hblocked
  | case2 c s hfree datum rest hstored =>
      have hready := blocked?_eq_none_iff.1 hfree
      exact .tail (.single (.unfolded hready) rfl)
        (.handedOut hready.unfoldSingle (unfoldSingle_single c) hstored) rfl
  | case3 c s hfree hstored hcontinuation =>
      exact .single (.unfolded (blocked?_eq_none_iff.1 hfree)) rfl
  | case4 c s hfree hstored continuation hcontinuation c₁ s₁ hfetch hless ih =>
      have hready := blocked?_eq_none_iff.1 hfree
      have hreads := Reads.fetch (s := s) hready hstored hcontinuation
      rw [hfetch] at hreads
      exact hreads.trans ih
  | case5 c s hfree hstored continuation hcontinuation fault c₁ s₁ hfetch =>
      have hready := blocked?_eq_none_iff.1 hfree
      have hreads := Reads.fetch (s := s) hready hstored hcontinuation
      rwa [hfetch] at hreads
  | case6 c s hfree hstored continuation hcontinuation c₁ s₁ hfetch =>
      have hready := blocked?_eq_none_iff.1 hfree
      have hreads := Reads.fetch (s := s) hready hstored hcontinuation
      rwa [hfetch] at hreads

theorem Moves.next (c : Cursor) (s : Session σ) :
    Moves (c, s) (c.next s).2 :=
  (Reads.next c s).moves

/-- A call of `next` that does not fail leaves the cursor ready for the next
one. -/
theorem ready_of_next {c c' : Cursor} {s s' : Session σ}
    {element : Option Datum}
    (h : c.next s = (.ok element, c', s')) : c'.Ready := by
  fun_induction Cursor.next c s with
  | case1 c s call hblocked =>
      exact (blocked?_ne_ok hblocked (congrArg Prod.fst h)).elim
  | case2 c s hfree datum rest hstored =>
      cases h
      have hready := (blocked?_eq_none_iff.1 hfree).unfoldSingle
      exact ⟨hready.awaiting, hready.fault⟩
  | case3 c s hfree hstored hcontinuation =>
      cases h
      exact (blocked?_eq_none_iff.1 hfree).unfoldSingle
  | case4 c s hfree hstored continuation hcontinuation c₁ s₁ hfetch hless ih =>
      exact ih h
  | case5 => cases h
  | case6 => cases h

theorem Reads.oneDatum (c : Cursor) (s : Session σ) :
    Reads (c, s) (c.oneDatum s).2 := by
  unfold Cursor.oneDatum
  cases hblocked : (c.blocked? s : Option (Call σ Datum)) with
  | some call => exact .blocked hblocked
  | none =>
      have hready := blocked?_eq_none_iff.1 hblocked
      cases hsingle : c.single with
      | some datum => exact .single (.taken hready hsingle) rfl
      | none =>
          refine (Reads.next c s).andThen fun first c₁ s₁ hfirst => ?_
          cases first with
          | none => exact .single (.refused _ (ready_of_next hfirst)) rfl
          | some first =>
              refine (Reads.next c₁ s₁).andThen fun second c₂ s₂ hsecond => ?_
              cases second with
              | none => exact .refl
              | some _ => exact .single (.refused _ (ready_of_next hsecond)) rfl

theorem ready_of_oneDatum {c c' : Cursor} {s s' : Session σ} {datum : Datum}
    (h : c.oneDatum s = (.ok datum, c', s')) : c'.Ready := by
  unfold Cursor.oneDatum at h
  cases hblocked : (c.blocked? s : Option (Call σ Datum)) with
  | some call =>
      rw [hblocked] at h
      exact (blocked?_ne_ok hblocked (congrArg Prod.fst h)).elim
  | none =>
      have hready := blocked?_eq_none_iff.1 hblocked
      rw [hblocked] at h
      cases hsingle : c.single with
      | some datum =>
          simp only [hsingle] at h
          cases h
          exact ⟨hready.awaiting, hready.fault⟩
      | none =>
          simp only [hsingle] at h
          obtain ⟨first, c₁, s₁, _, h⟩ := andThen_ok h
          cases first with
          | none => cases h
          | some first =>
              obtain ⟨second, c₂, s₂, hsecond, h⟩ := andThen_ok h
              cases second with
              | none =>
                  cases h
                  exact ready_of_next hsecond
              | some _ => cases h

theorem Reads.one {α : Type} (read : Reader α) (c : Cursor) (s : Session σ) :
    Reads (c, s) (c.one read s).2 :=
  (Reads.oneDatum c s).andThen fun _ _ _ _ => .refl

theorem Reads.collectInto {α : Type} (read : Reader α) (done : List α)
    (c : Cursor) (s : Session σ) : Reads (c, s) (c.collectInto read done s).2.2 := by
  fun_induction Cursor.collectInto read done c s with
  | case1 done c s c₁ s₁ hnext =>
      have hreads := Reads.next c s
      rwa [hnext] at hreads
  | case2 done c s fault c₁ s₁ hnext =>
      have hreads := Reads.next c s
      rwa [hnext] at hreads
  | case3 done c s c₁ s₁ hnext =>
      have hreads := Reads.next c s
      rwa [hnext] at hreads
  | case4 done c s datum c₁ s₁ hnext value hread hless ih =>
      have hreads := Reads.next c s
      rw [hnext] at hreads
      exact hreads.trans ih
  | case5 done c s datum c₁ s₁ hnext cause hread =>
      have hreads := Reads.next c s
      rw [hnext] at hreads
      exact hreads.tail (.refused cause (ready_of_next hnext)) rfl

theorem Moves.collectInto {α : Type} (read : Reader α) (done : List α)
    (c : Cursor) (s : Session σ) : Moves (c, s) (c.collectInto read done s).2.2 :=
  (Reads.collectInto read done c s).moves

theorem Reads.collect {α : Type} (read : Reader α) (c : Cursor)
    (s : Session σ) :
    Reads (c, s) (c.collect read s).2 :=
  (Reads.collectInto read [] c s).andThen fun _ _ _ _ => .refl

theorem Reads.noted (c : Cursor) (s : Session σ) (names : List String) :
    Reads (c, s) (c, s.noteAll (names.map .ignoredField)) := by
  refine .single (.noted names) ?_
  rw [Session.noteAll_eq, Session.stopped, List.filterMap_append,
    ← List.map_reverse, List.filterMap_map]
  simp [Session.stopped, Function.comp_def, Event.stopped?]

theorem Reads.writeOutcome (c : Cursor) (s : Session σ) :
    Reads (c, s) (c.writeOutcome s).2 := by
  unfold Cursor.writeOutcome
  refine (Reads.oneDatum c s).andThen fun datum c₁ s₁ hdatum => ?_
  have hready := ready_of_oneDatum hdatum
  have hnoted := fun names => Reads.noted c₁ s₁ names
  dsimp only
  split
  · exact (hnoted _).tail (.refused _ hready) rfl
  · split
    · exact (hnoted _).tail (.refused _ hready) rfl
    · exact (hnoted _).tail (.aggregated _ hready) rfl

theorem Moves.close (c : Cursor) (s : Session σ) :
    Moves (c, s) (c.close s).2 := by
  unfold Cursor.close
  cases hcontinuation : c.continuation with
  | none =>
      have hmove := Move.dropped (s := s) hcontinuation
      rw [hcontinuation] at hmove
      exact .single hmove
  | some continuation =>
      dsimp only
      split
      · next hsend => exact .single (.stopped hcontinuation hsend)
      · next hsend => exact .single (.stopped hcontinuation hsend)
      · next hsend =>
        split <;> exact .single (.stopped hcontinuation hsend)

/-! ## Operations -/

/-- A call that a caller can make on a cursor. -/
inductive Operation : Type 1 where
  | next
  | oneDatum
  | one {α : Type} (read : Reader α)
  | collect {α : Type} (read : Reader α)
  | collectInto {α : Type} (read : Reader α) (done : List α)
  | writeOutcome
  | close

/-- The cursor and the session after a call, or where it was given up. -/
def Operation.perform (operation : Operation) (c : Cursor) (s : Session σ) :
    Cursor × Session σ :=
  match operation with
  | .next => (c.next s).2
  | .oneDatum => (c.oneDatum s).2
  | .one read => (c.one read s).2
  | .collect read => (c.collect read s).2
  | .collectInto read done => (c.collectInto read done s).2.2
  | .writeOutcome => (c.writeOutcome s).2
  | .close => (c.close s).2

/-- Only closing stops the query. -/
theorem Operation.reads {operation : Operation} (hreads : operation ≠ .close)
    (c : Cursor) (s : Session σ) : Reads (c, s) (operation.perform c s) := by
  cases operation with
  | next => exact .next c s
  | oneDatum => exact .oneDatum c s
  | one read => exact .one read c s
  | collect read => exact .collect read c s
  | collectInto read done => exact .collectInto read done c s
  | writeOutcome => exact .writeOutcome c s
  | close => exact (hreads rfl).elim

theorem Operation.moves (operation : Operation) (c : Cursor) (s : Session σ) :
    Moves (c, s) (operation.perform c s) := by
  cases operation with
  | close => exact .close c s
  | _ => exact (Operation.reads (by simp) c s).moves

/-- The cursor after some calls, each of them in a session of its own: between
two calls others may use the session. -/
def after (c : Cursor) : List (Session σ × Operation) → Cursor
  | [] => c
  | (s, operation) :: later => (operation.perform c s).1.after later

/-- A cursor that a query yielded, after some calls. -/
def Reachable (σ : Type) [Connection σ] (c : Cursor) : Prop :=
  ∃ (q : Query) (s s' : Session σ) (first : Cursor)
    (earlier : List (Session σ × Operation)),
    q.run s = (.ok first, s') ∧ c = first.after earlier

end Cursor

/-! ## Batches of texts -/

namespace Reply

/-- The text that a datum is, or null. -/
def text? : Datum → Option (Option String)
  | .null => some none
  | .string text => some (some text)
  | _ => none

/-- The texts and nulls of a batch, and where it goes on. -/
def texts? : Reply → Option (List (Option String) × Option String)
  | .batch items more => (items.mapM text?).map (·, more)
  | _ => none

theorem eq_of_text? {d : Datum} {text : Option String}
    (h : text? d = some text) : d = text.elim .null .string := by
  cases d with
  | null => cases h; rfl
  | string value => cases h; rfl
  | _ => cases h

theorem eq_of_mapM_text? {items : List Datum} {texts : List (Option String)}
    (h : items.mapM text? = some texts) :
    items = texts.map (·.elim .null .string) := by
  induction items generalizing texts with
  | nil => cases h; rfl
  | cons d rest ih =>
      simp only [List.mapM_cons, Option.bind_eq_bind, Option.bind_eq_some_iff,
        Option.pure_def, Option.some.injEq] at h
      obtain ⟨text, htext, texts, hrest, rfl⟩ := h
      rw [List.map_cons, ← eq_of_text? htext, ← ih hrest]

theorem eq_of_texts? {reply : Reply} {texts : List (Option String)}
    {more : Option String} (h : reply.texts? = some (texts, more)) :
    reply = .batch (texts.map (·.elim .null .string)) more := by
  cases reply with
  | batch items more' =>
      obtain ⟨texts', htexts, heq⟩ := Option.map_eq_some_iff.1 h
      cases heq
      rw [eq_of_mapM_text? htexts]
  | _ => cases h

/-- What a reply of texts is read as can be found by evaluation, as texts can be
compared. -/
theorem decode_texts {bytes : Bytes} {token : Token} (texts : List (Option String))
    {more : Option String}
    (h : (Reply.decode bytes token).toOption.bind texts? = some (texts, more)) :
    Reply.decode bytes token =
      .ok (.batch (texts.map (·.elim .null .string)) more) := by
  cases hdecode : Reply.decode bytes token with
  | error cause => rw [hdecode] at h; cases h
  | ok reply =>
      rw [hdecode] at h
      exact congrArg Except.ok (eq_of_texts? h)

end Reply

end DocumentQuery
