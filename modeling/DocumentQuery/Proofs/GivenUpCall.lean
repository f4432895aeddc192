import DocumentQuery.Proofs.CursorDraining
import DocumentQuery.Proofs.CursorElements
import DocumentQuery.Proofs.CursorFailure

/-!
# Calls that are given up

A call can be given up at any request it waits for.  Such a call is the same
call over a connection that is not waited on for longer: up to that request
nothing is different, the request goes out, and what the call has done until
then stays.  So the cursor that is left behind shows in which state the request
left.
-/

namespace DocumentQuery

/-- The request asks for a batch. -/
def Request.IsResume (request : Request) : Prop :=
  ∃ continuation, request = .resume continuation

/-- A connection that is waited on for so many answers.  The next request goes
out as well, but whoever sends it is gone when its answer comes. -/
structure Impatient (σ : Type) where
  connection : σ
  answers : Nat

variable {σ : Type}

instance [Connection σ] : Connection (Impatient σ) where
  send request waiting :=
    let (exchange, connection) := Connection.send request waiting.connection
    match waiting.answers with
    | 0 => (.unanswered, ⟨connection, 0⟩)
    | answers + 1 => (exchange, ⟨connection, answers⟩)
  close waiting :=
    let (result, connection) := Connection.close waiting.connection
    (result, ⟨connection, waiting.answers⟩)
  repliesLeft waiting := Connection.repliesLeft waiting.connection
  repliesLeft_send request waiting bytes after h := by
    obtain ⟨connection, answers⟩ := waiting
    cases answers with
    | zero => cases h
    | succ answers =>
        obtain ⟨hreply, rfl⟩ := Prod.mk.inj h
        exact Connection.repliesLeft_send request connection bytes _
          (Prod.ext hreply rfl)

namespace Session

/-- The session with its connection waited on for so many answers from now
on. -/
def limited (s : Session σ) (answers : Nat) : Session (Impatient σ) :=
  ⟨⟨s.connection, answers⟩, s.settings, s.nextToken, s.closed, s.events⟩

theorem note_limited (s : Session σ) (event : Event) (answers : Nat) :
    (s.limited answers).note event = (s.note event).limited answers := rfl

theorem noteAll_limited (s : Session σ) (events : List Event) (answers : Nat) :
    (s.limited answers).noteAll events = (s.noteAll events).limited answers := by
  rw [noteAll_eq, noteAll_eq]
  rfl

variable [Connection σ]

/-- Sending makes no difference, or the request is the one that nobody waits
for. -/
theorem send_limited (s : Session (Logged σ)) (request : Envelope)
    (answers : Nat) :
    ∃ exchange after, s.send request = (exchange, after) ∧
      ((∃ left, (s.limited answers).send request =
          (exchange, after.limited left) ∧
          after.connection.log.length + left =
            s.connection.log.length + answers) ∨
        answers = 0 ∧
          (s.limited answers).send request = (.unanswered, after.limited 0) ∧
          after.connection.log = s.connection.log ++ [(request, exchange)]) := by
  rcases hsend : s.send request with ⟨exchange, after⟩
  refine ⟨exchange, after, rfl, ?_⟩
  by_cases hclosed : s.closed
  · rw [send_closed hclosed] at hsend
    cases hsend
    have hgiven := send_closed (s := s.limited answers) hclosed request
    exact .inl ⟨answers, hgiven, rfl⟩
  · have hopen : s.closed = false := by simpa using hclosed
    have hlog := log_send hopen hsend
    have hexchange : (s.send request).1 = exchange := by rw [hsend]
    have hafter : (s.send request).2 = after := by rw [hsend]
    cases answers with
    | zero =>
        refine .inr ⟨rfl, ?_, hlog⟩
        rw [← hafter]
        simp [send, limited, hopen, note, Connection.send]
    | succ left =>
        refine .inl ⟨left, ?_, ?_⟩
        · rw [← hafter, ← hexchange]
          simp [send, limited, hopen, note, Connection.send]
        · rw [hlog, List.length_append]
          exact Nat.succ_add_eq_add_succ _ left

theorem log_grows_send {s s' : Session (Logged σ)} {request : Envelope}
    {exchange : Exchange} (h : s.send request = (exchange, s')) :
    s.connection.log <+: s'.connection.log := by
  rcases log_send_cases h with ⟨_, rfl⟩ | hlog
  · exact List.prefix_rfl
  · rw [hlog]
    exact List.prefix_append _ _

end Session

namespace Cursor

variable {α β : Type}

section

variable [Connection σ]

theorem Move.log_grows {a b : Cursor × Session (Logged σ)} (hmove : Move a b) :
    a.2.connection.log <+: b.2.connection.log := by
  cases hmove with
  | lost _ _ hsend | unreachable _ _ hsend | misanswered _ _ hsend _
  | received _ _ hsend _ | stopped _ hsend =>
      have hprefix := Session.log_grows_send hsend
      exact hprefix
  | noted names =>
      simp only [Session.noteAll_eq]
      exact List.prefix_rfl
  | _ => exact List.prefix_rfl

theorem Moves.log_grows {a b : Cursor × Session (Logged σ)} (h : Moves a b) :
    a.2.connection.log <+: b.2.connection.log :=
  h.keeps (P := fun x => a.2.connection.log <+: x.2.connection.log)
    (fun _ _ hmove hx => hx.trans hmove.log_grows) List.prefix_rfl

end

/-! ## A call and the same call given up -/

/-- A call, and the same call given up at the first request that leaves after
`sent` others: there was no such request and nothing is different, or the
request is one that the call asks after the earlier ones, and it leaves when the
cursor has not failed and stores nothing. -/
inductive Cut (asks : List (Envelope × Exchange) → Request → Prop)
    (sent : Nat) :
    Call (Logged σ) α → Call (Impatient (Logged σ)) α → Prop where
  | whole (outcome : Outcome α) (c : Cursor) {s : Session (Logged σ)}
      {answers : Nat} :
      s.connection.log.length + answers = sent →
      Cut asks sent (outcome, c, s) (outcome, c, s.limited answers)
  | short {call : Call (Logged σ) α} {c : Cursor}
      {s : Session (Impatient (Logged σ))}
      {earlier : List (Envelope × Exchange)} {last : Envelope × Exchange} :
      s.connection.connection.log = earlier ++ [last] →
      earlier.length = sent → asks earlier last.1.request →
      earlier ++ [last] <+: call.2.2.connection.log →
      c.fault = none → c.stored = [] →
      Cut asks sent call (.pending, c, s)

variable {asks asks' : List (Envelope × Exchange) → Request → Prop}
  {sent answers : Nat}

theorem Cut.mono {call : Call (Logged σ) α} {given : Call (Impatient (Logged σ)) α}
    (h : Cut asks sent call given)
    (hasks : ∀ earlier request, asks earlier request → asks' earlier request) :
    Cut asks' sent call given := by
  cases h with
  | whole outcome c hsent => exact .whole outcome c hsent
  | short hlog hsent hlast hprefix hfault hstored =>
      exact .short hlog hsent (hasks _ _ hlast) hprefix hfault hstored

theorem log_grows_andThen {call : Call (Logged σ) α}
    {rest : α → Cursor → Session (Logged σ) → Call (Logged σ) β}
    {earlier : List (Envelope × Exchange)}
    (hcall : earlier <+: call.2.2.connection.log)
    (hrest : ∀ value c s,
      s.connection.log <+: (rest value c s).2.2.connection.log) :
    earlier <+: (call.andThen rest).2.2.connection.log := by
  obtain ⟨value | fault | _, c, s⟩ := call
  · exact hcall.trans (hrest value c s)
  · exact hcall
  · exact hcall

theorem Cut.andThen {call : Call (Logged σ) α}
    {given : Call (Impatient (Logged σ)) α}
    {rest : α → Cursor → Session (Logged σ) → Call (Logged σ) β}
    {restGiven : α → Cursor → Session (Impatient (Logged σ)) →
      Call (Impatient (Logged σ)) β}
    (hcall : Cut asks sent call given)
    (hlog : ∀ value c s,
      s.connection.log <+: (rest value c s).2.2.connection.log)
    (hrest : ∀ value c s answers, call = (.ok value, c, s) →
      s.connection.log.length + answers = sent →
      Cut asks sent (rest value c s) (restGiven value c (s.limited answers))) :
    Cut asks sent (call.andThen rest) (given.andThen restGiven) := by
  cases hcall with
  | @whole outcome c s answers hsent =>
      cases outcome with
      | ok value => exact hrest value c s answers rfl hsent
      | error fault => exact .whole (.error fault) c hsent
      | pending => exact .whole .pending c hsent
  | short hlast hsent hasks hprefix hfault hstored =>
      -- Given up in its first part, the call has no other; the call that was not
      -- given up only adds to what it has sent.
      exact .short hlast hsent hasks (log_grows_andThen hprefix hlog) hfault
        hstored

theorem Cut.blocked {c : Cursor} {s : Session (Logged σ)} {call : Call (Logged σ) α}
    (h : c.blocked? s = some call)
    (hsent : s.connection.log.length + answers = sent) :
    ∃ given, c.blocked? (s.limited answers) = some given ∧
      Cut asks sent call given := by
  rcases blocked?_eq_some h with ⟨hawaiting, rfl⟩ | ⟨hawaiting, fault, hfault, rfl⟩
  · refine ⟨_, if_pos hawaiting, ?_⟩
    exact .whole _ _ hsent
  · refine ⟨_, ?_, .whole _ _ hsent⟩
    rw [blocked?, hawaiting, hfault]
    rfl

/-! ## Taking elements -/

/-- The elements of the batches that exchanges brought. -/
def brought (token : Token) (log : List (Envelope × Exchange)) : List Datum :=
  log.flatMap fun entry => entry.2.reply?.elim [] (batchElements token)

theorem brought_concat (token : Token) (log : List (Envelope × Exchange))
    (entry : Envelope × Exchange) :
    brought token (log ++ [entry]) =
      brought token log ++ entry.2.reply?.elim [] (batchElements token) := by
  rw [brought, List.flatMap_append, List.flatMap_singleton, brought]

structure Took (taken : Nat) (c : Cursor) (s : Session (Logged σ)) (c' : Cursor)
    (s' : Session (Logged σ)) : Prop where
  token : c'.token = c.token
  balance :
    taken + c'.stored.length + (brought c.token s.connection.log).length =
      c.stored.length + (brought c.token s'.connection.log).length

/-- A batch is asked for when fewer than `limit` elements have been taken, counted
from the given cursor on. -/
def AsksWithin (limit : Nat) (c : Cursor) (s : Session (Logged σ))
    (earlier : List (Envelope × Exchange)) (request : Request) : Prop :=
  c.stored.length + (brought c.token earlier).length <
      limit + (brought c.token s.connection.log).length ∧
    request.IsResume

theorem AsksWithin.of_took {limit taken : Nat} {c c' : Cursor}
    {s s' : Session (Logged σ)} {earlier : List (Envelope × Exchange)}
    {request : Request} (h : AsksWithin limit c' s' earlier request)
    (htook : Took taken c s c' s') :
    AsksWithin (limit + taken) c s earlier request := by
  obtain ⟨hlimit, hrequest⟩ := h
  rw [htook.token] at hlimit
  have hbalance := htook.balance
  refine ⟨?_, hrequest⟩
  omega

variable [Connection σ]

theorem Took.fetch {c c' : Cursor} {s s' : Session (Logged σ)}
    {continuation : String} (hc : c.single = none)
    (h : c.fetch s continuation = (.ok (), c', s')) : Took 0 c s c' s' := by
  unfold Cursor.fetch at h
  split at h
  · cases h
  · cases h
  · next bytes after hsend =>
    split at h
    · cases h
    · next items more hbatch =>
      cases h
      have hlog := Session.log_send_of_ne_failed hsend (by simp)
      have hitems : batchElements c.token bytes = items :=
        batchElements_of_batch (decode_of_batchOf hbatch)
      have hstored : (c.receive items more).stored = c.stored ++ items := by
        rw [stored_eq_buffer hc, stored_eq_buffer (by exact hc)]
        rfl
      have hbrought : brought c.token after.connection.log =
          brought c.token s.connection.log ++ items := by
        rw [hlog, brought_concat, ← hitems]
        rfl
      refine ⟨rfl, ?_⟩
      rw [hstored, List.length_append]
      show _ = _ + (brought c.token after.connection.log).length
      rw [hbrought, List.length_append]
      omega

theorem Cut.fetch {c : Cursor} (hc : c.Dry) {s : Session (Logged σ)}
    (hsent : s.connection.log.length + answers = sent) (continuation : String) :
    Cut (AsksWithin 1 c s) sent (c.fetch s continuation)
      (c.fetch (s.limited answers) continuation) := by
  obtain ⟨exchange, after, hfull, ⟨left, hgiven, hleft⟩ | ⟨rfl, hgiven, hlog⟩⟩ :=
    s.send_limited ⟨c.token, .resume continuation⟩ answers
  · have hafter := hleft.trans hsent
    rw [Cursor.fetch, hfull, Cursor.fetch, hgiven]
    cases exchange with
    | unanswered => exact .whole _ _ hafter
    | failed fault => exact .whole _ _ hafter
    | reply bytes =>
        dsimp only
        split
        · exact .whole _ _ hafter
        · exact .whole _ _ hafter
  · have hstored : ({ c with awaiting := true } : Cursor).stored = [] := by
      rw [stored_eq_buffer (by exact hc.single)]
      exact hc.buffer
    have hprefix : s.connection.log ++
        [(⟨c.token, .resume continuation⟩, exchange)] <+:
          (c.fetch s continuation).2.2.connection.log := by
      rw [← hlog, Cursor.fetch, hfull]
      cases exchange with
      | reply bytes =>
          dsimp only
          split <;> exact List.prefix_rfl
      | _ => exact List.prefix_rfl
    have hasks : AsksWithin 1 c s s.connection.log (.resume continuation) := by
      refine ⟨?_, continuation, rfl⟩
      rw [stored_eq_buffer hc.single, hc.buffer, List.length_nil]
      omega
    rw [Cursor.fetch.eq_def _ (s.limited 0), hgiven]
    exact .short hlog hsent hasks hprefix hc.fault hstored

omit [Connection σ] in
theorem Took.of_unfoldSingle {c c' : Cursor} {s s' : Session (Logged σ)}
    {taken : Nat} (h : Took taken c.unfoldSingle s c' s') : Took taken c s c' s' := by
  obtain ⟨htoken, hbalance⟩ := h
  rw [unfoldSingle_token, stored_unfoldSingle] at hbalance
  exact ⟨htoken.trans (unfoldSingle_token c), hbalance⟩

theorem Took.next (c : Cursor) (s : Session (Logged σ)) {c' : Cursor}
    {s' : Session (Logged σ)} {datum : Datum}
    (h : c.next s = (.ok (some datum), c', s')) : Took 1 c s c' s' := by
  fun_induction Cursor.next c s with
  | case1 c s call hblocked =>
      exact (blocked?_ne_ok hblocked (congrArg Prod.fst h)).elim
  | case2 c s hfree first rest hstored =>
      cases h
      have hrest :
          ({ c.unfoldSingle with buffer := rest } : Cursor).stored = rest :=
        stored_eq_buffer (unfoldSingle_single c)
      refine ⟨unfoldSingle_token c, ?_⟩
      rw [hrest, hstored, List.length_cons]
      omega
  | case3 => cases h
  | case4 c s hfree hstored continuation hcontinuation c₁ s₁ hfetch hless ih =>
      have hfetched := (Took.fetch (unfoldSingle_single c) hfetch).of_unfoldSingle
      obtain ⟨htoken, hbalance⟩ := ih h
      rw [hfetched.token] at htoken hbalance
      have hbefore := hfetched.balance
      refine ⟨htoken, ?_⟩
      omega
  | case5 => cases h
  | case6 => cases h

theorem Cut.next (c : Cursor) (s : Session (Logged σ)) {answers : Nat}
    (hsent : s.connection.log.length + answers = sent) :
    Cut (AsksWithin 1 c s) sent (c.next s) (c.next (s.limited answers)) := by
  cases hblocked : (c.blocked? s : Option (Call _ (Option Datum))) with
  | some call =>
      obtain ⟨given, hgiven, hcut⟩ := Cut.blocked hblocked hsent
      rw [Cursor.next, hblocked, Cursor.next, hgiven]
      exact hcut
  | none =>
      have hready := blocked?_eq_none_iff.1 hblocked
      cases hstored : c.stored with
      | cons datum rest =>
          rw [next_of_stored_cons hready hstored, next_of_stored_cons hready hstored]
          exact .whole _ _ hsent
      | nil =>
          cases hcontinuation : c.continuation with
          | none =>
              rw [next_of_exhausted hready hstored hcontinuation,
                next_of_exhausted hready hstored hcontinuation]
              exact .whole _ _ hsent
          | some continuation =>
              rw [next_of_stored_nil hready hstored hcontinuation,
                next_of_stored_nil hready hstored hcontinuation]
              have hunfolded : Took 0 c s c.unfoldSingle s :=
                Took.of_unfoldSingle ⟨rfl, by omega⟩
              refine ((Cut.fetch (hready.dry hstored) hsent continuation).mono
                fun _ _ h => h.of_took hunfolded).andThen
                (fun _ c s => (Moves.next c s).log_grows) ?_
              -- The batch may be empty, and then the call asks for another one.
              intro _ c₁ s₁ answers hfetch hanswers
              have hfetched :=
                (Took.fetch (unfoldSingle_single c) hfetch).of_unfoldSingle
              have hless := repliesLeft_fetch hfetch
              exact (Cut.next c₁ s₁ hanswers).mono fun _ _ h => h.of_took hfetched
  termination_by s.repliesLeft

theorem Cut.oneDatum (c : Cursor) (s : Session (Logged σ))
    (hsent : s.connection.log.length + answers = sent) :
    Cut (AsksWithin 2 c s) sent (c.oneDatum s)
      (c.oneDatum (s.limited answers)) := by
  cases hblocked : (c.blocked? s : Option (Call _ Datum)) with
  | some call =>
      obtain ⟨given, hgiven, hcut⟩ := Cut.blocked hblocked hsent
      rw [Cursor.oneDatum, hblocked, Cursor.oneDatum, hgiven]
      exact hcut
  | none =>
      have hready := blocked?_eq_none_iff.1 hblocked
      rw [Cursor.oneDatum, blocked?_eq_none_iff.2 hready, Cursor.oneDatum,
        blocked?_eq_none_iff.2 hready]
      cases hsingle : c.single with
      | some datum => exact .whole _ _ hsent
      | none =>
          dsimp only
          have hnext : Cut (AsksWithin 2 c s) sent (c.next s)
              (c.next (s.limited answers)) :=
            (Cut.next c s hsent).mono fun _ _ h => ⟨by have := h.1; omega, h.2⟩
          refine hnext.andThen (fun first c s => ?_)
            (fun first c₁ s₁ answers hfirst hanswers => ?_)
          · cases first with
            | none => exact List.prefix_rfl
            | some first =>
                refine log_grows_andThen (Moves.next c s).log_grows
                  fun second c s => ?_
                cases second <;> exact List.prefix_rfl
          · cases first with
            | none => exact .whole _ _ hanswers
            | some first =>
                -- One element has been taken, and a second one may be needed to
                -- fail.
                have hsecond := (Cut.next c₁ s₁ hanswers).mono
                  fun _ _ h => h.of_took (Took.next c s hfirst)
                refine hsecond.andThen (fun second c s => ?_)
                  (fun second c s answers _ hanswers => ?_)
                · cases second <;> exact List.prefix_rfl
                · cases second with
                  | none => exact .whole _ _ hanswers
                  | some _ => exact .whole _ _ hanswers

theorem collectInto_snd {τ : Type} [Connection τ] (read : Reader α)
    (done : List α) (c : Cursor) (s : Session τ) :
    (c.collectInto read done s).2 = (c.next s).andThen fun element c s =>
      match element with
      | none => (.ok (), c, s)
      | some datum =>
        match datum.readAs read with
        | .ok value => (c.collectInto read (done ++ [value]) s).2
        | .error cause => c.fail s (.decode cause) := by
  rw [collectInto_eq]
  rcases c.next s with ⟨(_ | datum) | fault | _, c₁, s₁⟩
  · rfl
  · dsimp only [Call.andThen]
    cases datum.readAs read <;> rfl
  · rfl
  · rfl

theorem Cut.collectInto (read : Reader α) (done : List α) (c : Cursor)
    (s : Session (Logged σ)) {answers : Nat}
    (hsent : s.connection.log.length + answers = sent) :
    Cut (fun _ request => request.IsResume) sent
      (c.collectInto read done s).2
      (c.collectInto read done (s.limited answers)).2 := by
  rw [collectInto_snd, collectInto_snd]
  refine ((Cut.next c s hsent).mono fun _ _ h => h.2).andThen
    (fun element c s => ?_) (fun element c₁ s₁ answers hnext hanswers => ?_)
  · cases element with
    | none => exact List.prefix_rfl
    | some datum =>
        dsimp only
        split
        · exact (Moves.collectInto read _ c s).log_grows
        · exact List.prefix_rfl
  · cases element with
    | none => exact .whole _ _ hanswers
    | some datum =>
        dsimp only
        split
        · next value _ =>
          have hless := next_ok_some hnext
          exact Cut.collectInto read (done ++ [value]) c₁ s₁ hanswers
        · exact .whole _ _ hanswers
  termination_by (s.repliesLeft, c.stored.length)
  decreasing_by
    rcases hless with hlt | ⟨heq, hlt⟩
    · exact .left _ _ hlt
    · exact heq ▸ .right _ hlt

theorem Cut.writeOutcome (c : Cursor) (s : Session (Logged σ))
    (hsent : s.connection.log.length + answers = sent) :
    Cut (AsksWithin 2 c s) sent (c.writeOutcome s)
      (c.writeOutcome (s.limited answers)) := by
  refine (Cut.oneDatum c s hsent).andThen (fun datum c s => ?_)
    (fun datum c s answers _ hanswers => ?_)
  · rw [Session.noteAll_eq]
    dsimp only
    split
    · exact List.prefix_rfl
    · split <;> exact List.prefix_rfl
  · rw [Session.noteAll_limited, Session.noteAll_eq]
    dsimp only
    split
    · exact .whole _ _ hanswers
    · split
      · exact .whole _ _ hanswers
      · exact .whole _ _ hanswers

theorem Cut.close {c : Cursor} (hc : c.Settled) (s : Session (Logged σ))
    (hsent : s.connection.log.length + answers = sent) :
    Cut (fun _ request => request = .stop) sent (c.close s)
      (c.close (s.limited answers)) := by
  cases hcontinuation : c.continuation with
  | none =>
      rw [Cursor.close, hcontinuation, Cursor.close, hcontinuation]
      exact .whole _ _ hsent
  | some continuation =>
      have hfault : c.fault = none := by
        by_contra hfailed
        have hsettled := (hc (Option.isSome_iff_ne_none.2 hfailed)).2
        rw [hcontinuation] at hsettled
        cases hsettled
      obtain ⟨exchange, after, hfull,
        ⟨left, hgiven, hleft⟩ | ⟨rfl, hgiven, hlog⟩⟩ :=
        (s.note (.stopping c.token)).send_limited ⟨c.token, .stop⟩ answers
      · have hafter := hleft.trans hsent
        simp only [Cursor.close, hcontinuation, Session.note_limited, hfull,
          hgiven]
        cases exchange with
        | unanswered => exact .whole _ _ hafter
        | failed fault => exact .whole _ _ hafter
        | reply bytes =>
            dsimp only
            split
            · exact .whole _ _ hafter
            · exact .whole _ _ hafter
            · exact .whole _ _ hafter
      · have hprefix : s.connection.log ++ [(⟨c.token, .stop⟩, exchange)] <+:
            (c.close s).2.2.connection.log := by
          have hsame : after.connection.log <+:
              (c.close s).2.2.connection.log := by
            simp only [Cursor.close, hcontinuation, hfull]
            cases exchange with
            | reply bytes =>
                dsimp only
                split <;> exact List.prefix_rfl
            | _ => exact List.prefix_rfl
          rwa [hlog] at hsame
        have hcut : c.close (s.limited 0) = (.pending,
            { c with single := none, buffer := [], continuation := none },
            after.limited 0) := by
          simp only [Cursor.close, hcontinuation, Session.note_limited, hgiven]
        rw [hcut]
        exact .short hlog hsent rfl hprefix hfault rfl

/-! ## Operations -/

omit [Connection σ] in
theorem Cut.at_request {call : Call (Logged σ) α}
    {given : Call (Impatient (Logged σ)) α} (h : Cut asks sent call given)
    {before : List (Envelope × Exchange)} {entry : Envelope × Exchange}
    (hsent : before.length = sent)
    (hentry : before ++ [entry] <+: call.2.2.connection.log) :
    asks before entry.1.request ∧
      given.2.2.connection.connection.log = before ++ [entry] ∧
      given.2.1.fault = none ∧ given.2.1.stored = [] := by
  cases h with
  | @whole outcome c s answers hlength =>
      have hle := hentry.length_le
      rw [List.length_append, List.length_singleton] at hle
      dsimp only at hle
      omega
  | @short _ c s earlier last hlog hearlier hasks hprefix hfault hstored =>
      have hlength : (earlier ++ [last]).length = (before ++ [entry]).length := by
        simp [hearlier, hsent]
      have hsame : earlier ++ [last] = before ++ [entry] :=
        (List.prefix_of_prefix_length_le hprefix hentry hlength.le).eq_of_length
          hlength
      obtain ⟨rfl, hlast⟩ := List.append_inj' hsame rfl
      cases List.singleton_inj.1 hlast
      exact ⟨hasks, hlog, hfault, hstored⟩

/-- What a call asks the server after it has taken so many elements.  A call of
`next` asks for a batch as long as it has no element, one for exactly one value
also when it has to see whether there is a second, and collecting goes on until
there is no batch.  Closing stops the query. -/
def Operation.Asks (taken : Nat) : Operation → Request → Prop
  | .next, request => taken < 1 ∧ request.IsResume
  | .oneDatum, request | .one _, request | .writeOutcome, request =>
    taken < 2 ∧ request.IsResume
  | .collect _, request | .collectInto .., request => request.IsResume
  | .close, request => request = .stop

theorem one_snd {τ : Type} [Connection τ] (read : Reader α) (c : Cursor)
    (s : Session τ) : (c.one read s).2 = (c.oneDatum s).2 := by
  rw [one]
  rcases c.oneDatum s with ⟨_ | _ | _, _⟩ <;> rfl

theorem collect_snd {τ : Type} [Connection τ] (read : Reader α) (c : Cursor)
    (s : Session τ) : (c.collect read s).2 = (c.collectInto read [] s).2.2 := by
  rw [collect]
  rcases c.collectInto read [] s with ⟨_, _ | _ | _, _⟩ <;> rfl

/-- Given up at a request, a call has sent what it sends otherwise up to that
request, and leaves behind a cursor that has not failed and stores nothing. -/
theorem Operation.at_request (operation : Operation) {c : Cursor}
    (hc : c.Settled) (s : Session σ) {before : List (Envelope × Exchange)}
    {entry : Envelope × Exchange}
    (hentry : before ++ [entry] <+:
      (operation.perform c s.logged).2.connection.log) :
    operation.Asks (c.stored.length + (brought c.token before).length)
        entry.1.request ∧
      ∃ left after,
        operation.perform c (s.logged.limited before.length) = (left, after) ∧
        after.connection.connection.log = before ++ [entry] ∧
        left.fault = none ∧ left.stored = [] := by
  have hsent : s.logged.connection.log.length + before.length = before.length :=
    Nat.zero_add _
  have hresult :
      operation.Asks (c.stored.length + (brought c.token before).length)
        entry.1.request ∧
      (operation.perform c
        (s.logged.limited before.length)).2.connection.connection.log =
          before ++ [entry] ∧
      (operation.perform c (s.logged.limited before.length)).1.fault = none ∧
      (operation.perform c (s.logged.limited before.length)).1.stored = [] := by
    cases operation with
    | next => exact (Cut.next c s.logged hsent).at_request rfl hentry
    | oneDatum => exact (Cut.oneDatum c s.logged hsent).at_request rfl hentry
    | one read =>
        rw [perform, one_snd] at hentry ⊢
        exact (Cut.oneDatum c s.logged hsent).at_request rfl hentry
    | collect read =>
        rw [perform, collect_snd] at hentry ⊢
        exact (Cut.collectInto read [] c s.logged hsent).at_request rfl hentry
    | collectInto read done =>
        exact (Cut.collectInto read done c s.logged hsent).at_request rfl hentry
    | writeOutcome =>
        exact (Cut.writeOutcome c s.logged hsent).at_request rfl hentry
    | close => exact (Cut.close hc s.logged hsent).at_request rfl hentry
  exact ⟨hresult.1, _, _, rfl, hresult.2⟩

end Cursor

end DocumentQuery
