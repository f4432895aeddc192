import DocumentQuery.Proofs.CursorMoves

/-!
# Connections that keep a log

Any connection can be watched: what it is asked and what becomes of it is kept
in a log, and nothing else changes.  What a query received from the server is
read off the log by its token, whatever else the session is used for.
-/

namespace DocumentQuery

/-- A connection together with the requests sent over it and what became of
them. -/
structure Logged (σ : Type) where
  connection : σ
  log : List (Envelope × Exchange)

variable {σ : Type}

instance [Connection σ] : Connection (Logged σ) where
  send request watched :=
    let (exchange, connection) := Connection.send request watched.connection
    (exchange, ⟨connection, watched.log ++ [(request, exchange)]⟩)
  close watched :=
    let (result, connection) := Connection.close watched.connection
    (result, ⟨connection, watched.log⟩)
  repliesLeft watched := Connection.repliesLeft watched.connection
  repliesLeft_send request watched bytes after h := by
    obtain ⟨hreply, rfl⟩ := Prod.mk.inj h
    exact Connection.repliesLeft_send request watched.connection bytes _
      (Prod.ext hreply rfl)

/-- The bytes of a reply. -/
def Exchange.reply? : Exchange → Option Bytes
  | .reply bytes => some bytes
  | _ => none

namespace Session

/-- The session with its connection watched from now on. -/
def logged (s : Session σ) : Session (Logged σ) :=
  ⟨⟨s.connection, []⟩, s.settings, s.nextToken, s.closed, s.events⟩

/-- The replies to the requests with a token, the earliest first. -/
def replies (s : Session (Logged σ)) (token : Token) : List Bytes :=
  s.connection.log.filterMap fun entry =>
    if entry.1.token = token then entry.2.reply? else none

theorem replies_congr {s s' : Session (Logged σ)}
    (h : s'.connection = s.connection) (token : Token) : s'.replies token = s.replies token := by
  rw [replies, h, replies]

theorem replies_logged (s : Session σ) (token : Token) :
    s.logged.replies token = [] := rfl

/-- The requests with a token and what became of each, the earliest first. -/
def exchanges (s : Session (Logged σ)) (token : Token) :
    List (Request × Exchange) :=
  s.connection.log.filterMap fun entry =>
    if entry.1.token = token then some (entry.1.request, entry.2) else none

theorem replies_eq_exchanges (s : Session (Logged σ)) (token : Token) :
    s.replies token = (s.exchanges token).filterMap (·.2.reply?) := by
  rw [replies, exchanges, List.filterMap_filterMap]
  congr 1
  funext entry
  split <;> rfl

variable [Connection σ]

theorem closed_send {τ : Type} [Connection τ] {s s' : Session τ}
    {request : Envelope} {exchange : Exchange}
    (h : s.send request = (exchange, s')) : s'.closed = s.closed := by
  unfold send at h
  split at h <;> cases h <;> rfl

theorem send_closed {τ : Type} [Connection τ] {s : Session τ}
    (hclosed : s.closed = true) (request : Envelope) :
    s.send request = (.failed (.connection .sessionClosed), s) := by
  rw [send, if_pos hclosed]

/-- What is sent in an open session is kept, with what becomes of it. -/
theorem log_send {s s' : Session (Logged σ)} {request : Envelope}
    {exchange : Exchange} (hopen : s.closed = false)
    (h : s.send request = (exchange, s')) :
    s'.connection.log = s.connection.log ++ [(request, exchange)] := by
  unfold send at h
  rw [hopen] at h
  obtain ⟨hexchange, rfl⟩ := Prod.mk.inj h
  rw [← hexchange]
  rfl

theorem log_send_cases {s s' : Session (Logged σ)} {request : Envelope}
    {exchange : Exchange} (h : s.send request = (exchange, s')) :
    exchange = .failed (.connection .sessionClosed) ∧ s' = s ∨
      s'.connection.log = s.connection.log ++ [(request, exchange)] := by
  by_cases hclosed : s.closed
  · rw [send_closed hclosed] at h
    cases h
    exact .inl ⟨rfl, rfl⟩
  · exact .inr (log_send (by simpa using hclosed) h)

theorem log_send_of_ne_failed {s s' : Session (Logged σ)} {request : Envelope}
    {exchange : Exchange} (h : s.send request = (exchange, s'))
    (hexchange : ∀ fault, exchange ≠ .failed fault) :
    s'.connection.log = s.connection.log ++ [(request, exchange)] :=
  (log_send_cases h).resolve_left fun hfailed => hexchange _ hfailed.1

theorem exchanges_send {s s' : Session (Logged σ)} {request : Envelope}
    {exchange : Exchange} (hopen : s.closed = false)
    (h : s.send request = (exchange, s')) :
    s'.exchanges request.token =
      s.exchanges request.token ++ [(request.request, exchange)] := by
  rw [exchanges, log_send hopen h, List.filterMap_append, exchanges]
  simp

theorem replies_send {s s' : Session (Logged σ)} {request : Envelope}
    {exchange : Exchange} (h : s.send request = (exchange, s')) :
    s'.replies request.token =
      s.replies request.token ++ exchange.reply?.toList := by
  rcases log_send_cases h with ⟨rfl, rfl⟩ | hlog
  · exact (List.append_nil _).symm
  · rw [replies, hlog, List.filterMap_append, replies]
    cases hreply : exchange.reply? <;> simp [hreply]

end Session

theorem Cursor.start_token (s : Session σ) (token : Token) (shape : ResultShape)
    (reply : Reply) : (Cursor.start s token shape reply).1.token = token := by
  cases reply <;> rfl

/-- When a query yields a cursor, it has received one reply, which is no
failure. -/
theorem Query.replies_run [Connection σ] {q : Query} {s : Session σ}
    {s' : Session (Logged σ)} {c : Cursor} (h : q.run s.logged = (.ok c, s')) :
    ∃ (bytes : Bytes) (reply : Reply) (noted : Session (Logged σ)),
      s'.replies c.token = [bytes] ∧ Reply.decode bytes c.token = .ok reply ∧
      (∀ report, reply ≠ .failure report) ∧
      c = (Cursor.start noted c.token q.shape reply).1 := by
  obtain ⟨before, after, noted, term, bytes, reply, hbefore, hsend, hdecode,
    hreply, hafter, rfl⟩ := Query.run_ok h
  have hreplies : s'.replies s.logged.nextToken = [bytes] := by
    rw [Session.replies_congr hafter, Session.replies_send hsend,
      Session.replies_congr hbefore, Session.replies_logged]
    rfl
  rw [Cursor.start_token]
  exact ⟨bytes, reply, noted, hreplies, hdecode, hreply, rfl⟩

end DocumentQuery
