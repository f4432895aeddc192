import DocumentQuery.Session.Event
import DocumentQuery.Session.Reply
import DocumentQuery.Session.Settings

/-!
# Sessions

A session sends requests over a connection, hands out their tokens, and keeps
the settings.  A connection answers a request with bytes, fails, or leaves it
unanswered; it answers only so many requests, and that number bounds every
loop that waits for answers.  A closed session sends nothing.
-/

namespace DocumentQuery

/-- What becomes of a request. -/
inductive Exchange where
  | reply (bytes : Bytes)
  | failed (fault : Fault)
  | unanswered
  deriving Repr

/-- What requests are sent over. -/
class Connection (σ : Type) where
  send : Envelope → σ → Exchange × σ
  close : σ → Except Fault Unit × σ
  /-- No more replies will come than this. -/
  repliesLeft : σ → Nat
  /-- Every reply is one less to come. -/
  repliesLeft_send : ∀ request connection bytes after,
    send request connection = (.reply bytes, after) → repliesLeft after < repliesLeft connection

/-- How a call ends: with a value, with a fault, or not at all, because a
request of it was left unanswered. -/
inductive Outcome (α : Type) where
  | ok (value : α)
  | error (fault : Fault)
  | pending
  deriving Repr

/-- The outcome of a call that does not wait. -/
def Outcome.ofExcept {α : Type} : Except Fault α → Outcome α
  | .ok value => .ok value
  | .error fault => .error fault

/-- A session over a connection.  Its events are kept with the latest first. -/
structure Session (σ : Type) where
  connection : σ
  settings : Settings := {}
  nextToken : Token := 1
  closed : Bool := false
  events : List Event := []

namespace Session

variable {σ : Type}

def note (s : Session σ) (event : Event) : Session σ := { s with events := event :: s.events }

/-- Records events, the earliest first. -/
def noteAll (s : Session σ) (events : List Event) : Session σ := events.foldl note s

/-- The requests that left for the server, the earliest first. -/
def requests (s : Session σ) : List Envelope := s.events.reverse.filterMap Event.request?

def takeToken (s : Session σ) : Token × Session σ :=
  (s.nextToken, { s with nextToken := s.nextToken + 1 })

def changeSetting (s : Session σ) (name : String) (value : Datum) :
    Except Fault Unit × Session σ :=
  match s.settings.set name value with
  | .ok settings => (.ok (), { s with settings := settings }.note (.changedSetting name value))
  | .error cause => (.error (.build cause), s)

/-- Changes the database of tables that name none. -/
def useDatabase (s : Session σ) (name : String) : Except Fault Unit × Session σ :=
  s.changeSetting SettingKey.defaultDatabase.name (.string name)

def setting (s : Session σ) (name : String) : Except Fault Datum :=
  (s.settings.get name).mapError .build

variable [Connection σ]

/-- Sends a request, unless the session is closed. -/
def send (s : Session σ) (request : Envelope) : Exchange × Session σ :=
  if s.closed then (.failed (.connection .sessionClosed), s)
  else
    let s := s.note (.sending request)
    let (exchange, connection) := Connection.send request s.connection
    (exchange, { s with connection := connection })

/-- Closes the session and its connection.  Closing it again does nothing. -/
def close (s : Session σ) : Except Fault Unit × Session σ :=
  if s.closed then (.ok (), s)
  else
    let s := { s with closed := true }.note .closing
    let (result, connection) := Connection.close s.connection
    (result, { s with connection := connection })

def repliesLeft (s : Session σ) : Nat := Connection.repliesLeft s.connection

theorem repliesLeft_send {s after : Session σ} {request : Envelope} {bytes : Bytes}
    (h : s.send request = (.reply bytes, after)) : after.repliesLeft < s.repliesLeft := by
  unfold send at h
  split at h
  · cases h
  · obtain ⟨hreply, rfl⟩ := Prod.mk.inj h
    exact Connection.repliesLeft_send _ _ bytes _ (Prod.ext hreply rfl)

end Session

end DocumentQuery
