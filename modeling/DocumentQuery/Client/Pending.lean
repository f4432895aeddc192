import DocumentQuery.Fault
import DocumentQuery.Session.Reply

/-!
# Requests in flight

Several requests can be on their way at once, each under its own token.  Who
sends one holds a ticket for the answer.  An answer is handed to the ticket
that waits under its token; once the connection is lost, every waiting ticket
gets the fault, and no new ones are given out.
-/

namespace DocumentQuery

/-- The claim to the answer under a token.  No two tickets have the same
number. -/
structure Ticket where
  number : Nat
  token : Token
  deriving DecidableEq, Repr

/-- What became of the answer to a ticket. -/
inductive Fate where
  | answered (payload : Bytes)
  | failed (fault : Fault)
  /-- The request was removed, so there will be none. -/
  | removed
  deriving Repr

/-- The requests in flight, and what became of those that are not any more. -/
structure PendingRequests where
  /-- The ticket numbers that wait, by token. -/
  waiting : List (Token × Nat) := []
  /-- What became of tickets that wait no more. -/
  fates : List (Nat × Fate) := []
  /-- Why the connection was lost. -/
  lost : Option Fault := none
  nextNumber : Nat := 0
  deriving Repr

namespace PendingRequests

/-- Gives out a ticket for the answer under a token. -/
def register (p : PendingRequests) (token : Token) : Except Fault Ticket × PendingRequests :=
  match p.lost with
  | some fault => (.error fault, p)
  | none =>
    match p.waiting.lookup token with
    | some _ => (.error (.connection (.alreadyWaiting token)), p)
    | none =>
      (.ok ⟨p.nextNumber, token⟩,
        { p with
          waiting := (token, p.nextNumber) :: p.waiting
          nextNumber := p.nextNumber + 1 })

/-- Ends the wait under a token, with what became of it. -/
def settle (p : PendingRequests) (token : Token) (fate : Fate) : PendingRequests :=
  match p.waiting.lookup token with
  | none => p
  | some number =>
    { p with
      waiting := p.waiting.filter (·.1 ≠ token)
      fates := (number, fate) :: p.fates }

/-- Hands an answer to the ticket that waits under its token.  Also says whether
there was one. -/
def complete (p : PendingRequests) (token : Token) (payload : Bytes) : Bool × PendingRequests :=
  ((p.waiting.lookup token).isSome, p.settle token (.answered payload))

def remove (p : PendingRequests) (token : Token) : PendingRequests := p.settle token .removed

/-- Fails every waiting ticket, and every later request with the first fault that
was given. -/
def failAll (p : PendingRequests) (fault : Fault) : PendingRequests :=
  { p with
    waiting := []
    fates := p.waiting.map (fun (_, number) => (number, .failed fault)) ++ p.fates
    lost := p.lost <|> some fault }

/-- What a ticket resolves to, if it does by now. -/
def answer? (p : PendingRequests) (ticket : Ticket) : Option (Except Fault Bytes) :=
  match p.fates.lookup ticket.number with
  | none => none
  | some (.answered payload) => some (.ok payload)
  | some (.failed fault) => some (.error fault)
  | some .removed => some (.error (.connection (.dropped ticket.token)))

/-- Drops a ticket.  Its token becomes free if it was still waiting. -/
def drop (p : PendingRequests) (ticket : Ticket) : PendingRequests :=
  match p.fates.lookup ticket.number with
  | some _ => p
  | none => p.remove ticket.token

/-- Waits for the answer to a ticket.  Once it is there, the ticket is given up
for it. -/
def wait (p : PendingRequests) (ticket : Ticket) :
    Option (Except Fault Bytes) × PendingRequests :=
  match p.answer? ticket with
  | none => (none, p)
  | some answer => (some answer, p.drop ticket)

def length (p : PendingRequests) : Nat := p.waiting.length

end PendingRequests

end DocumentQuery
