import DocumentQuery.Session.Basic

/-!
# Scripted connections

A scripted connection answers each request with the next entry of a list,
whatever the request asks for; once the list is used up, every request fails.
-/

namespace DocumentQuery

/-- What the next request meets. -/
inductive ScriptEntry where
  /-- Bytes, which may depend on the token of the request. -/
  | reply (bytes : Token → Bytes)
  | failed (fault : Fault)
  | unanswered

/-- A connection that follows a list. -/
structure Script where
  entries : List ScriptEntry
  /-- How the next closing fails, if it does. -/
  closeFault : Option Fault := none
  /-- How often the connection was closed. -/
  closings : Nat := 0

namespace Script

def send (request : Envelope) (script : Script) : Exchange × Script :=
  match script.entries with
  | [] =>
    (.failed (.connection (.other ("no scripted reply for token " ++ toString request.token))),
      script)
  | .reply bytes :: rest => (.reply (bytes request.token), { script with entries := rest })
  | .failed fault :: rest => (.failed fault, { script with entries := rest })
  | .unanswered :: rest => (.unanswered, { script with entries := rest })

def close (script : Script) : Except Fault Unit × Script :=
  (match script.closeFault with
    | none => .ok ()
    | some fault => .error fault,
    { script with closeFault := none, closings := script.closings + 1 })

instance : Connection Script where
  send := send
  close := close
  repliesLeft script := script.entries.length
  repliesLeft_send request script bytes after h := by
    unfold send at h
    split at h <;> cases h
    next hentries => simp [hentries]

end Script

end DocumentQuery
