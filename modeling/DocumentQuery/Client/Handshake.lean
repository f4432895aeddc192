import DocumentQuery.Client.Frame

/-!
# The handshake

A client opens a connection by naming the protocol version, its key and the
form of the messages.  The server answers with a text that ends in a zero byte:
`SUCCESS`, or the reason why it refuses.  The client reads that text and not a
byte more, since frames follow it.
-/

namespace DocumentQuery.Handshake

def version : Nat := 0x723081e1

/-- Messages are JSON text. -/
def jsonMessages : Nat := 0x7e6970c7

/-- The answer of a server that accepts. -/
def success : String := "SUCCESS"

/-- The longest answer the client reads. -/
def replyLimit : Nat := 4096

def encode (authKey : Option String) : Except ConnectionFault Bytes :=
  let key := Bytes.ofText (authKey.getD "")
  if 0x100000000 ≤ key.length then .error .keyTooLong
  else
    .ok (littleEndian version 4 ++ littleEndian key.length 4 ++ key ++
      littleEndian jsonMessages 4)

/-- The next byte of a stream that comes in pieces, and what follows it.  Pieces
may be empty. -/
def nextByte? : List Bytes → Option (UInt8 × List Bytes)
  | [] => none
  | [] :: later => nextByte? later
  | (b :: rest) :: later => some (b, rest :: later)

/-- Reads an answer from what the server sends, byte by byte up to its zero byte,
given how many bytes it may still have.  Also says what is left unread. -/
def readReply (room : Nat) (stream : List Bytes) : Except ConnectionFault Bytes × List Bytes :=
  match nextByte? stream with
  | none => (.error .closedInHandshake, [])
  | some (b, rest) =>
    if b = 0 then (.ok [], rest)
    else
      match room with
      | 0 => (.error .replyTooLong, rest)
      | room + 1 =>
        let (reply, rest) := readReply room rest
        (reply.map (b :: ·), rest)

/-- Whether an answer accepts the client. -/
def accept (reply : Bytes) : Except ConnectionFault Unit :=
  match reply.toText? with
  | none => .error .replyNotText
  | some text => if text = success then .ok () else .error (.handshakeRejected text)

/-- The client's part against all that the server sends, in the pieces in which it
arrives: how it ends, what the client has sent, and what it has left unread. -/
def exchange (authKey : Option String) (server : List Bytes) :
    Except ConnectionFault Unit × Bytes × List Bytes :=
  match encode authKey with
  | .error cause => (.error cause, [], server)
  | .ok sent =>
    let (reply, unread) := readReply replyLimit server
    (reply.bind accept, sent, unread)

/-- The client's part against a server whose bytes arrive in one piece. -/
def run (authKey : Option String) (server : Bytes) :
    Except ConnectionFault Unit × Bytes × Bytes :=
  let (outcome, sent, unread) := exchange authKey [server]
  (outcome, sent, unread.flatten)

end DocumentQuery.Handshake
