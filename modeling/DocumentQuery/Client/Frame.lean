import DocumentQuery.Fault
import DocumentQuery.Session.Reply

/-!
# Frames

On the wire, messages are frames: the token in eight bytes and the length of
the payload in four, both with the least significant byte first, and then the
payload.  Both sides agree on how long a payload may be.
-/

namespace DocumentQuery

structure Frame where
  token : Token
  payload : Bytes
  deriving DecidableEq, Repr

/-- A number in a given count of bytes, the least significant first. -/
def littleEndian (n : Nat) : (count : Nat) → Bytes
  | 0 => []
  | count + 1 => UInt8.ofNat (n % 256) :: littleEndian (n / 256) count

/-- The number that bytes spell, the least significant first. -/
def ofLittleEndian : Bytes → Nat
  | [] => 0
  | b :: rest => b.toNat + 256 * ofLittleEndian rest

theorem length_littleEndian (n count : Nat) : (littleEndian n count).length = count := by
  induction count generalizing n with
  | zero => rfl
  | succ count ih => simp [littleEndian, ih]

namespace Frame

/-- The bytes before a payload: the token and the length. -/
def headerLength : Nat := 12

/-- The usual bound on the length of a payload. -/
def defaultLimit : Nat := 64 * 1024 * 1024

def toBytes (f : Frame) : Bytes :=
  littleEndian f.token.toNat 8 ++ littleEndian f.payload.length 4 ++ f.payload

/-- The buffer with a frame put at its end.  A payload over the limit, or one
whose length does not fit, is refused. -/
def encode (limit : Nat) (f : Frame) (buffer : Bytes) : Except ConnectionFault Bytes :=
  if limit < f.payload.length then .error (.frameTooLong f.payload.length limit)
  else if 0x100000000 ≤ f.payload.length then
    .error (.other ("Frame too large: " ++ toString f.payload.length))
  else .ok (buffer ++ f.toBytes)

/-- The frame at the front of a buffer and what follows it, or nothing if the
frame is not complete.  A length over the limit is refused as soon as it is
known. -/
def decode (limit : Nat) (buffer : Bytes) : Except ConnectionFault (Option (Frame × Bytes)) :=
  if buffer.length < headerLength then .ok none
  else
    let token := ofLittleEndian (buffer.take 8)
    let length := ofLittleEndian ((buffer.drop 8).take 4)
    let rest := buffer.drop headerLength
    if limit < length then .error (.frameTooLong length limit)
    else if rest.length < length then .ok none
    else .ok (some (⟨.ofNat token, rest.take length⟩, rest.drop length))

/-- Like `decode`, at the end of the stream: an incomplete frame is a fault. -/
def decodeLast (limit : Nat) (buffer : Bytes) :
    Except ConnectionFault (Option (Frame × Bytes)) :=
  match decode limit buffer with
  | .ok none => if buffer.isEmpty then .ok none else .error .bytesLeft
  | result => result

end Frame

end DocumentQuery
