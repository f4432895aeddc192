import DocumentQuery.Text.Hex

/-!
# Parts of a URL

Only those parts of a URL are kept that a connection is made from: the scheme,
the user name, the host, the port and the path.  Characters that have no place
in a part are percent-encoded when it is read.
-/

namespace DocumentQuery

/-- Why a text is no URL. -/
inductive UrlFault where
  | noScheme
  | emptyHost
  | invalidPort
  | invalidAddress
  | invalidHostChar
  deriving DecidableEq, Repr

def UrlFault.message : UrlFault → String
  | .noScheme => "relative URL without a base"
  | .emptyHost => "empty host"
  | .invalidPort => "invalid port number"
  | .invalidAddress => "invalid IPv6 address"
  | .invalidHostChar => "invalid domain character"

/-- A URL, as far as it matters to a connection. -/
structure Url where
  scheme : String
  username : String
  host : Option String
  port : Option Nat
  path : String
  deriving DecidableEq, Repr

namespace Url

def upperHexDigit (n : Nat) : Char := if n < 10 then Char.ofNat (48 + n) else Char.ofNat (55 + n)

/-- A byte, percent-encoded. -/
def percentByte (b : UInt8) : List Char :=
  ['%', upperHexDigit (b.toNat / 16), upperHexDigit (b.toNat % 16)]

/-- A character percent-encoded if it is among those to be encoded.  Controls
and characters outside ASCII always are. -/
def percentEncodeChar (encoded : Char → Bool) (c : Char) : List Char :=
  if c.toNat < 0x20 ∨ 0x7F ≤ c.toNat ∨ encoded c then
    (String.singleton c).toUTF8.toList.flatMap percentByte
  else [c]

/-- A text in which the given characters are percent-encoded. -/
def percentEncode (encoded : Char → Bool) (cs : List Char) : List Char :=
  cs.flatMap (percentEncodeChar encoded)

/-- The bytes of a text in which some of them are percent-encoded. -/
def percentDecode : List Char → List UInt8
  | '%' :: high :: low :: rest =>
    match bytesOfHex? [high, low] with
    | some bytes => bytes ++ percentDecode rest
    | none => '%'.toUInt8 :: percentDecode (high :: low :: rest)
  | c :: rest => (String.singleton c).toUTF8.toList ++ percentDecode rest
  | [] => []

/-- What is encoded in a path, controls apart. -/
def encodedInPath (c : Char) : Bool :=
  [' ', '"', '<', '>', '\x60', '#', '?', '\x7b', '\x7d'].contains c

/-- What is encoded in a user name, controls apart. -/
def encodedInUser (c : Char) : Bool :=
  encodedInPath c || ['/', ':', ';', '=', '@', '[', '\\', ']', '^', '|'].contains c

/-- What a host that is no address must not hold. -/
def forbiddenInHost (c : Char) : Bool :=
  ['\x00', '\t', '\n', '\r', ' ', '#', '/', ':', '<', '>', '?', '@', '[', '\\', ']', '^',
    '|'].contains c

/-- Characters that a domain may hold but that do not belong to its name, as
ascending ranges: soft hyphens, invisible marks and the like. -/
def ignoredInDomain : List (Nat × Nat) :=
  [(0xAD, 0xAD), (0x34F, 0x34F), (0x115F, 0x1160), (0x17B4, 0x17B5), (0x180B, 0x180F),
   (0x200B, 0x200B), (0x2060, 0x2064), (0x206A, 0x206F), (0x3164, 0x3164), (0xFE00, 0xFE0F),
   (0xFEFF, 0xFEFF), (0xFFA0, 0xFFA0), (0x1BCA0, 0x1BCA3), (0x1D173, 0x1D17A),
   (0xE0100, 0xE01EF)]

/-- Whether nothing is left of a host that is read as a domain. -/
def isEmptyDomain (host : List Char) : Bool :=
  match String.fromUTF8? ⟨(percentDecode host).toArray⟩ with
  | none => false
  | some domain => domain.toList.all fun c =>
    ignoredInDomain.any fun range => decide (range.1 ≤ c.toNat ∧ c.toNat ≤ range.2)

end Url

end DocumentQuery
