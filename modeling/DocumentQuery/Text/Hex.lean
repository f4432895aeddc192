/-!
# Hexadecimal digits

Hexadecimal is written in lower case and read in either.
-/

namespace DocumentQuery

def hexDigit (n : Nat) : Char := if n < 10 then Char.ofNat (48 + n) else Char.ofNat (87 + n)

/-- The value of a hexadecimal digit in either case. -/
def hexValue? (c : Char) : Option Nat :=
  let n := c.toNat
  if 48 ≤ n ∧ n ≤ 57 then some (n - 48)
  else if 97 ≤ n ∧ n ≤ 102 then some (n - 87)
  else if 65 ≤ n ∧ n ≤ 70 then some (n - 55)
  else none

/-- The two digits of a byte. -/
def hexPair (byte : UInt8) : List Char :=
  [hexDigit (byte.toNat / 16), hexDigit (byte.toNat % 16)]

/-- Bytes as text, two digits for each. -/
def hexText (bytes : List UInt8) : String := String.ofList (bytes.flatMap hexPair)

/-- The bytes that digits stand for, two digits for each. -/
def bytesOfHex? : List Char → Option (List UInt8)
  | [] => some []
  | [_] => none
  | high :: low :: rest => do
    let high ← hexValue? high
    let low ← hexValue? low
    let bytes ← bytesOfHex? rest
    return .ofNat (16 * high + low) :: bytes

end DocumentQuery
