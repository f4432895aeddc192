import DocumentQuery.Number.Numeral
import DocumentQuery.Text.Hex
import DocumentQuery.Url.Basic

/-!
# Addresses in brackets

An address is eight pieces of sixteen bits.  One run of zero pieces may be left
out where two colons stand, and the last two pieces may be written as four
decimal bytes.  It is written with the longest such run left out.
-/

namespace DocumentQuery.Url

/-- A piece: one to four hexadecimal digits. -/
def piece? (cs : List Char) : Option Nat := do
  guard (!cs.isEmpty && cs.length ≤ 4)
  let digits ← cs.mapM hexValue?
  return digits.foldl (fun n d => 16 * n + d) 0

/-- A decimal byte, without superfluous zeros. -/
def decimalByte? (cs : List Char) : Option Nat := do
  guard (!cs.isEmpty && cs.length ≤ 3 && (cs.length == 1 || cs.head? != some '0'))
  let digits ← cs.mapM digitValue?
  let n := digitsValue 0 digits
  guard (n ≤ 255)
  return n

/-- Two pieces written as four decimal bytes. -/
def decimalPieces? (cs : List Char) : Option (List Nat) := do
  match ← (cs.splitOn '.').mapM decimalByte? with
  | [a, b, c, d] => return [a * 256 + b, c * 256 + d]
  | _ => none

/-- Pieces between colons, the last of which may be four decimal bytes. -/
def pieces? : List (List Char) → Option (List Nat)
  | [] => some []
  | [last] => if last.contains '.' then decimalPieces? last else (piece? last).map ([·])
  | first :: rest => do return (← piece? first) :: (← pieces? rest)

/-- What stands before and after the first two colons in a row. -/
def splitAtGap : List Char → Option (List Char × List Char)
  | ':' :: ':' :: rest => some ([], rest)
  | c :: rest => (splitAtGap rest).map fun (before, after) => (c :: before, after)
  | [] => none

/-- Pieces between colons, of which there may be none. -/
def side? (cs : List Char) : Option (List Nat) :=
  if cs.isEmpty then some [] else pieces? (cs.splitOn ':')

/-- The eight pieces of an address. -/
def address? (cs : List Char) : Option (List Nat) :=
  match splitAtGap cs with
  | none => do
    let pieces ← pieces? (cs.splitOn ':')
    guard (pieces.length == 8)
    return pieces
  | some (before, after) => do
    guard (!before.contains '.')
    let before ← side? before
    let after ← side? after
    guard (before.length + after.length ≤ 7)
    return before ++ List.replicate (8 - before.length - after.length) 0 ++ after

/-- The length of the run of zeros at the front. -/
def zeroRun (pieces : List Nat) : Nat := (pieces.takeWhile (· == 0)).length

/-- Where the longest run of zeros starts, the first of them, and how long it
is. -/
def longestRun : (position : Nat) → List Nat → Nat × Nat
  | position, [] => (position, 0)
  | position, piece :: rest =>
    let here := zeroRun (piece :: rest)
    let later := longestRun (position + 1) rest
    if later.2 ≤ here then (position, here) else later

/-- Pieces in hexadecimal between colons. -/
def showPieces (pieces : List Nat) : List Char :=
  List.intercalate [':'] (pieces.map (Nat.toDigits 16))

/-- An address as it is written, with the longest run of zeros left out. -/
def showAddress (pieces : List Nat) : List Char :=
  let (start, length) := longestRun 0 pieces
  if length < 2 then showPieces pieces
  else showPieces (pieces.take start) ++ [':', ':'] ++ showPieces (pieces.drop (start + length))

end DocumentQuery.Url
