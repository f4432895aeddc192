import DocumentQuery.Number.Numeral

/-!
# Numerals of documents

A numeral in a document is read quickly rather than exactly.  Its leading
digits, as many as a word of 64 bits holds, make a whole number, and that is
multiplied or divided by a power of ten.  The whole number, the power of ten
and the result are each rounded, so the number read is the nearest one while
the first two are exact, and otherwise may lie a step or two beside it.
-/

namespace DocumentQuery

-- Powers are those of the core library, whatever else is imported.
attribute [local instance (2000)] instPowNat

namespace Precision

/-- The rank nearest to the product of two magnitudes. -/
def multiply (p : Precision) (rank other : Nat) : Nat :=
  p.nearest (p.units rank * p.units other) (2 ^ p.unitBits)

/-- The rank nearest to the quotient of two magnitudes. -/
def divide (p : Precision) (rank other : Nat) : Nat :=
  p.nearest (p.units rank * 2 ^ p.unitBits) (p.units other)

/-- The rank nearest to a power of ten. -/
def powerOfTen (p : Precision) (power : Nat) : Nat := Decimal.rank p ⟨1, power⟩

end Precision

/-- The last power of ten that is a document's number. -/
def maxPowerOfTen : Nat := 308

/-- A magnitude below `2 ^ 64` times a power of ten.  A divisor past the last
power of ten is divided by in two steps, and after two full ones nothing is
left. -/
def scaleByPowerOfTen (rank : Nat) : (power : Int) → Nat
  | .ofNat power =>
    if power ≤ maxPowerOfTen then
      Precision.double.multiply rank (Precision.double.powerOfTen power)
    else if rank = 0 then 0
    else Precision.double.limit
  | .negSucc power =>
    let power := power + 1
    if power ≤ maxPowerOfTen then
      Precision.double.divide rank (Precision.double.powerOfTen power)
    else if power ≤ 2 * maxPowerOfTen then
      let once := Precision.double.divide rank (Precision.double.powerOfTen maxPowerOfTen)
      Precision.double.divide once (Precision.double.powerOfTen (power - maxPowerOfTen))
    else 0

/-- The number that `start` and the digits after it write, up to the first
digit that takes it past a word of 64 bits, and the digits from that one on. -/
def takeWord (start : Nat) : List (Fin 10) → Nat × List (Fin 10)
  | [] => (start, [])
  | d :: rest =>
    if 10 * start + d.val < 0x10000000000000000 then takeWord (10 * start + d.val) rest
    else (start, d :: rest)

theorem le_digitsValue (start : Nat) (digits : List (Fin 10)) :
    start ≤ digitsValue start digits := by
  induction digits generalizing start with
  | nil => exact Nat.le_refl _
  | cons d rest ih =>
    have := ih (10 * start + d.val)
    show start ≤ digitsValue (10 * start + d.val) rest
    omega

/-- Digits that fit a word are all taken. -/
theorem takeWord_of_lt {start : Nat} {digits : List (Fin 10)}
    (h : digitsValue start digits < 0x10000000000000000) :
    takeWord start digits = (digitsValue start digits, []) := by
  induction digits generalizing start with
  | nil => rfl
  | cons d rest ih =>
    have hrest : digitsValue (10 * start + d.val) rest < 0x10000000000000000 := h
    have hnext := Nat.lt_of_le_of_lt (le_digitsValue (10 * start + d.val) rest) hrest
    rw [takeWord, if_pos hnext, ih hrest]
    rfl

/-- The leading digits of a numeral that a word of 64 bits holds, at the power
of ten where they stand.  The fraction is tried again after a whole part that
did not fit. -/
def Numeral.leading (n : Numeral) : Decimal :=
  let (whole, dropped) := takeWord 0 (lastDigits n.whole (decimalLength n.whole))
  let fraction := n.fraction.getD []
  let (significand, unread) := takeWord whole fraction
  ⟨significand, n.exponent.getD 0 + dropped.length + unread.length - fraction.length⟩

/-- The number a document's numeral is read as; none for a numeral that runs
past the format. -/
def Numeral.toNumber? (n : Numeral) : Option Number :=
  let leading := n.leading
  let whole := Decimal.rank .double ⟨leading.significand, 0⟩
  let number := Binary.ofRank n.negative (scaleByPowerOfTen whole leading.exponent)
  if number.isFinite then some number else none

end DocumentQuery
