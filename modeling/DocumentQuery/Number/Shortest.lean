import DocumentQuery.Number.Numeral

/-!
# Shortest decimals

A magnitude of a binary format is an exact decimal, and usually a long one.
What is written is the decimal with the fewest digits that still reads back
as the same magnitude.  On the grid of each digit count only the two
neighbours of the exact value are candidates; the first grid with a neighbour
that reads back gives the digits.
-/

namespace DocumentQuery

-- Powers are those of the core library, whatever else is imported.
attribute [local instance (2000)] instPowNat

/-- Which of two equally close candidates is written. -/
inductive Tie where
  | up
  | even
  deriving DecidableEq, Repr

namespace Decimal

/-- The exact decimal value of a magnitude.  The power of two below the fraction
bar is cancelled as far as it goes, and the `2 ^ places` that is left makes
`places` decimal places. -/
def exact (p : Precision) (rank : Nat) : Decimal :=
  let units := p.units rank
  let common := units.gcd (2 ^ p.unitBits)
  let places := (2 ^ p.unitBits / common).log2
  ⟨units / common * 5 ^ places, -places⟩

/-- Moves trailing zeros from the digits to the power of ten, at most `fuel`
of them. -/
def stripZeros (d : Decimal) : (fuel : Nat) → Decimal
  | 0 => d
  | fuel + 1 =>
    if d.significand % 10 = 0 then
      stripZeros ⟨d.significand / 10, d.exponent + 1⟩ fuel
    else d

/-- The candidate next to `d` on the grid that drops its last `drop` digits
and reads back as `rank`; of two, the closer. -/
def neighbour? (p : Precision) (tie : Tie) (rank : Nat) (d : Decimal) (drop : Nat) :
    Option Decimal :=
  let step := 10 ^ drop
  let below : Decimal := ⟨d.significand / step, d.exponent + drop⟩
  let above : Decimal := ⟨d.significand / step + 1, d.exponent + drop⟩
  let rest := 2 * (d.significand % step)
  let preferBelow :=
    rest < step || (decide (rest = step) && tie == .even && below.significand % 2 == 0)
  match decide (below.rank p = rank), decide (above.rank p = rank) with
  | true, true => some (if preferBelow then below else above)
  | true, false => some below
  | false, true => some above
  | false, false => none

/-- The first success among the digit counts from `count` on, `fuel` of them. -/
def searchFrom (candidate : Nat → Option Decimal) (count : Nat) : (fuel : Nat) → Option Decimal
  | 0 => none
  | fuel + 1 =>
    match candidate count with
    | some d => some d
    | none => searchFrom candidate (count + 1) fuel

/-- The decimal with the fewest digits that reads back as the magnitude. -/
def shortest (p : Precision) (tie : Tie) (rank : Nat) : Decimal :=
  let value := exact p rank
  let length := decimalLength value.significand
  let digits := searchFrom (fun count => neighbour? p tie rank value (length - count)) 1 17
  let found := digits.getD value
  found.stripZeros (decimalLength found.significand)

end Decimal

end DocumentQuery
