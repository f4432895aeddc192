import DocumentQuery.Number.Shortest

/-!
# Layouts of numbers

Once the digits of a number are chosen, a layout says how they are set out:
which magnitudes are written positionally, and whether a whole number keeps a
zero after its point.
-/

namespace DocumentQuery

-- Powers are those of the core library, whatever else is imported.
attribute [local instance (2000)] instPowNat

/-- How digits become a numeral. -/
structure Layout where
  /-- Which of two equally close shortest decimals is written. -/
  tie : Tie
  /-- Powers of ten of the leading digit that are written positionally: from
  the first up to, not including, the second.  All of them when absent. -/
  positional : Option (Int × Int)
  /-- Whether a whole number is written with a zero after the point. -/
  pointed : Bool
  deriving DecidableEq, Repr

namespace Layout

/-- Numbers in text for people: never an exponent, no superfluous point. -/
def plain : Layout := ⟨.up, none, false⟩

/-- Numbers in documents: positional from `10 ^ -5` and below `10 ^ 16`. -/
def document : Layout := ⟨.even, some (-5, 16), true⟩

/-- Narrow numbers in documents: positional from `10 ^ -6` and below `10 ^ 13`. -/
def narrow : Layout := ⟨.even, some (-6, 13), true⟩

/-- Whether a decimal whose leading digit stands at `10 ^ lead` is positional. -/
def isPositional (layout : Layout) (lead : Int) : Bool :=
  match layout.positional with
  | none => true
  | some (low, high) => decide (low ≤ lead ∧ lead < high)

def numeral (layout : Layout) (negative : Bool) (d : Decimal) : Numeral :=
  let length := decimalLength d.significand
  let lead := d.exponent + length - 1
  if d.significand = 0 ∨ layout.isPositional lead then
    match d.exponent with
    | .ofNat zeros =>
      ⟨negative, d.significand * 10 ^ zeros, if layout.pointed then some [0] else none, none⟩
    | .negSucc places =>
      ⟨negative, d.significand / 10 ^ (places + 1),
        some (lastDigits d.significand (places + 1)), none⟩
  else
    ⟨negative, d.significand / 10 ^ (length - 1),
      if length = 1 then none else some (lastDigits d.significand (length - 1)), some lead⟩

end Layout

namespace Binary

variable {p : Precision}

/-- The shortest numeral of a finite number. -/
def toNumeral? (layout : Layout) : Binary p → Option Numeral
  | .finite negative rank =>
    let digits := if rank.val = 0 then ⟨0, 0⟩ else Decimal.shortest p layout.tie rank
    some (layout.numeral negative digits)
  | _ => none

def display (n : Binary p) : String :=
  match n with
  | .nan => "NaN"
  | .infinite negative => if negative then "-inf" else "inf"
  | _ => ((n.toNumeral? .plain).map fun numeral => String.ofList numeral.render).getD ""

end Binary

end DocumentQuery
