/-!
# Binary floating-point numbers

The finite magnitudes of a binary format are listed in increasing order, and a
number is kept as its place in that list, its rank.  Rank zero is zero, the
first ranks are the multiples of the smallest unit, and from then on each run
of `2 ^ fractionBits` ranks doubles the step.  Every magnitude is a natural
number of units, so rounding is a comparison of naturals, and running off the
end of the list is overflow.
-/

namespace DocumentQuery

-- Powers are those of the core library, whatever else is imported.
attribute [local instance (2000)] instPowNat

/-- A binary format: how many fraction bits a significand keeps, that the
smallest unit is `2 ^ -unitBits`, and how many finite magnitudes there are. -/
structure Precision where
  fractionBits : Nat
  unitBits : Nat
  limit : Nat
  deriving DecidableEq, Repr

namespace Precision

/-- The format of every number in a document. -/
def double : Precision := ⟨52, 1074, 0x7FF0000000000000⟩

/-- The narrow format some destinations round to. -/
def single : Precision := ⟨23, 149, 0x7F800000⟩

/-- The magnitude of a rank, in units of `2 ^ -unitBits`. -/
def units (p : Precision) (rank : Nat) : Nat :=
  if rank < 2 ^ p.fractionBits then rank
  else (2 ^ p.fractionBits + rank % 2 ^ p.fractionBits) * 2 ^ (rank / 2 ^ p.fractionBits - 1)

end Precision

/-- The integer nearest to `a / b`; a half goes to the even neighbour. -/
def roundHalfEven (a b : Nat) : Nat :=
  let quotient := a / b
  let rest := 2 * (a % b)
  if rest < b ∨ (rest = b ∧ quotient % 2 = 0) then quotient else quotient + 1

/-- The rank whose magnitude is nearest to `a / b` units; a tie goes to the
even rank.  A value too large for the format gets a rank past its limit. -/
def Precision.nearest (p : Precision) (a b : Nat) : Nat :=
  let whole := a / b
  let shift := if whole < 2 ^ (p.fractionBits + 1) then 0 else whole.log2 - p.fractionBits
  shift * 2 ^ p.fractionBits + roundHalfEven a (b * 2 ^ shift)

/-- A number of the format: not a number, an infinity, or a signed magnitude. -/
inductive Binary (p : Precision) where
  | nan
  | infinite (negative : Bool)
  | finite (negative : Bool) (rank : Fin p.limit)
  deriving DecidableEq, Repr

/-- The numbers of documents. -/
abbrev Number := Binary .double

namespace Binary

variable {p q : Precision}

/-- A rank past the last finite magnitude is an infinity. -/
def ofRank (negative : Bool) (rank : Nat) : Binary p :=
  if h : rank < p.limit then .finite negative ⟨rank, h⟩ else .infinite negative

/-- The number nearest to the fraction `a / b`. -/
def ofRatio (negative : Bool) (a b : Nat) : Binary p :=
  ofRank negative (p.nearest (a * 2 ^ p.unitBits) b)

def ofInt (i : Int) : Binary p :=
  ofRatio (decide (i < 0)) i.natAbs 1

def ofNat (n : Nat) : Binary p :=
  ofRatio false n 1

/-- The same value rounded to another format. -/
def convert : Binary p → Binary q
  | .nan => .nan
  | .infinite negative => .infinite negative
  | .finite negative rank => ofRatio negative (p.units rank) (2 ^ p.unitBits)

def isFinite : Binary p → Bool
  | .finite .. => true
  | _ => false

/-- Numeric equality: not-a-number equals nothing, and the two zeros are equal. -/
def equals : Binary p → Binary p → Bool
  | .finite s r, .finite s' r' => decide (r = r') && (decide (s = s') || decide (r.val = 0))
  | .infinite s, .infinite s' => decide (s = s')
  | _, _ => false

/-- A signed magnitude, in units of `2 ^ -unitBits`. -/
def signedUnits (negative : Bool) (rank : Fin p.limit) : Int :=
  if negative then -(p.units rank : Int) else p.units rank

def zero : Binary p := ofRank false 0

/-- What stands behind the point of a number.  An infinity has no such part. -/
def fraction : Binary p → Binary p
  | .finite negative rank =>
    let rest := p.units rank % 2 ^ p.unitBits
    ofRank (negative && rest != 0) (p.nearest rest 1)
  | _ => .nan

/-- The sum of two numbers, rounded once.  A sum that is zero is negative only
if both numbers are. -/
def add : Binary p → Binary p → Binary p
  | .nan, _ => .nan
  | _, .nan => .nan
  | .infinite s, .infinite s' => if s = s' then .infinite s else .nan
  | .infinite s, .finite .. => .infinite s
  | .finite .., .infinite s => .infinite s
  | .finite s r, .finite s' r' =>
    let sum := signedUnits s r + signedUnits s' r'
    ofRank (if sum = 0 then s && s' else decide (sum < 0)) (p.nearest sum.natAbs 1)

/-- Numeric order.  Nothing is less than not-a-number, nor is it less than
anything. -/
def less : Binary p → Binary p → Bool
  | .finite s r, .finite s' r' => decide (signedUnits s r < signedUnits s' r')
  | .finite .., .infinite s => !s
  | .infinite s, .finite .. => s
  | .infinite s, .infinite s' => s && !s'
  | _, _ => false

def atMost (a b : Binary p) : Bool := a.less b || a.equals b

/-- A number without its fraction, brought between two bounds.  Not-a-number
counts as zero. -/
def saturate (low high : Int) : Binary p → Int
  | .nan => 0
  | .infinite negative => if negative then low else high
  | .finite negative rank =>
    max low (min high ((signedUnits negative rank).tdiv (2 ^ p.unitBits)))

/-- The integer a number is, if it is one between the two bounds.  The greatest
integer of a type need not be a number, which is why the number one past it is
compared with. -/
def toIntBetween? (low high : Int) (n : Binary p) : Option Int :=
  if n.fraction.equals zero && (ofInt low).atMost n && n.less ((ofInt high).add (ofInt 1)) then
    some (n.saturate low high)
  else none

/-- The natural number below `2 ^ 64` that a number is, if it is one.  The
greatest word is rounded to `2 ^ 64`. -/
def toWord? (n : Binary p) : Option Nat :=
  if n.fraction.equals zero && zero.atMost n && n.less (ofNat 0xFFFFFFFFFFFFFFFF) then
    some (n.saturate 0 0xFFFFFFFFFFFFFFFF).toNat
  else none

end Binary

end DocumentQuery
