import DocumentQuery.Number.Binary

/-!
# Decimal numerals

A numeral is the written form of a decimal number: a sign, the digits before
the point, the digits after it and a power of ten.  A decimal is what it
stands for.  The number of a binary format nearest to a numeral comes of
rounding the decimal once; two bounds on the power of ten keep that from ever
building a needlessly large natural.
-/

namespace DocumentQuery

-- Powers are those of the core library, whatever else is imported.
attribute [local instance (2000)] instPowNat

/-- The value `significand * 10 ^ exponent`. -/
structure Decimal where
  significand : Nat
  exponent : Int
  deriving DecidableEq, Repr

def digitChar (d : Fin 10) : Char := Char.ofNat (48 + d.val)

def digitValue? (c : Char) : Option (Fin 10) :=
  if h : 48 ≤ c.toNat ∧ c.toNat ≤ 57 then some ⟨c.toNat - 48, by omega⟩ else none

/-- The natural number that digits write after those of `start`. -/
def digitsValue (start : Nat) (digits : List (Fin 10)) : Nat :=
  digits.foldl (fun n d => 10 * n + d.val) start

/-- The last `width` decimal digits of `n`, padded with zeros on the left. -/
def lastDigits (n : Nat) : (width : Nat) → List (Fin 10)
  | 0 => []
  | width + 1 => ⟨n / 10 ^ width % 10, Nat.mod_lt _ (by decide)⟩ :: lastDigits n width

def decimalLength (n : Nat) : Nat := (Nat.toDigits 10 n).length

structure Numeral where
  negative : Bool
  whole : Nat
  fraction : Option (List (Fin 10))
  exponent : Option Int
  deriving DecidableEq, Repr

/-- What a numeral stands for, its sign apart. -/
def Numeral.magnitude (n : Numeral) : Decimal :=
  let fraction := n.fraction.getD []
  ⟨digitsValue n.whole fraction, n.exponent.getD 0 - fraction.length⟩

/-- Whole numerals have neither a point nor a power of ten. -/
def Numeral.isWhole (n : Numeral) : Bool := n.fraction.isNone && n.exponent.isNone

/-- The natural number below `2 ^ 64` a numeral spells out, if it does. -/
def Numeral.toWord? (n : Numeral) : Option Nat :=
  if n.isWhole && !n.negative && decide (n.whole < 0x10000000000000000) then some n.whole else none

/-- The characters of a numeral.  A power of ten always shows its sign. -/
def Numeral.render (n : Numeral) : List Char :=
  (if n.negative then ['-'] else []) ++ Nat.toDigits 10 n.whole
    ++ (match n.fraction with
      | none => []
      | some digits => '.' :: digits.map digitChar)
    ++ (match n.exponent with
      | none => []
      | some e => 'e' :: (if e < 0 then '-' else '+') :: Nat.toDigits 10 e.natAbs)

namespace Decimal

/-- The rank nearest to a decimal.  Beyond `10 ^ unitBits` everything
overflows, and below `10 ^ -unitBits` everything rounds to zero. -/
def rank (p : Precision) (d : Decimal) : Nat :=
  if d.significand = 0 then 0
  else
    match d.exponent with
    | .ofNat e =>
      if p.unitBits < e then p.limit
      else p.nearest (d.significand * 10 ^ e * 2 ^ p.unitBits) 1
    | .negSucc e =>
      if p.unitBits + d.significand.log2 < e then 0
      else p.nearest (d.significand * 2 ^ p.unitBits) (10 ^ (e + 1))

end Decimal

/-- The number of the format nearest to what a numeral stands for. -/
def Numeral.toBinary (p : Precision) (n : Numeral) : Binary p :=
  .ofRank n.negative (n.magnitude.rank p)

end DocumentQuery
