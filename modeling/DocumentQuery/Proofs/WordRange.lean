import DocumentQuery.Datum.Basic
import DocumentQuery.Number.Scaling
import Mathlib.Tactic

/-!
# Words are in range

Tokens, batch sizes and the numbers of parameters are words of 64 bits.  As
document numbers most of them are rounded, but none of them comes near the end
of the format, neither when it is taken for a number nor when it is read from a
numeral.
-/

namespace DocumentQuery

-- Powers are those of the core library, whatever else is imported.
attribute [local instance (2000)] instPowNat

/-! ## Ranks of quotients -/

theorem roundHalfEven_le (a b : Nat) : roundHalfEven a b ≤ a / b + 1 := by
  unfold roundHalfEven
  dsimp only
  split
  · exact Nat.le_succ _
  · exact le_rfl

namespace Precision

variable {p : Precision} {k : Nat}

/-- Rounding goes up by one step at most. -/
theorem nearest_le {a b : Nat} (h : a / b < 2 ^ (p.fractionBits + 1 + k)) :
    p.nearest a b ≤ (k + 2) * 2 ^ p.fractionBits := by
  unfold nearest
  dsimp only
  generalize hshift : (if a / b < 2 ^ (p.fractionBits + 1) then 0
    else (a / b).log2 - p.fractionBits) = shift
  -- After the shift a significand holds what is left of the quotient.
  have hle : shift ≤ k ∧ a / b < 2 ^ (p.fractionBits + 1) * 2 ^ shift := by
    split at hshift
    · next hlow =>
        subst hshift
        rw [Nat.pow_zero, Nat.mul_one]
        exact ⟨Nat.zero_le k, hlow⟩
    · next hhigh =>
        have hpos : a / b ≠ 0 := by
          have hfull := Nat.two_pow_pos (p.fractionBits + 1)
          omega
        have hlog := (Nat.log2_lt hpos).2 h
        have hself : a / b < 2 ^ ((a / b).log2 + 1) := Nat.lt_log2_self
        have hbits : p.fractionBits + 1 ≤ (a / b).log2 := by
          rw [Nat.le_log2 hpos]
          exact Nat.not_lt.1 hhigh
        rw [← Nat.pow_add]
        refine ⟨by omega, hself.trans_le ?_⟩
        exact Nat.pow_le_pow_right (by decide) (by omega)
  have hround : a / (b * 2 ^ shift) < 2 ^ (p.fractionBits + 1) := by
    rw [← Nat.div_div_eq_div_mul]
    exact Nat.div_lt_of_lt_mul (by rw [Nat.mul_comm]; exact hle.2)
  calc shift * 2 ^ p.fractionBits + roundHalfEven a (b * 2 ^ shift)
      ≤ k * 2 ^ p.fractionBits + 2 ^ (p.fractionBits + 1) := by
        refine Nat.add_le_add (Nat.mul_le_mul_right _ hle.1) ?_
        exact (roundHalfEven_le a _).trans hround
    _ = (k + 2) * 2 ^ p.fractionBits := by
        rw [Nat.pow_succ, Nat.add_mul, Nat.mul_comm 2]

theorem units_lt {rank : Nat} (h : rank < (k + 2) * 2 ^ p.fractionBits) :
    p.units rank < 2 ^ (p.fractionBits + 1 + k) := by
  have hpos : 0 < 2 ^ p.fractionBits := Nat.two_pow_pos _
  have hdouble : 2 ^ (p.fractionBits + 1) = 2 * 2 ^ p.fractionBits :=
    Nat.pow_succ'
  have hrun : rank / 2 ^ p.fractionBits - 1 ≤ k := by
    have hlt := (Nat.div_lt_iff_lt_mul hpos).2 h
    omega
  unfold units
  split
  · next hlow =>
      refine hlow.trans_le (Nat.pow_le_pow_right (by decide) (by omega))
  · have hrest := Nat.mod_lt rank hpos
    rw [Nat.pow_add]
    exact Nat.mul_lt_mul_of_lt_of_le (by omega)
      (Nat.pow_le_pow_right (by decide) hrun) (Nat.two_pow_pos _)

end Precision

/-! ## Words as numbers -/

theorem Precision.nearest_word {n : Nat} (hn : n < 2 ^ 64) :
    Precision.double.nearest (n * 2 ^ Precision.double.unitBits) 1 ≤
      1087 * 2 ^ Precision.double.fractionBits := by
  apply nearest_le
  rw [Nat.div_one,
    show Precision.double.fractionBits + 1 + 1085 =
      64 + Precision.double.unitBits from rfl, Nat.pow_add]
  exact Nat.mul_lt_mul_of_pos_right hn (Nat.two_pow_pos _)

theorem Binary.isFinite_ofRank {p : Precision} (negative : Bool) {rank : Nat}
    (h : rank < p.limit) : (Binary.ofRank negative rank : Binary p).isFinite := by
  rw [ofRank, dif_pos h]
  rfl

theorem Binary.isFinite_ofNat {n : Nat} (hn : n < 2 ^ 64) :
    (Binary.ofNat n : Number).isFinite := by
  refine isFinite_ofRank _ ((Precision.nearest_word hn).trans_lt ?_)
  decide

/-! ## Words as numerals -/

theorem digitsValue_lastDigits (start n width : Nat) :
    digitsValue start (lastDigits n width) =
      start * 10 ^ width + n % 10 ^ width := by
  induction width generalizing start with
  | zero => simp [lastDigits, digitsValue, Nat.mod_one]
  | succ width ih =>
      have hsplit : n % 10 ^ (width + 1) =
          n / 10 ^ width % 10 * 10 ^ width + n % 10 ^ width := by
        rw [Nat.pow_succ, Nat.mod_mul, Nat.mul_comm, Nat.add_comm]
      calc digitsValue start (lastDigits n (width + 1))
          = digitsValue (10 * start + n / 10 ^ width % 10)
              (lastDigits n width) := rfl
        _ = start * 10 ^ (width + 1) + n % 10 ^ (width + 1) := by
          rw [ih, hsplit, Nat.pow_succ]
          ring

/-- The digits of a whole part give it back. -/
theorem digitsValue_whole (n : Nat) :
    digitsValue 0 (lastDigits n (decimalLength n)) = n := by
  have hlength : 0 < decimalLength n := Nat.length_toDigits_pos
  have hlt : n < 10 ^ decimalLength n :=
    (Nat.length_toDigits_le_iff (by decide) hlength).1 le_rfl
  rw [digitsValue_lastDigits, Nat.zero_mul, Nat.zero_add, Nat.mod_eq_of_lt hlt]

namespace Numeral

theorem leading_word {n : Nat} (hn : n < 2 ^ 64) (negative : Bool) :
    leading ⟨negative, n, none, none⟩ = ⟨n, 0⟩ := by
  have htake : takeWord 0 (lastDigits n (decimalLength n)) =
      (digitsValue 0 (lastDigits n (decimalLength n)), []) :=
    takeWord_of_lt (by rwa [digitsValue_whole])
  rw [digitsValue_whole] at htake
  rw [leading]
  simp only [htake, Option.getD_none, takeWord]
  rfl

/-- A word that is written out in full is in range. -/
theorem isSome_toNumber?_word {n : Nat} (hn : n < 2 ^ 64) :
    (toNumber? ⟨false, n, none, none⟩).isSome := by
  have hone : Precision.double.units (Precision.double.powerOfTen 0) =
      2 ^ Precision.double.unitBits := by decide +kernel
  have hrank : Decimal.rank .double ⟨n, 0⟩ <
      (1086 + 2) * 2 ^ Precision.double.fractionBits := by
    show (if n = 0 then 0 else Precision.double.nearest
      (n * 10 ^ 0 * 2 ^ Precision.double.unitBits) 1) < _
    split
    · exact Nat.mul_pos (by decide) (Nat.two_pow_pos _)
    · rw [Nat.pow_zero, Nat.mul_one]
      exact (Precision.nearest_word hn).trans_lt
        (Nat.mul_lt_mul_of_pos_right (by decide) (Nat.two_pow_pos _))
  have hscaled : scaleByPowerOfTen (Decimal.rank .double ⟨n, 0⟩) 0 <
      Precision.double.limit := by
    show Precision.double.nearest
      (Precision.double.units _ *
        Precision.double.units (Precision.double.powerOfTen 0)) _ < _
    have hnearest : ∀ a, a < 2 ^ (Precision.double.fractionBits + 1 + 1086) →
        Precision.double.nearest (a * 2 ^ Precision.double.unitBits)
          (2 ^ Precision.double.unitBits) < Precision.double.limit := by
      intro a ha
      rw [← Nat.mul_div_cancel a (Nat.two_pow_pos Precision.double.unitBits)]
        at ha
      exact (Precision.nearest_le ha).trans_lt (by decide)
    rw [hone]
    exact hnearest _ (Precision.units_lt hrank)
  rw [toNumber?, leading_word hn]
  dsimp only
  rw [if_pos (Binary.isFinite_ofRank false hscaled)]
  rfl

end Numeral

end DocumentQuery
