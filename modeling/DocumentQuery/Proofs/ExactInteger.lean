import DocumentQuery.Datum.Basic
import Mathlib.Tactic

/-!
# Integers that are kept exactly

A magnitude with a full significand `m` and the step `2 ^ k` has the rank
`k * 2 ^ fractionBits + m`.  Rounding gives this rank back, and so the natural
numbers that a significand can hold are kept exactly: up to `2 ^ 53` among the
numbers of documents.  Past them the powers of two are still kept, and their
neighbours are rounded to them.

The other way round, a number is taken for an integer if it has no fraction and
lies between two bounds.  Bounds are numbers themselves, and rounded; where the
lower one is kept and the upper one stands for the integer past the greatest,
exactly the integers between them are taken.
-/

namespace DocumentQuery

-- Powers are those of the core library, whatever else is imported.
attribute [local instance (2000)] instPowNat

/-- A quotient with a rest of less than a half is rounded down. -/
theorem roundHalfEven_mul_add {b d : Nat} (q : Nat) (hd : 2 * d < b) :
    roundHalfEven (q * b + d) b = q := by
  have hpos : 0 < b := by omega
  have hquotient : (q * b + d) / b = q := by
    rw [Nat.mul_comm, Nat.mul_add_div hpos, Nat.div_eq_of_lt (by omega), Nat.add_zero]
  have hrest : (q * b + d) % b = d := by
    rw [Nat.mul_comm, Nat.mul_add_mod, Nat.mod_eq_of_lt (by omega)]
  rw [roundHalfEven, hquotient, hrest, if_pos (.inl hd)]

/-- What a quotient lacks of an even integer is made up for, a half too. -/
theorem roundHalfEven_mul_sub {b d q : Nat} (hq : q % 2 = 1) (hpos : 0 < d)
    (hd : 2 * d ≤ b) : roundHalfEven ((q + 1) * b - d) b = q + 1 := by
  have hsplit : (q + 1) * b - d = b * q + (b - d) := by
    rw [Nat.add_mul, Nat.one_mul, Nat.mul_comm b]
    omega
  have hquotient : ((q + 1) * b - d) / b = q := by
    rw [hsplit, Nat.mul_add_div (by omega), Nat.div_eq_of_lt (by omega), Nat.add_zero]
  have hrest : ((q + 1) * b - d) % b = b - d := by
    rw [hsplit, Nat.mul_add_mod, Nat.mod_eq_of_lt (by omega)]
  rw [roundHalfEven, hquotient, hrest, if_neg (by omega)]

namespace Precision

variable {p : Precision} {a d m k : Nat}

theorem units_full (hlow : 2 ^ p.fractionBits ≤ m)
    (hhigh : m < 2 ^ (p.fractionBits + 1)) :
    p.units (k * 2 ^ p.fractionBits + m) = m * 2 ^ k := by
  have hpos : 0 < 2 ^ p.fractionBits := Nat.two_pow_pos _
  have hdouble : 2 ^ (p.fractionBits + 1) = 2 * 2 ^ p.fractionBits :=
    Nat.pow_succ'
  obtain ⟨r, rfl⟩ := Nat.exists_eq_add_of_le hlow
  have hr : r < 2 ^ p.fractionBits := by omega
  have hrank : k * 2 ^ p.fractionBits + (2 ^ p.fractionBits + r) =
      r + 2 ^ p.fractionBits * (k + 1) := by ring
  have hge : ¬ r + 2 ^ p.fractionBits * (k + 1) < 2 ^ p.fractionBits := by
    rw [Nat.not_lt, Nat.mul_succ]
    omega
  rw [hrank, units, if_neg hge, Nat.add_mul_mod_self_left,
    Nat.add_mul_div_left _ _ hpos,
    Nat.mod_eq_of_lt hr, Nat.div_eq_of_lt hr, Nat.zero_add, Nat.add_sub_cancel]

/-- In the run of ranks with the step `2 ^ k`, a magnitude is rounded to a
multiple of this step. -/
theorem nearest_of_run (hlow : 2 ^ p.fractionBits * 2 ^ k ≤ a)
    (hhigh : a < 2 ^ (p.fractionBits + 1) * 2 ^ k) :
    p.nearest a 1 = k * 2 ^ p.fractionBits + roundHalfEven a (2 ^ k) := by
  have hshift : (if a < 2 ^ (p.fractionBits + 1) then 0
      else a.log2 - p.fractionBits) = k := by
    rw [← Nat.pow_add] at hlow hhigh
    cases k with
    | zero => exact if_pos hhigh
    | succ k =>
        have hgrow : 2 ^ (p.fractionBits + 1) ≤ 2 ^ (p.fractionBits + (k + 1)) :=
          Nat.pow_le_pow_right (by decide) (by omega)
        have hne : a ≠ 0 := by
          have hfirst : 0 < 2 ^ (p.fractionBits + (k + 1)) := Nat.two_pow_pos _
          omega
        have hlog : a.log2 = p.fractionBits + (k + 1) := by
          refine (Nat.log2_eq_iff hne).2 ⟨hlow, ?_⟩
          rwa [Nat.add_right_comm]
        rw [if_neg (by omega), hlog, Nat.add_sub_cancel_left]
  rw [nearest]
  simp only [Nat.div_one, Nat.one_mul, hshift]

theorem nearest_full_add (hlow : 2 ^ p.fractionBits ≤ m)
    (hhigh : m < 2 ^ (p.fractionBits + 1)) (hd : 2 * d < 2 ^ k) :
    p.nearest (m * 2 ^ k + d) 1 = k * 2 ^ p.fractionBits + m := by
  have hnext : (m + 1) * 2 ^ k ≤ 2 ^ (p.fractionBits + 1) * 2 ^ k :=
    Nat.mul_le_mul_right _ hhigh
  have hfirst : 2 ^ p.fractionBits * 2 ^ k ≤ m * 2 ^ k :=
    Nat.mul_le_mul_right _ hlow
  rw [Nat.add_mul, Nat.one_mul] at hnext
  rw [nearest_of_run (k := k) (by omega) (by omega), roundHalfEven_mul_add m hd]

theorem nearest_full (hlow : 2 ^ p.fractionBits ≤ m)
    (hhigh : m < 2 ^ (p.fractionBits + 1)) :
    p.nearest (m * 2 ^ k) 1 = k * 2 ^ p.fractionBits + m :=
  nearest_full_add (d := 0) hlow hhigh (Nat.two_pow_pos k)

/-- What is less than half a step under the first magnitude of a run is rounded up
to it, although the steps below it are smaller. -/
theorem nearest_sub (hpos : 0 < d) (hd : 2 * d ≤ 2 ^ k) :
    p.nearest (2 ^ (p.fractionBits + 1) * 2 ^ k - d) 1 =
      (k + 1) * 2 ^ p.fractionBits + 2 ^ p.fractionBits := by
  have hfull : 0 < 2 ^ p.fractionBits := Nat.two_pow_pos _
  have hstep : 2 ^ k ≤ 2 ^ p.fractionBits * 2 ^ k := Nat.le_mul_of_pos_left _ hfull
  have hdouble : 2 ^ (p.fractionBits + 1) * 2 ^ k = 2 * (2 ^ p.fractionBits * 2 ^ k) := by
    rw [Nat.pow_succ', Nat.mul_assoc]
  obtain ⟨q, hq⟩ : ∃ q, 2 ^ (p.fractionBits + 1) = q + 1 :=
    Nat.exists_eq_succ_of_ne_zero (Nat.two_pow_pos _).ne'
  have hround : roundHalfEven (2 ^ (p.fractionBits + 1) * 2 ^ k - d) (2 ^ k) =
      2 ^ (p.fractionBits + 1) := by
    rw [hq]
    refine roundHalfEven_mul_sub ?_ hpos hd
    rw [Nat.pow_succ'] at hq
    omega
  rw [nearest_of_run (k := k) (by omega) (by omega), hround]
  ring

theorem nearest_eq_zero_iff : p.nearest a 1 = 0 ↔ a = 0 := by
  constructor
  · intro h
    by_contra hne
    rw [nearest] at h
    simp only [Nat.div_one, Nat.one_mul] at h
    split at h
    · next hlow =>
        have hround := roundHalfEven_mul_add (b := 1) (d := 0) a (by decide)
        rw [Nat.mul_one, Nat.add_zero] at hround
        rw [Nat.zero_mul, Nat.zero_add, Nat.pow_zero, hround] at h
        exact hne h
    · next hhigh =>
        have hlog : p.fractionBits + 1 ≤ a.log2 :=
          (Nat.le_log2 hne).2 (Nat.not_lt.1 hhigh)
        have hshift : 0 < (a.log2 - p.fractionBits) * 2 ^ p.fractionBits :=
          Nat.mul_pos (by omega) (Nat.two_pow_pos _)
        omega
  · intro h
    simp [h, nearest, roundHalfEven]

/-- The magnitude of a rank is nearest to itself. -/
theorem nearest_units (p : Precision) (rank : Nat) : p.nearest (p.units rank) 1 = rank := by
  have hpos : 0 < 2 ^ p.fractionBits := Nat.two_pow_pos _
  have hdouble : 2 ^ (p.fractionBits + 1) = 2 * 2 ^ p.fractionBits := Nat.pow_succ'
  by_cases hlow : rank < 2 ^ p.fractionBits
  · have hshift : rank < 2 ^ (p.fractionBits + 1) := by omega
    have hround : roundHalfEven rank 1 = rank := by
      simpa using roundHalfEven_mul_add (b := 1) (d := 0) rank Nat.one_pos
    simp [units, if_pos hlow, nearest, hshift, hround]
  · -- The rank is that of a full significand in steps of `2 ^ k`.
    obtain ⟨k, hk⟩ : ∃ k, rank / 2 ^ p.fractionBits = k + 1 :=
      Nat.exists_eq_succ_of_ne_zero (Nat.div_pos (Nat.not_lt.1 hlow) hpos).ne'
    have hrest : rank % 2 ^ p.fractionBits < 2 ^ p.fractionBits := Nat.mod_lt _ hpos
    have hrank :
        rank = k * 2 ^ p.fractionBits + (2 ^ p.fractionBits + rank % 2 ^ p.fractionBits) := by
      have hdiv := Nat.div_add_mod' rank (2 ^ p.fractionBits)
      rw [hk, Nat.succ_mul] at hdiv
      omega
    rw [hrank, units_full (Nat.le_add_right _ _) (by omega),
      nearest_full (Nat.le_add_right _ _) (by omega)]

theorem units_inj {rank rank' : Nat} : p.units rank = p.units rank' ↔ rank = rank' := by
  constructor
  · intro h
    rw [← p.nearest_units rank, h, p.nearest_units]
  · intro h
    rw [h]

theorem units_eq_zero_iff {rank : Nat} : p.units rank = 0 ↔ rank = 0 := by
  rw [← nearest_eq_zero_iff, p.nearest_units]

/-- A natural number that a significand can hold has a full one in smaller
steps. -/
theorem exists_full {n : Nat} (hpos : n ≠ 0) (hn : n ≤ 2 ^ (p.fractionBits + 1))
    (hbits : p.fractionBits ≤ p.unitBits) :
    ∃ m k, 2 ^ p.fractionBits ≤ m ∧ m < 2 ^ (p.fractionBits + 1) ∧
      k ≤ p.unitBits + 1 ∧
      n * 2 ^ p.unitBits = m * 2 ^ k := by
  have hlog := (Nat.log2_eq_iff hpos).1 rfl
  by_cases hless : n < 2 ^ (p.fractionBits + 1)
  · have hle : n.log2 ≤ p.fractionBits :=
      Nat.lt_succ_iff.1 ((Nat.log2_lt hpos).2 hless)
    obtain ⟨d, hd⟩ := Nat.exists_eq_add_of_le hle
    obtain ⟨u, hu⟩ := Nat.exists_eq_add_of_le hbits
    refine ⟨n * 2 ^ d, u + n.log2, ?_, ?_, by omega, ?_⟩
    · rw [hd, Nat.pow_add]
      exact Nat.mul_le_mul_right _ hlog.1
    · rw [show p.fractionBits + 1 = n.log2 + 1 + d by omega, Nat.pow_add]
      exact Nat.mul_lt_mul_of_pos_right hlog.2 (Nat.two_pow_pos d)
    · rw [Nat.mul_assoc, ← Nat.pow_add]
      congr 2
      omega
  · have heq : n = 2 ^ (p.fractionBits + 1) := by omega
    refine ⟨2 ^ p.fractionBits, p.unitBits + 1, le_rfl, ?_, le_rfl, ?_⟩
    · exact Nat.pow_lt_pow_right (by decide) (Nat.lt_succ_self _)
    · rw [heq, ← Nat.pow_add, ← Nat.pow_add]
      congr 1
      omega

end Precision

/-! ## The fractions that numbers are -/

namespace Binary

/-- The fraction that a finite number is. -/
def toRat? {p : Precision} : Binary p → Option ℚ
  | .finite negative rank =>
    let magnitude : ℚ := p.units rank / 2 ^ p.unitBits
    some (if negative then -magnitude else magnitude)
  | _ => none

variable {p : Precision} {a b n : Binary p} {x y : ℚ} {i low high : ℤ}
  {negative : Bool} {rank : Fin p.limit}

theorem toRat?_finite (negative : Bool) (rank : Fin p.limit) :
    (finite negative rank).toRat? =
      some ((signedUnits negative rank : ℚ) / 2 ^ p.unitBits) := by
  cases negative <;> simp [toRat?, signedUnits, neg_div]

theorem eq_finite_of_toRat? (h : n.toRat? = some x) :
    ∃ negative rank, n = finite negative rank ∧
      (signedUnits negative rank : ℚ) / 2 ^ p.unitBits = x := by
  cases n with
  | nan | infinite _ => cases h
  | finite negative rank =>
      rw [toRat?_finite] at h
      exact ⟨negative, rank, rfl, Option.some.inj h⟩

/-- A finite number is an integer if it is so many times the units of one. -/
theorem toRat?_finite_eq_intCast_iff :
    (finite negative rank).toRat? = some (i : ℚ) ↔
      signedUnits negative rank = i * 2 ^ p.unitBits := by
  have hstep : (2 : ℚ) ^ p.unitBits ≠ 0 := by positivity
  rw [toRat?_finite, Option.some.injEq, div_eq_iff hstep]
  exact_mod_cast Iff.rfl

/-- The rank of a full significand in steps of `2 ^ k`, as a number. -/
theorem toRat?_ofRank_full {m k j : ℕ} (negative : Bool) (hlow : 2 ^ p.fractionBits ≤ m)
    (hhigh : m < 2 ^ (p.fractionBits + 1))
    (hlimit : k * 2 ^ p.fractionBits + m < p.limit)
    (hunits : m * 2 ^ k = j * 2 ^ p.unitBits) :
    (ofRank negative (k * 2 ^ p.fractionBits + m) : Binary p).toRat? =
      some ((if negative then -j else j : ℤ) : ℚ) := by
  rw [ofRank, dif_pos hlimit, toRat?_finite_eq_intCast_iff, signedUnits]
  simp only [Precision.units_full hlow hhigh, hunits, Nat.cast_mul, Nat.cast_pow,
    Nat.cast_ofNat]
  cases negative with
  | false => rfl
  | true => exact (neg_mul _ _).symm

/-! ## Order and equality -/

theorem equals_finite_iff {s s' : Bool} {r r' : Fin p.limit} :
    (finite s r).equals (finite s' r') = true ↔ signedUnits s r = signedUnits s' r' := by
  have hunits : p.units r = p.units r' ↔ r.val = r'.val := p.units_inj
  have hzero : p.units r = 0 ↔ r.val = 0 := p.units_eq_zero_iff
  have hzero' : p.units r' = 0 ↔ r'.val = 0 := p.units_eq_zero_iff
  -- Of two numbers with unlike signs only zeros are equal.
  cases s <;> cases s' <;>
    simp only [equals, signedUnits, Bool.and_eq_true, Bool.or_eq_true, decide_eq_true_eq,
      Fin.ext_iff, if_true, reduceCtorEq, if_false, true_or, false_or, and_true] <;>
    omega

theorem less_iff (ha : a.toRat? = some x) (hb : b.toRat? = some y) :
    a.less b = true ↔ x < y := by
  obtain ⟨s, r, rfl, rfl⟩ := eq_finite_of_toRat? ha
  obtain ⟨s', r', rfl, rfl⟩ := eq_finite_of_toRat? hb
  have hstep : (0 : ℚ) < 2 ^ p.unitBits := by positivity
  rw [less, decide_eq_true_eq, div_lt_div_iff_of_pos_right hstep, Int.cast_lt]

theorem atMost_iff (ha : a.toRat? = some x) (hb : b.toRat? = some y) :
    a.atMost b = true ↔ x ≤ y := by
  rw [atMost, Bool.or_eq_true, less_iff ha hb, le_iff_lt_or_eq]
  apply or_congr_right
  obtain ⟨s, r, rfl, rfl⟩ := eq_finite_of_toRat? ha
  obtain ⟨s', r', rfl, rfl⟩ := eq_finite_of_toRat? hb
  have hstep : (2 : ℚ) ^ p.unitBits ≠ 0 := by positivity
  rw [equals_finite_iff, div_left_inj' hstep, Int.cast_inj]

/-! ## Integers among the numbers -/

theorem exists_toRat?_intCast_iff :
    (∃ i : ℤ, (finite negative rank).toRat? = some (i : ℚ)) ↔
      p.units rank % 2 ^ p.unitBits = 0 := by
  have hdvd : (∃ i : ℤ, signedUnits negative rank = i * 2 ^ p.unitBits) ↔
      (2 ^ p.unitBits : ℤ) ∣ signedUnits negative rank := by
    simp only [dvd_def, mul_comm]
  have hunits : (2 ^ p.unitBits : ℤ) ∣ signedUnits negative rank ↔
      2 ^ p.unitBits ∣ p.units rank := by
    rw [← Int.natCast_dvd_natCast, Nat.cast_pow, Nat.cast_ofNat]
    cases negative with
    | false => exact Iff.rfl
    | true => exact dvd_neg
  simp only [toRat?_finite_eq_intCast_iff]
  rw [hdvd, hunits, Nat.dvd_iff_mod_eq_zero]

/-- A number without a fraction is an integer. -/
theorem fraction_equals_zero_iff :
    n.fraction.equals zero = true ↔ ∃ i : ℤ, n.toRat? = some (i : ℚ) := by
  cases n with
  | nan | infinite _ => simp [fraction, equals, toRat?]
  | finite negative rank =>
      have hlimit : 0 < p.limit := Nat.zero_lt_of_lt rank.isLt
      have hzero : (zero : Binary p) = finite false ⟨0, hlimit⟩ := dif_pos hlimit
      rw [exists_toRat?_intCast_iff, fraction]
      generalize p.units rank % 2 ^ p.unitBits = rest
      rw [← p.nearest_eq_zero_iff (a := rest), hzero, ofRank]
      split
      · simp only [equals, Bool.and_eq_true, Bool.or_eq_true, decide_eq_true_eq,
          Fin.ext_iff]
        exact and_iff_left_of_imp fun h => .inr h
      · simp only [equals, Bool.false_eq_true, false_iff]
        omega

/-- A number that is an integer between the bounds is neither cut nor moved. -/
theorem saturate_of_toRat? (h : n.toRat? = some (i : ℚ)) (hlow : low ≤ i)
    (hhigh : i ≤ high) : n.saturate low high = i := by
  obtain ⟨negative, rank, rfl, -⟩ := eq_finite_of_toRat? h
  rw [toRat?_finite_eq_intCast_iff] at h
  have hwhole : (signedUnits negative rank).tdiv (2 ^ p.unitBits) = i := by
    rw [h]
    exact Int.mul_tdiv_cancel _ (by positivity)
  rw [saturate, hwhole]
  omega

/-- Where the bounds are compared exactly, the integers between them are taken, and
nothing else. -/
theorem guarded_eq_some_iff {lower upper : Binary p}
    (hlow : lower.toRat? = some (low : ℚ)) (hhigh : upper.toRat? = some ((high + 1 : ℤ) : ℚ)) :
    (if n.fraction.equals zero && lower.atMost n && n.less upper then
        some (n.saturate low high)
      else none) = some i ↔
      n.toRat? = some (i : ℚ) ∧ low ≤ i ∧ i ≤ high := by
  by_cases hinteger : ∃ j : ℤ, n.toRat? = some (j : ℚ)
  · have hfraction := fraction_equals_zero_iff.2 hinteger
    obtain ⟨j, hj⟩ := hinteger
    have hmost : lower.atMost n = true ↔ low ≤ j := by
      rw [atMost_iff hlow hj, Int.cast_le]
    have hless : n.less upper = true ↔ j ≤ high := by
      rw [less_iff hj hhigh, Int.cast_lt, Int.lt_add_one_iff]
    rw [hfraction, Bool.true_and, hj, Option.some.injEq, Int.cast_inj]
    split
    · next hguard =>
        rw [Bool.and_eq_true, hmost, hless] at hguard
        rw [saturate_of_toRat? hj hguard.1 hguard.2, Option.some.injEq]
        constructor
        · rintro rfl
          exact ⟨rfl, hguard⟩
        · exact fun h => h.1
    · next hguard =>
        rw [Bool.and_eq_true, hmost, hless] at hguard
        simp only [reduceCtorEq, false_iff]
        rintro ⟨rfl, hbounds⟩
        exact hguard hbounds
  · have hfraction := mt fraction_equals_zero_iff.1 hinteger
    rw [Bool.eq_false_iff.2 hfraction]
    simp only [Bool.false_and, Bool.false_eq_true, if_false, reduceCtorEq, false_iff]
    exact fun h => hinteger ⟨i, h.1⟩

/-! ## Powers of two and their neighbours -/

theorem toRat?_zero (hlimit : 0 < p.limit) : (zero : Binary p).toRat? = some ((0 : ℤ) : ℚ) := by
  rw [zero, ofRank, dif_pos hlimit, toRat?_finite_eq_intCast_iff, signedUnits,
    Precision.units_eq_zero_iff.2 rfl]
  simp

section

variable {k : ℕ}

theorem two_pow_units :
    2 ^ k * 2 ^ Precision.double.unitBits =
      2 ^ Precision.double.fractionBits * 2 ^ (k + 1022) := by
  have hexponent : k + Precision.double.unitBits =
      Precision.double.fractionBits + (k + 1022) := by
    change k + 1074 = 52 + (k + 1022)
    omega
  rw [← Nat.pow_add, ← Nat.pow_add, hexponent]

theorem full_lt : 2 ^ Precision.double.fractionBits < 2 ^ (Precision.double.fractionBits + 1) :=
  Nat.pow_lt_pow_right (by decide) (Nat.lt_succ_self _)

/-- Every power of two within the range of the format is a number. -/
theorem toRat?_ofRatio_two_pow (negative : Bool) (hk : k < 1024) :
    (ofRatio negative (2 ^ k) 1 : Number).toRat? =
      some ((if negative then -(2 ^ k : ℕ) else (2 ^ k : ℕ) : ℤ) : ℚ) := by
  have hlimit : (k + 1022) * 2 ^ Precision.double.fractionBits +
      2 ^ Precision.double.fractionBits < Precision.double.limit := by
    have hstep : (k + 1022) * 2 ^ 52 ≤ 2045 * 2 ^ 52 := Nat.mul_le_mul_right _ (by omega)
    change (k + 1022) * 2 ^ 52 + 2 ^ 52 < 0x7FF0000000000000
    omega
  rw [ofRatio, two_pow_units, Precision.nearest_full le_rfl full_lt]
  exact toRat?_ofRank_full negative le_rfl full_lt hlimit two_pow_units.symm

/-- From `2 ^ 54` on, the number before a power of two is rounded to it. -/
theorem ofNat_two_pow_sub_one (hk : 54 ≤ k) :
    (ofNat (2 ^ k - 1) : Number) = ofNat (2 ^ k) := by
  have hhalf : 2 * 2 ^ Precision.double.unitBits ≤ 2 ^ (k + 1021) := by
    rw [← Nat.pow_succ']
    exact Nat.pow_le_pow_right (by decide) (by change 1074 + 1 ≤ k + 1021; omega)
  have hsplit : 2 ^ k * 2 ^ Precision.double.unitBits =
      2 ^ (Precision.double.fractionBits + 1) * 2 ^ (k + 1021) := by
    have hexponent : Precision.double.fractionBits + (k + 1022) =
        Precision.double.fractionBits + 1 + (k + 1021) := by omega
    rw [two_pow_units, ← Nat.pow_add, ← Nat.pow_add, hexponent]
  have hbelow := Precision.nearest_sub (p := .double) (Nat.two_pow_pos _) hhalf
  rw [ofNat, ofNat, ofRatio, ofRatio, Nat.sub_mul, Nat.one_mul, hsplit, hbelow, ← hsplit,
    two_pow_units, Precision.nearest_full le_rfl full_lt]

/-- From `2 ^ 54` on, so is the number after it. -/
theorem ofNat_two_pow_add_one (hk : 54 ≤ k) :
    (ofNat (2 ^ k + 1) : Number) = ofNat (2 ^ k) := by
  have hhalf : 2 * 2 ^ Precision.double.unitBits < 2 ^ (k + 1022) := by
    rw [← Nat.pow_succ']
    exact Nat.pow_lt_pow_right (by decide) (by change 1074 + 1 < k + 1022; omega)
  rw [ofNat, ofNat, ofRatio, ofRatio, Nat.add_mul, Nat.one_mul, two_pow_units,
    Precision.nearest_full_add le_rfl full_lt hhalf, Precision.nearest_full le_rfl full_lt]

end

/-! ## Natural numbers that are kept -/

/-- A natural number that a significand can hold is kept. -/
theorem toRat?_ofNat {m : ℕ} (hm : m ≤ 2 ^ 53) :
    (ofNat m : Number).toRat? = some (m : ℚ) := by
  by_cases hpos : m = 0
  · have hzero : (ofNat m : Number) = zero := by
      rw [ofNat, ofRatio, hpos, Nat.zero_mul, Precision.nearest_eq_zero_iff.2 rfl, zero]
    rw [hzero, hpos]
    simpa using toRat?_zero (p := .double) (by decide)
  · obtain ⟨full, k, hlow, hhigh, hk, heq⟩ :=
      Precision.exists_full (p := .double) hpos hm (by decide)
    have hlimit : k * 2 ^ Precision.double.fractionBits + full < Precision.double.limit := by
      have hstep : k * 2 ^ 52 ≤ 1075 * 2 ^ 52 := Nat.mul_le_mul_right _ hk
      have hhigh : full < 2 ^ 53 := hhigh
      change k * 2 ^ 52 + full < 0x7FF0000000000000
      omega
    have hrank := toRat?_ofRank_full false hlow hhigh hlimit heq.symm
    rw [ofNat, ofRatio, heq, Precision.nearest_full hlow hhigh]
    simpa using hrank

/-- A number is taken for a word exactly if its fraction is this word. -/
theorem toWord?_eq_some_iff {number : Number} {m : ℕ} :
    number.toWord? = some m ↔ number.toRat? = some (m : ℚ) ∧ m < 2 ^ 64 := by
  have hlow : (zero : Number).toRat? = some ((0 : ℤ) : ℚ) := toRat?_zero (by decide)
  -- The greatest word is rounded to the power of two after it.
  have hhigh : (ofNat 0xFFFFFFFFFFFFFFFF : Number).toRat? =
      some ((0xFFFFFFFFFFFFFFFF + 1 : ℤ) : ℚ) := by
    have h := toRat?_ofRatio_two_pow (k := 64) false (by decide)
    rw [← ofNat, ← ofNat_two_pow_sub_one (by decide)] at h
    exact h
  have hword : number.toWord? =
      (if number.fraction.equals zero && zero.atMost number &&
          number.less (ofNat 0xFFFFFFFFFFFFFFFF) then
        some (number.saturate 0 0xFFFFFFFFFFFFFFFF) else none).map Int.toNat := by
    rw [toWord?]
    split <;> rfl
  rw [hword, Option.map_eq_some_iff]
  constructor
  · rintro ⟨i, hi, rfl⟩
    obtain ⟨hrat, hnonneg, hle⟩ := (guarded_eq_some_iff hlow hhigh).1 hi
    obtain ⟨m, rfl⟩ := Int.eq_ofNat_of_zero_le hnonneg
    exact ⟨by simpa using hrat, by simp only [Int.toNat_natCast]; omega⟩
  · rintro ⟨hrat, hlt⟩
    refine ⟨m, (guarded_eq_some_iff hlow hhigh).2 ⟨?_, by omega, by omega⟩, rfl⟩
    simpa using hrat

/-- A number that is a natural one equals this natural number, the negative zero
too. -/
theorem ofNat_equals_of_toRat? {m : ℕ} (h : n.toRat? = some ((m : ℤ) : ℚ)) :
    (ofNat m : Binary p).equals n = true := by
  obtain ⟨negative, rank, rfl, -⟩ := eq_finite_of_toRat? h
  rw [toRat?_finite_eq_intCast_iff] at h
  have hunits : p.units rank = m * 2 ^ p.unitBits := by
    have hcast : (2 : ℤ) ^ p.unitBits = (2 ^ p.unitBits : ℕ) := by simp
    rw [hcast, ← Nat.cast_mul] at h
    cases negative <;> simp only [signedUnits, if_true, Bool.false_eq_true, if_false] at h <;>
      omega
  have hnumber : (ofNat m : Binary p) = finite false rank := by
    rw [ofNat, ofRatio, ← hunits, Precision.nearest_units, ofRank, dif_pos rank.isLt]
  rw [hnumber, equals_finite_iff, h, signedUnits, hunits]
  simp

theorem equals_ofNat {number : Number} {m : ℕ}
    (h : number.toWord? = some m) : (ofNat m : Number).equals number = true :=
  ofNat_equals_of_toRat? (by simpa using (toWord?_eq_some_iff.1 h).1)

end Binary

/-- Document numbers hold every natural number up to `2 ^ 53`. -/
theorem Datum.asWord?_ofNat {n : ℕ} (hn : n ≤ 2 ^ 53) :
    (Datum.ofNat n).asWord? = some n := by
  have hword : n < 2 ^ 64 := by omega
  exact Binary.toWord?_eq_some_iff.2 ⟨Binary.toRat?_ofNat hn, hword⟩

end DocumentQuery
