import DocumentQuery.Fault
import DocumentQuery.Proofs.ExactInteger
import Mathlib.Tactic

/-!
# Reading integers

The bounds of an integer type become numbers before anything is compared with
them.  The least integer of a type is zero or a power of two with a minus, which
is kept.  The greatest one comes right before a power of two.  Up to 53 bits both
it and the integer after it are kept; from 54 bits on it is already rounded to the
power of two, and adding one changes nothing.  So what is compared with is the
power of two either way, and a number is read as an integer of the type exactly
if it is an integer within the true bounds.
-/

namespace DocumentQuery

-- Powers are those of the core library, whatever else is imported.
attribute [local instance (2000)] instPowNat

namespace Binary

/-! ## Bounds as numbers -/

theorem ofInt_natCast {p : Precision} (m : ℕ) : (ofInt m : Binary p) = ofNat m := by
  have hnonneg : ¬ (m : ℤ) < 0 := by omega
  rw [ofInt, ofNat, Int.natAbs_natCast, decide_eq_false hnonneg]

theorem add_eq_ofNat {p : Precision} {a b : Binary p} {i j : ℤ} {m : ℕ}
    (ha : a.toRat? = some (i : ℚ)) (hb : b.toRat? = some (j : ℚ)) (hsum : i + j = m)
    (hpos : 0 < m) : a.add b = ofNat m := by
  obtain ⟨s, r, rfl, -⟩ := eq_finite_of_toRat? ha
  obtain ⟨s', r', rfl, -⟩ := eq_finite_of_toRat? hb
  rw [toRat?_finite_eq_intCast_iff] at ha hb
  have hunits : signedUnits s r + signedUnits s' r' = (m * 2 ^ p.unitBits : ℕ) := by
    rw [ha, hb, ← add_mul, hsum, Nat.cast_mul, Nat.cast_pow, Nat.cast_ofNat]
  have hless : 0 < m * 2 ^ p.unitBits := Nat.mul_pos hpos (Nat.two_pow_pos _)
  simp only [add, hunits, Int.natAbs_natCast]
  rw [if_neg (by omega), decide_eq_false (by omega), ofNat, ofRatio]

theorem toRat?_one : (ofInt 1 : Number).toRat? = some ((1 : ℤ) : ℚ) := by
  have h := toRat?_ofNat (m := 1) (by decide)
  rw [← ofInt_natCast] at h
  exact_mod_cast h

variable {k : ℕ}

theorem toRat?_ofNat_two_pow (hk : k < 1024) :
    (ofNat (2 ^ k) : Number).toRat? = some ((2 ^ k : ℤ) : ℚ) := by
  have h := toRat?_ofRatio_two_pow false hk
  rw [ofNat, h]
  simp

/-- The integer after the greatest one below a power of two is this power of two,
whether the greatest one is kept or not. -/
theorem toRat?_ofInt_two_pow_sub_one_add (hk : k < 1024) :
    ((ofInt (2 ^ k - 1) : Number).add (ofInt 1)).toRat? = some ((2 ^ k : ℤ) : ℚ) := by
  have hpos : 0 < 2 ^ k := Nat.two_pow_pos k
  have hpower := toRat?_ofNat_two_pow hk
  have hgreatest : (ofInt (2 ^ k - 1) : Number) = ofNat (2 ^ k - 1) := by
    rw [← ofInt_natCast, Nat.cast_sub hpos, Nat.cast_pow, Nat.cast_ofNat, Nat.cast_one]
  rw [hgreatest]
  by_cases hshort : k ≤ 53
  · have hle : 2 ^ k ≤ 2 ^ 53 := Nat.pow_le_pow_right (by decide) hshort
    have hkept : (ofNat (2 ^ k - 1) : Number).toRat? =
        some (((2 ^ k - 1 : ℕ) : ℤ) : ℚ) := by
      exact_mod_cast toRat?_ofNat (by omega)
    rw [add_eq_ofNat (m := 2 ^ k) hkept toRat?_one (by omega) hpos, hpower]
  · rw [ofNat_two_pow_sub_one (by omega),
      add_eq_ofNat (m := 2 ^ k + 1) hpower toRat?_one (by simp) (by omega),
      ofNat_two_pow_add_one (by omega), hpower]

theorem toRat?_ofInt_neg_two_pow (hk : k < 1024) :
    (ofInt (-2 ^ k) : Number).toRat? = some ((-2 ^ k : ℤ) : ℚ) := by
  have hpos : 0 < 2 ^ k := Nat.two_pow_pos k
  have hlow : (ofInt (-2 ^ k) : Number) = ofRatio true (2 ^ k) 1 := by
    have hneg : (-2 ^ k : ℤ) < 0 := by simp
    have habs : (-2 ^ k : ℤ).natAbs = 2 ^ k := by simp [Int.natAbs_pow]
    rw [ofInt, decide_eq_true hneg, habs]
  rw [hlow, toRat?_ofRatio_two_pow true hk]
  simp

end Binary

/-! ## Integer types -/

namespace IntegerType

/-- The integer types of a host. -/
def machine : List IntegerType :=
  [signed 8, signed 16, signed 32, signed 64,
    unsigned 8, unsigned 16, unsigned 32, unsigned 64]

/-- The numbers compared with stand for the true bounds: the least integer, and the
one after the greatest. -/
structure Exact (type : IntegerType) : Prop where
  low : (Binary.ofInt type.low : Number).toRat? = some (type.low : ℚ)
  high : ((Binary.ofInt type.high : Number).add (Binary.ofInt 1)).toRat? =
    some ((type.high + 1 : ℤ) : ℚ)

theorem exact_signed {bits : ℕ} (hbits : bits ≤ 1024) : (signed bits).Exact := by
  constructor
  · exact Binary.toRat?_ofInt_neg_two_pow (by omega)
  · have h := Binary.toRat?_ofInt_two_pow_sub_one_add (k := bits - 1) (by omega)
    rw [signed, Int.sub_add_cancel]
    exact h

theorem exact_unsigned {bits : ℕ} (hbits : bits < 1024) : (unsigned bits).Exact := by
  constructor
  · have hzero := Binary.toRat?_ofNat (m := 0) (by decide)
    rw [← Binary.ofInt_natCast] at hzero
    exact_mod_cast hzero
  · rw [unsigned, Int.sub_add_cancel]
    exact Binary.toRat?_ofInt_two_pow_sub_one_add hbits

theorem exact_of_mem_machine {type : IntegerType} (h : type ∈ machine) : type.Exact := by
  simp only [machine, List.mem_cons, List.not_mem_nil, or_false] at h
  rcases h with rfl | rfl | rfl | rfl | rfl | rfl | rfl | rfl
  all_goals first
    | exact exact_signed (by decide)
    | exact exact_unsigned (by decide)

end IntegerType

namespace Datum

variable {type : IntegerType} {d : Datum} {k : ℤ}

theorem readAs_integer_number (type : IntegerType) (n : Number) :
    (number n).readAs (Reader.integer type) = .ok k ↔
      n.toIntBetween? type.low type.high = some k := by
  rw [readAs, Reader.integer]
  cases n.toIntBetween? type.low type.high <;> simp [Except.mapError]

theorem readAs_integer_of_exact (htype : type.Exact) :
    d.readAs (Reader.integer type) = .ok k ↔
      ∃ n, d = .number n ∧ n.toRat? = some (k : ℚ) ∧ type.low ≤ k ∧ k ≤ type.high := by
  cases d with
  | number n =>
      rw [readAs_integer_number, Binary.toIntBetween?,
        Binary.guarded_eq_some_iff htype.low htype.high]
      simp
  | _ => simp [readAs, Reader.integer, Reader.wrongType, Except.mapError]

/-- A datum is read as an integer of a type exactly if it is a number, and this number
is an integer between the bounds of the type; what is read is the number itself.  A word
is what is read as an integer of 64 bits without a sign. -/
theorem readAs_integer_exact :
    (∀ type ∈ IntegerType.machine, ∀ (d : Datum) (k : ℤ),
      d.readAs (Reader.integer type) = .ok k ↔
        ∃ n, d = .number n ∧ n.toRat? = some (k : ℚ) ∧ type.low ≤ k ∧ k ≤ type.high) ∧
    ∀ (d : Datum) (k : ℕ),
      d.asWord? = some k ↔ d.readAs (Reader.integer (.unsigned 64)) = .ok (k : ℤ) := by
  constructor
  · intro type htype d k
    exact readAs_integer_of_exact (IntegerType.exact_of_mem_machine htype)
  · intro d k
    rw [readAs_integer_of_exact (IntegerType.exact_unsigned (by decide))]
    have hbounds : ((IntegerType.unsigned 64).low ≤ (k : ℤ) ∧
        (k : ℤ) ≤ (IntegerType.unsigned 64).high) ↔ k < 2 ^ 64 := by
      change (0 : ℤ) ≤ k ∧ (k : ℤ) ≤ 2 ^ 64 - 1 ↔ k < 2 ^ 64
      omega
    cases d with
    | number n => simp [asWord?, Binary.toWord?_eq_some_iff, hbounds]
    | _ => simp [asWord?]

/-- The greatest number below `2 ^ 64` is read as a word, and `2 ^ 64` is not. -/
theorem readAs_integer_exact_greatest :
    IntegerType.unsigned 64 ∈ IntegerType.machine ∧
      (∃ n, ofNat (2 ^ 64 - 2048) = .number n ∧ n.toRat? = some ((2 ^ 64 - 2048 : ℤ) : ℚ)) ∧
      ∀ k, (ofNat (2 ^ 64)).readAs (Reader.integer (.unsigned 64)) ≠ .ok k := by
  have hmem : IntegerType.unsigned 64 ∈ IntegerType.machine := by decide
  refine ⟨hmem, ?_, ?_⟩
  · have hbetween : (Binary.ofNat (2 ^ 64 - 2048) : Number).toIntBetween?
        (IntegerType.unsigned 64).low (IntegerType.unsigned 64).high =
          some (2 ^ 64 - 2048) := by decide +kernel
    have hread := (readAs_integer_number (.unsigned 64) _).2 hbetween
    obtain ⟨n, hn, hrat, -⟩ := (readAs_integer_exact.1 _ hmem _ _).1 hread
    exact ⟨n, hn, hrat⟩
  · intro k hread
    obtain ⟨n, hn, hrat, -, hle⟩ := (readAs_integer_exact.1 _ hmem _ _).1 hread
    have hnumber : Binary.ofNat (2 ^ 64) = n := number.inj hn
    rw [← hnumber, Binary.toRat?_ofNat_two_pow (by decide), Option.some.injEq,
      Int.cast_inj] at hrat
    rw [← hrat] at hle
    exact absurd hle (by decide)

end Datum

end DocumentQuery
