import DocumentQuery.Proofs.ResponseText
import DocumentQuery.Url.Basic
import Mathlib.Tactic

/-!
# Percent-encoding

A text in which some characters are percent-encoded shows whether anything in it
was.  If percent signs are among the characters to be encoded, the bytes of the text
can be read back from it.
-/

namespace DocumentQuery.Url

/-! ## Bytes of characters -/

theorem toList_toUTF8_singleton (c : Char) :
    (String.singleton c).toUTF8.toList = String.utf8EncodeChar c := by
  rw [String.toUTF8_eq_toByteArray, ByteArray.toList, Bytes.loop_toList,
    String.toByteArray_singleton, List.utf8Encode_singleton]
  simp

/-- The first byte of a character is the character itself, or none of ASCII. -/
theorem exists_utf8EncodeChar (c : Char) :
    ∃ b rest, String.utf8EncodeChar c = b :: rest ∧
      (rest = [] ∧ b.toNat = c.toNat ∨ 128 ≤ b.toNat) := by
  have hmarked : ∀ n mark : ℕ, 128 ≤ mark → n + mark < 256 →
      128 ≤ (UInt8.ofNat (n + mark)).toNat := by
    intro n mark hmark hlt
    rw [UInt8.toNat_ofNat', Nat.mod_eq_of_lt hlt]
    omega
  unfold String.utf8EncodeChar
  simp only
  split
  · next hascii =>
      refine ⟨_, _, rfl, .inl ⟨rfl, ?_⟩⟩
      rw [UInt8.toNat_ofNat', Char.toNat_val, Nat.mod_eq_of_lt]
      rw [Char.toNat_val] at hascii
      omega
  · split
    · exact ⟨_, _, rfl, .inr (hmarked _ 0xc0 (by decide) (by omega))⟩
    · split
      · exact ⟨_, _, rfl, .inr (hmarked _ 0xe0 (by decide) (by omega))⟩
      · exact ⟨_, _, rfl, .inr (hmarked _ 0xf0 (by decide) (by omega))⟩

theorem Bytes.ofText_eq_flatMap (s : String) :
    Bytes.ofText s = s.toList.flatMap String.utf8EncodeChar := by
  have hbytes : s.toByteArray = s.toList.utf8Encode := by
    conv_lhs => rw [← String.ofList_toList (s := s), String.toByteArray_ofList]
  rw [Bytes.ofText, String.toUTF8_eq_toByteArray, ByteArray.toList, Bytes.loop_toList, hbytes,
    List.utf8Encode]
  simp

theorem forall_ascii {P : Char → Prop} (h : ∀ n : Fin 0x7F, P (Char.ofNat n)) {c : Char}
    (hc : c.toNat < 0x7F) : P c := by
  have hn := h ⟨c.toNat, hc⟩
  rwa [Char.ofNat_toNat] at hn

/-! ## What is encoded -/

/-- Whether a character stands for itself where the given ones are encoded. -/
def Unencoded (encoded : Char → Bool) (c : Char) : Prop :=
  0x20 ≤ c.toNat ∧ c.toNat < 0x7F ∧ encoded c = false

instance (encoded : Char → Bool) (c : Char) : Decidable (Unencoded encoded c) :=
  inferInstanceAs (Decidable (_ ∧ _ ∧ _))

variable {encoded : Char → Bool} {cs : List Char} {c : Char}

theorem percentEncodeChar_of_unencoded (h : Unencoded encoded c) :
    percentEncodeChar encoded c = [c] := by
  obtain ⟨hlow, hhigh, hencoded⟩ := h
  rw [percentEncodeChar, if_neg]
  simp only [hencoded, Bool.false_eq_true, or_false]
  omega

theorem percentEncodeChar_of_not_unencoded (h : ¬ Unencoded encoded c) :
    percentEncodeChar encoded c = (String.utf8EncodeChar c).flatMap percentByte := by
  have hencoded : c.toNat < 0x20 ∨ 0x7F ≤ c.toNat ∨ encoded c = true := by
    by_contra hnone
    simp only [not_or, not_lt, not_le, Bool.not_eq_true] at hnone
    exact h hnone
  rw [percentEncodeChar, if_pos hencoded, toList_toUTF8_singleton]

theorem mem_percentByte {b : UInt8} (h : c ∈ percentByte b) :
    c = '%' ∨ ∃ n < 16, c = upperHexDigit n := by
  simp only [percentByte, List.mem_cons, List.not_mem_nil, or_false] at h
  have hbyte : b.toNat < 256 := b.toNat_lt
  rcases h with h | h | h
  · exact .inl h
  · exact .inr ⟨_, by omega, h⟩
  · exact .inr ⟨_, Nat.mod_lt _ (by decide), h⟩

/-- Percent-encoding brings in percent signs and digits only. -/
theorem mem_percentEncode (h : c ∈ percentEncode encoded cs) :
    (c ∈ cs ∧ Unencoded encoded c) ∨ c = '%' ∨ ∃ n < 16, c = upperHexDigit n := by
  rw [percentEncode, List.mem_flatMap] at h
  obtain ⟨d, hd, hc⟩ := h
  by_cases hplain : Unencoded encoded d
  · rw [percentEncodeChar_of_unencoded hplain, List.mem_singleton] at hc
    subst hc
    exact .inl ⟨hd, hplain⟩
  · rw [percentEncodeChar_of_not_unencoded hplain] at hc
    obtain ⟨b, -, hb⟩ := List.mem_flatMap.1 hc
    exact .inr (mem_percentByte hb)

theorem percentEncode_eq_self (h : ∀ c ∈ cs, Unencoded encoded c) :
    percentEncode encoded cs = cs := by
  induction cs with
  | nil => rfl
  | cons c cs ih =>
      rw [percentEncode, List.flatMap_cons,
        percentEncodeChar_of_unencoded (h c List.mem_cons_self), ← percentEncode,
        ih fun d hd => h d (List.mem_cons_of_mem c hd)]
      rfl

theorem percent_mem_percentEncode (hc : c ∈ cs) (h : ¬ Unencoded encoded c) :
    '%' ∈ percentEncode encoded cs := by
  obtain ⟨b, rest, hbytes, -⟩ := exists_utf8EncodeChar c
  rw [percentEncode, List.mem_flatMap]
  refine ⟨c, hc, ?_⟩
  rw [percentEncodeChar_of_not_unencoded h, hbytes, List.flatMap_cons]
  exact List.mem_append_left _ List.mem_cons_self

theorem percentEncode_eq_self_of_percent_not_mem (h : '%' ∉ percentEncode encoded cs) :
    percentEncode encoded cs = cs := by
  apply percentEncode_eq_self
  intro c hc
  by_contra hencoded
  exact h (percent_mem_percentEncode hc hencoded)

theorem one_lt_length_percentEncodeChar (h : ¬ Unencoded encoded c) :
    1 < (percentEncodeChar encoded c).length := by
  obtain ⟨b, rest, hbytes, -⟩ := exists_utf8EncodeChar c
  rw [percentEncodeChar_of_not_unencoded h, hbytes, List.flatMap_cons, List.length_append]
  have hbyte : (percentByte b).length = 3 := rfl
  omega

theorem length_le_percentEncode (encoded : Char → Bool) (cs : List Char) :
    cs.length ≤ (percentEncode encoded cs).length := by
  induction cs with
  | nil => exact le_refl 0
  | cons c cs ih =>
      have hc : 1 ≤ (percentEncodeChar encoded c).length := by
        by_cases hplain : Unencoded encoded c
        · rw [percentEncodeChar_of_unencoded hplain, List.length_singleton]
        · exact (one_lt_length_percentEncodeChar hplain).le
      rw [percentEncode, List.flatMap_cons, ← percentEncode, List.length_append, List.length_cons]
      omega

/-- Encoding makes a text longer unless it leaves all of it. -/
theorem percentEncode_eq_self_iff :
    percentEncode encoded cs = cs ↔ ∀ c ∈ cs, Unencoded encoded c := by
  constructor
  · intro h
    induction cs with
    | nil => simp
    | cons c cs ih =>
        rw [percentEncode, List.flatMap_cons, ← percentEncode] at h
        by_cases hplain : Unencoded encoded c
        · rw [percentEncodeChar_of_unencoded hplain, List.singleton_append] at h
          exact List.forall_mem_cons.2 ⟨hplain, ih (List.cons.inj h).2⟩
        · -- Nothing that follows could make up for the length that `c` gains.
          have hlength := congrArg List.length h
          have hchar := one_lt_length_percentEncodeChar hplain
          have hrest := length_le_percentEncode encoded cs
          rw [List.length_append, List.length_cons] at hlength
          omega
  · exact percentEncode_eq_self

/-! ## Decoding -/

theorem percentDecode_percentByte (b : UInt8) (rest : List Char) :
    percentDecode (percentByte b ++ rest) = b :: percentDecode rest := by
  have hdigit : ∀ n : Fin 16, hexValue? (upperHexDigit n) = some n.val := by decide
  have hbyte : b.toNat < 256 := b.toNat_lt
  have hhigh := hdigit ⟨b.toNat / 16, by omega⟩
  have hlow := hdigit ⟨b.toNat % 16, Nat.mod_lt _ (by decide)⟩
  have hvalue : 16 * (b.toNat / 16) + b.toNat % 16 = b.toNat := Nat.div_add_mod _ 16
  have hbytes : bytesOfHex? [upperHexDigit (b.toNat / 16), upperHexDigit (b.toNat % 16)] =
      some [b] := by
    simp only [bytesOfHex?, hhigh, hlow, bind, Option.bind, pure, hvalue, UInt8.ofNat_toNat]
  rw [percentByte, List.cons_append, List.cons_append, List.cons_append, List.nil_append,
    percentDecode, hbytes]
  rfl

theorem percentDecode_flatMap_percentByte (bytes : List UInt8) (rest : List Char) :
    percentDecode (bytes.flatMap percentByte ++ rest) = bytes ++ percentDecode rest := by
  induction bytes with
  | nil => rfl
  | cons b bytes ih =>
      rw [List.flatMap_cons, List.append_assoc, percentDecode_percentByte, ih, List.cons_append]

theorem percentDecode_cons (hc : c ≠ '%') (rest : List Char) :
    percentDecode (c :: rest) = String.utf8EncodeChar c ++ percentDecode rest := by
  rw [percentDecode, toList_toUTF8_singleton]
  rintro high low rest rfl
  exact absurd rfl hc

theorem percentDecode_percentEncode (hpercent : encoded '%' = true) (cs : List Char) :
    percentDecode (percentEncode encoded cs) = cs.flatMap String.utf8EncodeChar := by
  induction cs with
  | nil => rfl
  | cons c cs ih =>
      rw [percentEncode, List.flatMap_cons, ← percentEncode, List.flatMap_cons, ← ih]
      by_cases hplain : Unencoded encoded c
      · -- A percent sign is encoded itself, so none that is read stands for itself.
        have hc : c ≠ '%' := by
          rintro rfl
          rw [hplain.2.2] at hpercent
          cases hpercent
        rw [percentEncodeChar_of_unencoded hplain, List.singleton_append, percentDecode_cons hc]
      · rw [percentEncodeChar_of_not_unencoded hplain, percentDecode_flatMap_percentByte]

end DocumentQuery.Url
