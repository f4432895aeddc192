import DocumentQuery.Json.Token
import DocumentQuery.Number.Layout
import Mathlib.Tactic

/-!
# Numerals in text

A numeral is read back from its own characters, whatever follows them, as long
as that cannot be taken for more of the numeral.  The digits of the whole part
start with a zero only if they are a single zero, which is what the scanner
relies on.
-/

namespace DocumentQuery

/-! ## Digits -/

theorem digitValue?_digitChar (d : Fin 10) :
    digitValue? (digitChar d) = some d := by
  revert d
  decide

theorem digitChar_eq_zero_iff (d : Fin 10) : digitChar d = '0' ↔ d = 0 := by
  revert d
  decide

theorem digitsValue_concat (start : Nat) (digits : List (Fin 10)) (d : Fin 10) :
    digitsValue start (digits ++ [d]) = 10 * digitsValue start digits + d.val := by
  rw [digitsValue, List.foldl_concat]
  rfl

/-- The digits of a natural number, as they are written. -/
theorem exists_digits (n : Nat) :
    ∃ first rest, Nat.toDigits 10 n = (first :: rest).map digitChar ∧
      digitsValue 0 (first :: rest) = n ∧ (n ≠ 0 → first ≠ 0) := by
  have hchar : ∀ d : Fin 10, Nat.digitChar d.val = digitChar d := by decide
  induction n using Nat.strongRecOn with
  | _ n ih =>
      by_cases hn : n < 10
      · refine ⟨⟨n, hn⟩, [], ?_, ?_, ?_⟩
        · rw [Nat.toDigits_of_lt_base hn, List.map_singleton]
          exact congrArg (fun c => [c]) (hchar ⟨n, hn⟩)
        · simp [digitsValue]
        · intro hne hzero
          exact hne (Fin.ext_iff.1 hzero)
      · have hle : 10 ≤ n := Nat.not_lt.1 hn
        obtain ⟨first, rest, htext, hvalue, hfirst⟩ := ih (n / 10) (by omega)
        have hlast : n % 10 < 10 := Nat.mod_lt _ (by decide)
        refine ⟨first, rest ++ [⟨n % 10, hlast⟩], ?_, ?_, fun _ => ?_⟩
        · rw [Nat.toDigits_of_base_le (by decide) hle, htext, ← List.cons_append,
            List.map_append]
          exact congrArg (fun c => _ ++ [c]) (hchar ⟨n % 10, hlast⟩)
        · rw [← List.cons_append, digitsValue_concat, hvalue]
          exact Nat.div_add_mod n 10
        · exact hfirst (by omega)

/-! ## The parts of a numeral -/

namespace Numeral

/-- A point is followed by at least one digit. -/
def IsProper (value : Numeral) : Prop := value.fraction ≠ some []

def fractionText (fraction : Option (List (Fin 10))) : List Char :=
  match fraction with
  | none => []
  | some digits => '.' :: digits.map digitChar

def exponentText (exponent : Option Int) : List Char :=
  match exponent with
  | none => []
  | some e =>
    'e' :: (if e < 0 then '-' else '+') :: Nat.toDigits 10 e.natAbs

theorem render_eq (value : Numeral) :
    value.render = (if value.negative then ['-'] else []) ++
      Nat.toDigits 10 value.whole ++ fractionText value.fraction ++
      exponentText value.exponent :=
  rfl

/-- What comes first in a text, if anything does, goes on no digits. -/
def EndsDigits (rest : List Char) : Prop :=
  ∀ c ∈ rest.head?, digitValue? c = none

/-- What comes first in a text, if anything does, belongs to no numeral before
it. -/
def EndsNumeral (rest : List Char) : Prop :=
  ∀ c ∈ rest.head?, digitValue? c = none ∧ c ≠ '.' ∧ c ≠ 'e' ∧ c ≠ 'E'

theorem EndsNumeral.endsDigits {rest : List Char} (h : EndsNumeral rest) :
    EndsDigits rest :=
  fun c hc => (h c hc).1

/-- What can follow a fraction. -/
theorem head_exponentText {rest : List Char} (h : EndsNumeral rest)
    (exponent : Option Int) :
    ∀ c ∈ (exponentText exponent ++ rest).head?,
      digitValue? c = none ∧ c ≠ '.' := by
  cases exponent with
  | none => exact fun c hc => ⟨(h c hc).1, (h c hc).2.1⟩
  | some e =>
      rintro c ⟨⟩
      decide

/-- What can follow the whole part. -/
theorem endsDigits_fractionText {rest : List Char} (h : EndsDigits rest)
    (fraction : Option (List (Fin 10))) :
    EndsDigits (fractionText fraction ++ rest) := by
  cases fraction with
  | none => exact h
  | some digits =>
      rintro c ⟨⟩
      decide

end Numeral

/-! ## Scanning -/

namespace Json

open Numeral

theorem scanDigits_map {rest : List Char} (h : EndsDigits rest)
    (digits : List (Fin 10)) :
    scanDigits (digits.map digitChar ++ rest) = (digits, rest) := by
  induction digits with
  | nil =>
      cases rest with
      | nil => rfl
      | cons c rest => rw [List.map_nil, List.nil_append, scanDigits, h c rfl]
  | cons d digits ih =>
      rw [List.map_cons, List.cons_append, scanDigits, digitValue?_digitChar, ih]

theorem scanWhole_toDigits {rest : List Char} (h : EndsDigits rest) (n : Nat) :
    scanWhole (Nat.toDigits 10 n ++ rest) = some (n, rest) := by
  by_cases hn : n = 0
  · subst hn
    rfl
  · obtain ⟨first, digits, htext, hvalue, hfirst⟩ := exists_digits n
    have hscan := scanDigits_map h (first :: digits)
    have hzero : ∀ after, Nat.toDigits 10 n ++ rest ≠ '0' :: after := by
      intro after heq
      rw [htext, List.map_cons, List.cons_append, List.cons.injEq] at heq
      exact hfirst hn ((digitChar_eq_zero_iff first).1 heq.1)
    rw [← htext] at hscan
    rw [scanWhole, hscan]
    · simp only [hvalue]
    · exact hzero

theorem scanFraction_fractionText {rest : List Char}
    (h : ∀ c ∈ rest.head?, digitValue? c = none ∧ c ≠ '.')
    {fraction : Option (List (Fin 10))} (hfraction : fraction ≠ some []) :
    scanFraction (fractionText fraction ++ rest) = some (fraction, rest) := by
  cases fraction with
  | none =>
      rw [fractionText, List.nil_append, scanFraction.eq_def]
      split
      · next tail => exact ((h '.' rfl).2 rfl).elim
      · rfl
  | some digits =>
      rw [fractionText, List.cons_append, scanFraction,
        scanDigits_map fun c hc => (h c hc).1]
      cases digits with
      | nil => exact (hfraction rfl).elim
      | cons d digits => rfl

theorem scanExponent_exponentText {rest : List Char} (h : EndsNumeral rest)
    (exponent : Option Int) :
    scanExponent (exponentText exponent ++ rest) = some (exponent, rest) := by
  cases exponent with
  | none =>
      cases rest with
      | nil => rfl
      | cons c rest =>
          obtain ⟨_, _, hsmall, hlarge⟩ := h c rfl
          rw [exponentText, List.nil_append, scanExponent,
            if_neg (by simp [hsmall, hlarge])]
  | some e =>
      obtain ⟨first, digits, htext, hvalue, _⟩ := exists_digits e.natAbs
      have hscan := scanDigits_map h.endsDigits (first :: digits)
      rw [← htext] at hscan
      rw [exponentText, List.cons_append, List.cons_append, scanExponent,
        if_pos (.inl rfl)]
      by_cases he : e < 0
      · have hsize : -(e.natAbs : Int) = e := by omega
        simp only [he, if_true, scanSign, hscan, hvalue, hsize]
      · have hsize : (e.natAbs : Int) = e := by omega
        simp only [he, if_false, scanSign, hscan, hvalue, hsize,
          Bool.false_eq_true]

theorem scanUnsigned_text {rest : List Char} (h : EndsNumeral rest)
    {value : Numeral} (hproper : value.IsProper) :
    scanUnsigned value.negative (Nat.toDigits 10 value.whole ++
      (fractionText value.fraction ++
        (exponentText value.exponent ++ rest))) = some (value, rest) := by
  have hexponent := head_exponentText h value.exponent
  have hfraction := endsDigits_fractionText
    (fun c hc => (hexponent c hc).1) value.fraction
  rw [scanUnsigned, scanWhole_toDigits hfraction]
  simp only [Option.bind_eq_bind, Option.bind_some]
  rw [scanFraction_fractionText hexponent hproper, Option.bind_some,
    scanExponent_exponentText h]
  rfl

/-- A numeral is read back from its characters. -/
theorem scanNumeral_render {rest : List Char} (h : EndsNumeral rest)
    {value : Numeral} (hproper : value.IsProper) :
    scanNumeral (value.render ++ rest) = some (value, rest) := by
  have hscan := scanUnsigned_text h hproper
  rw [render_eq]
  simp only [List.append_assoc]
  obtain ⟨negative, whole, fraction, exponent⟩ := value
  cases negative with
  | true => exact hscan
  | false =>
      obtain ⟨first, digits, htext, _⟩ := exists_digits whole
      rw [if_neg Bool.false_ne_true, List.nil_append, scanNumeral.eq_def]
      split
      · next tail heq =>
          have hminus : ∀ d : Fin 10, digitChar d ≠ '-' := by decide
          simp only [htext, List.map_cons, List.cons_append,
            List.cons.injEq] at heq
          exact (hminus first heq.1).elim
      · exact hscan

end Json

/-! ## Numerals of numbers -/

theorem lastDigits_ne_nil (n width : Nat) : lastDigits n (width + 1) ≠ [] := by
  rw [lastDigits]
  exact List.cons_ne_nil _ _

theorem Layout.isProper_numeral (layout : Layout) (negative : Bool)
    (d : Decimal) : (layout.numeral negative d).IsProper := by
  unfold numeral Numeral.IsProper
  dsimp only
  split
  · split
    · dsimp only
      split <;> simp
    · simpa using lastDigits_ne_nil _ _
  · have hlength : 0 < decimalLength d.significand := Nat.length_toDigits_pos
    dsimp only
    split
    · simp
    · next hone =>
        obtain ⟨width, hwidth⟩ := Nat.exists_eq_add_of_le
          (show 2 ≤ decimalLength d.significand by omega)
        rw [hwidth, show 2 + width - 1 = width + 1 by omega]
        simpa using lastDigits_ne_nil _ _

theorem Binary.isProper_of_toNumeral? {p : Precision} {layout : Layout}
    {n : Binary p} {numeral : Numeral} (h : n.toNumeral? layout = some numeral) :
    numeral.IsProper := by
  cases n with
  | finite negative rank =>
      cases h
      exact layout.isProper_numeral negative _
  | _ => cases h

end DocumentQuery
