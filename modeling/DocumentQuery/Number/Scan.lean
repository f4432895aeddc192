import DocumentQuery.Number.Numeral

/-!
# Taking numerals off the front of text

Each scanner takes the characters it belongs to off the front and returns the
rest, which is never longer than what it was given.
-/

namespace DocumentQuery

/-- The digits at the front, and what follows them. -/
def scanDigits : List Char → List (Fin 10) × List Char
  | [] => ([], [])
  | c :: rest =>
    match digitValue? c with
    | some d => let (digits, after) := scanDigits rest; (d :: digits, after)
    | none => ([], c :: rest)

/-- The sign at the front, and what follows it. -/
def scanSign : List Char → Bool × List Char
  | '-' :: rest => (true, rest)
  | '+' :: rest => (false, rest)
  | rest => (false, rest)

/-- A power of ten, if there is one. -/
def scanExponent : List Char → Option (Option Int × List Char)
  | c :: rest =>
    if c = 'e' ∨ c = 'E' then
      let (negative, rest) := scanSign rest
      match scanDigits rest with
      | ([], _) => none
      | (digits, rest) =>
        let size : Int := digitsValue 0 digits
        some (some (if negative then -size else size), rest)
    else some (none, c :: rest)
  | [] => some (none, [])

theorem scanDigits_length (cs : List Char) :
    (scanDigits cs).1.length + (scanDigits cs).2.length = cs.length := by
  induction cs with
  | nil => rfl
  | cons c rest ih =>
    unfold scanDigits
    split
    · simp only [List.length_cons]
      omega
    · simp

theorem scanSign_length (cs : List Char) : (scanSign cs).2.length ≤ cs.length := by
  unfold scanSign
  split <;> simp

theorem scanExponent_length {cs : List Char} {exponent : Option Int} {rest : List Char}
    (h : scanExponent cs = some (exponent, rest)) : rest.length ≤ cs.length := by
  unfold scanExponent at h
  split at h
  · next c cs' =>
    split at h
    · have hsign := scanSign_length cs'
      have hdigits := scanDigits_length (scanSign cs').2
      dsimp only at h
      split at h
      · simp at h
      · next digits after hne heq =>
        cases h
        rw [heq] at hdigits
        simp only [List.length_cons] at hdigits ⊢
        omega
    · cases h
      exact Nat.le_refl _
  · cases h
    exact Nat.le_refl _

end DocumentQuery
