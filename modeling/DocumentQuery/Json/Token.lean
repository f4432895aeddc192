import DocumentQuery.Json.Basic
import DocumentQuery.Number.Scan
import DocumentQuery.Text.Hex

/-!
# Tokens of JSON text

Text is cut into tokens before any structure is read from it.  A scanner for a
token takes the characters it belongs to off the front and returns the rest,
which is never longer than what it was given.
-/

namespace DocumentQuery.Json

/-- The smallest meaningful pieces of JSON text. -/
inductive Token where
  | openArray
  | closeArray
  | openObject
  | closeObject
  | comma
  | colon
  | null
  | bool (value : Bool)
  | number (value : Numeral)
  | string (value : Option String)
  deriving DecidableEq, Repr

/-- One character of a string as it is written. -/
def escapeChar (c : Char) : List Char :=
  if c = '"' then ['\\', '"']
  else if c = '\\' then ['\\', '\\']
  else if c = '\x08' then ['\\', 'b']
  else if c = '\x0c' then ['\\', 'f']
  else if c = '\n' then ['\\', 'n']
  else if c = '\r' then ['\\', 'r']
  else if c = '\t' then ['\\', 't']
  else if c.toNat < 0x20 then
    ['\\', 'u', '0', '0', hexDigit (c.toNat / 16), hexDigit (c.toNat % 16)]
  else [c]

/-- A string as it is written; an unpaired surrogate stands for one that is no
text. -/
def writeString : Option String → List Char
  | some s => '"' :: s.toList.flatMap escapeChar ++ ['"']
  | none => ['"', '\\', 'u', 'd', '8', '0', '0', '"']

def Token.write : Token → List Char
  | .openArray => ['[']
  | .closeArray => [']']
  | .openObject => ['\x7b']
  | .closeObject => ['\x7d']
  | .comma => [',']
  | .colon => [':']
  | .null => ['n', 'u', 'l', 'l']
  | .bool true => ['t', 'r', 'u', 'e']
  | .bool false => ['f', 'a', 'l', 's', 'e']
  | .number value => value.render
  | .string value => writeString value

/-- The value of four hexadecimal digits. -/
def hexQuad? (a b c d : Char) : Option Nat := do
  return (← hexValue? a) * 4096 + (← hexValue? b) * 256 + (← hexValue? c) * 16 + (← hexValue? d)

/-- The character a two-character escape stands for. -/
def shortEscape? (c : Char) : Option Nat :=
  if c = '"' then some 0x22
  else if c = '\\' then some 0x5C
  else if c = '/' then some 0x2F
  else if c = 'b' then some 0x08
  else if c = 'f' then some 0x0C
  else if c = 'n' then some 0x0A
  else if c = 'r' then some 0x0D
  else if c = 't' then some 0x09
  else none

/-- The units of a string up to its closing quote, and what follows it.  A unit
is the code point of a character, or the number in an escape. -/
def scanUnits : List Char → Option (List Nat × List Char)
  | [] => none
  | '"' :: rest => some ([], rest)
  | '\\' :: 'u' :: a :: b :: c :: d :: rest => do
    let unit ← hexQuad? a b c d
    let (units, rest) ← scanUnits rest
    return (unit :: units, rest)
  | '\\' :: c :: rest => do
    let unit ← shortEscape? c
    let (units, rest) ← scanUnits rest
    return (unit :: units, rest)
  | c :: rest =>
    if c.toNat < 0x20 ∨ c = '\\' then none
    else do
      let (units, rest) ← scanUnits rest
      return (c.toNat :: units, rest)

def isLeadSurrogate (unit : Nat) : Bool := decide (0xD800 ≤ unit ∧ unit ≤ 0xDBFF)

def isTrailSurrogate (unit : Nat) : Bool := decide (0xDC00 ≤ unit ∧ unit ≤ 0xDFFF)

/-- The text that units spell: surrogates are joined in pairs, and one without
its partner spells nothing. -/
def textOfUnits? : List Nat → Option (List Char)
  | [] => some []
  | unit :: rest =>
    if isTrailSurrogate unit then none
    else if isLeadSurrogate unit then
      match rest with
      | trail :: rest =>
        if isTrailSurrogate trail then
          (textOfUnits? rest).map
            (Char.ofNat (0x10000 + (unit - 0xD800) * 0x400 + (trail - 0xDC00)) :: ·)
        else none
      | [] => none
    else (textOfUnits? rest).map (Char.ofNat unit :: ·)

/-- The digits before the point: a single zero, or digits that do not start
with one. -/
def scanWhole (cs : List Char) : Option (Nat × List Char) :=
  match cs with
  | '0' :: rest => some (0, rest)
  | _ =>
    match scanDigits cs with
    | ([], _) => none
    | (digits, rest) => some (digitsValue 0 digits, rest)

/-- A point and the digits after it, if there is a point. -/
def scanFraction : List Char → Option (Option (List (Fin 10)) × List Char)
  | '.' :: rest =>
    match scanDigits rest with
    | ([], _) => none
    | (digits, rest) => some (some digits, rest)
  | rest => some (none, rest)

def scanUnsigned (negative : Bool) (cs : List Char) : Option (Numeral × List Char) := do
  let (whole, rest) ← scanWhole cs
  let (fraction, rest) ← scanFraction rest
  let (exponent, rest) ← scanExponent rest
  return (⟨negative, whole, fraction, exponent⟩, rest)

def scanNumeral : List Char → Option (Numeral × List Char)
  | '-' :: rest => scanUnsigned true rest
  | cs => scanUnsigned false cs

/-- The token a single character makes. -/
def punctuation? (c : Char) : Option Token :=
  if c = '[' then some .openArray
  else if c = ']' then some .closeArray
  else if c = '\x7b' then some .openObject
  else if c = '\x7d' then some .closeObject
  else if c = ',' then some .comma
  else if c = ':' then some .colon
  else none

/-- What follows the given characters at the front. -/
def scanWord (word cs : List Char) : Option (List Char) :=
  if word.isPrefixOf cs then some (cs.drop word.length) else none

/-- The token that starts with `c` and goes on in `rest`. -/
def scanToken (c : Char) (rest : List Char) : Option (Token × List Char) :=
  match punctuation? c with
  | some token => some (token, rest)
  | none =>
    if c = '"' then
      (scanUnits rest).map fun (units, rest) =>
        (.string ((textOfUnits? units).map String.ofList), rest)
    else if c = 'n' then (scanWord ['u', 'l', 'l'] rest).map (Token.null, ·)
    else if c = 't' then (scanWord ['r', 'u', 'e'] rest).map (Token.bool true, ·)
    else if c = 'f' then (scanWord ['a', 'l', 's', 'e'] rest).map (Token.bool false, ·)
    else (scanNumeral (c :: rest)).map fun (value, rest) => (.number value, rest)

def isBlank (c : Char) : Bool := c = ' ' || c = '\t' || c = '\n' || c = '\r'

theorem scanUnits_length {cs : List Char} {units : List Nat} {rest : List Char}
    (h : scanUnits cs = some (units, rest)) : rest.length < cs.length := by
  fun_induction scanUnits cs generalizing units rest with
  | case1 => simp at h
  | case2 => simp_all
  | case3 a b c d cs ih =>
    simp only [Option.bind_eq_bind, Option.bind_eq_some_iff] at h
    obtain ⟨_, _, ⟨_, after⟩, htail, hout⟩ := h
    cases hout
    have := ih htail
    simp only [List.length_cons]
    omega
  | case4 c cs _ ih =>
    simp only [Option.bind_eq_bind, Option.bind_eq_some_iff] at h
    obtain ⟨_, _, ⟨_, after⟩, htail, hout⟩ := h
    cases hout
    have := ih htail
    simp only [List.length_cons]
    omega
  | case5 => simp at h
  | case6 c cs _ _ _ _ ih =>
    simp only [Option.bind_eq_bind, Option.bind_eq_some_iff] at h
    obtain ⟨⟨_, after⟩, htail, hout⟩ := h
    cases hout
    have := ih htail
    simp only [List.length_cons]
    omega

theorem scanWhole_length {cs : List Char} {whole : Nat} {rest : List Char}
    (h : scanWhole cs = some (whole, rest)) : rest.length < cs.length := by
  unfold scanWhole at h
  split at h
  · cases h
    simp
  · have := scanDigits_length cs
    split at h
    · simp at h
    · next digits after hne heq =>
      cases h
      rw [heq] at this
      cases digits with
      | nil => exact (hne rfl).elim
      | cons d ds =>
        simp only [List.length_cons] at this
        omega

theorem scanFraction_length {cs : List Char} {fraction : Option (List (Fin 10))}
    {rest : List Char} (h : scanFraction cs = some (fraction, rest)) :
    rest.length ≤ cs.length := by
  unfold scanFraction at h
  split at h
  · next cs' =>
    have := scanDigits_length cs'
    split at h
    · simp at h
    · next digits after hne heq =>
      cases h
      rw [heq] at this
      simp only [List.length_cons] at this ⊢
      omega
  · cases h
    exact Nat.le_refl _

theorem scanUnsigned_length {negative : Bool} {cs : List Char} {value : Numeral}
    {rest : List Char} (h : scanUnsigned negative cs = some (value, rest)) :
    rest.length < cs.length := by
  simp only [scanUnsigned, Option.bind_eq_bind, Option.bind_eq_some_iff] at h
  obtain ⟨⟨_, r1⟩, h1, ⟨_, r2⟩, h2, ⟨_, r3⟩, h3, hout⟩ := h
  cases hout
  have hwhole := scanWhole_length h1
  have hfraction := scanFraction_length h2
  have hexponent := scanExponent_length h3
  dsimp only at hfraction hexponent ⊢
  omega

theorem scanNumeral_length {cs : List Char} {value : Numeral} {rest : List Char}
    (h : scanNumeral cs = some (value, rest)) : rest.length < cs.length := by
  unfold scanNumeral at h
  split at h
  · have := scanUnsigned_length h
    simp only [List.length_cons]
    omega
  · exact scanUnsigned_length h

theorem scanWord_length {word cs rest : List Char} (h : scanWord word cs = some rest) :
    rest.length ≤ cs.length := by
  unfold scanWord at h
  split at h
  · cases h
    simp
  · simp at h

theorem scanToken_length {c : Char} {cs : List Char} {token : Token} {rest : List Char}
    (h : scanToken c cs = some (token, rest)) : rest.length ≤ cs.length := by
  unfold scanToken at h
  split at h
  · cases h
    exact Nat.le_refl _
  · split at h
    · obtain ⟨_, htail, hout⟩ := Option.map_eq_some_iff.1 h
      cases hout
      exact Nat.le_of_lt (scanUnits_length htail)
    · have hword {word : List Char} {token' : Token}
          (h : (scanWord word cs).map (token', ·) = some (token, rest)) :
          rest.length ≤ cs.length := by
        obtain ⟨_, htail, hout⟩ := Option.map_eq_some_iff.1 h
        cases hout
        exact scanWord_length htail
      split at h
      · exact hword h
      · split at h
        · exact hword h
        · split at h
          · exact hword h
          · obtain ⟨_, htail, hout⟩ := Option.map_eq_some_iff.1 h
            cases hout
            have := scanNumeral_length htail
            simp only [List.length_cons] at this
            omega

def tokens? : List Char → Option (List Token)
  | [] => some []
  | c :: rest =>
    if isBlank c then tokens? rest
    else
      match h : scanToken c rest with
      | none => none
      | some (token, after) =>
        have := scanToken_length h
        (tokens? after).map (token :: ·)
  termination_by cs => cs.length
  decreasing_by
    all_goals simp only [List.length_cons]
    all_goals omega

end DocumentQuery.Json
