import DocumentQuery.Json.Reader
import DocumentQuery.Proofs.NumeralText

/-!
# Documents in text

A document is read back from its own text, with every string and every numeral
as it was.  Each token is scanned back from its characters; only a numeral
depends on what follows it, and in a document that is always a comma, a closing
bracket or the end.  The walk over the tokens of a value then ends, inside the
same open containers, with that value complete.
-/

namespace DocumentQuery.Json

open Numeral

/-! ## Strings -/

theorem hexValue?_hexDigit {n : Nat} (h : n < 16) :
    hexValue? (hexDigit n) = some n := by
  have hall : ∀ n : Fin 16, hexValue? (hexDigit n) = some n.val := by decide
  exact hall ⟨n, h⟩

theorem hexQuad?_low {n : Nat} (h : n < 0x20) :
    hexQuad? '0' '0' (hexDigit (n / 16)) (hexDigit (n % 16)) = some n := by
  have hzero : hexValue? '0' = some 0 := by decide
  rw [hexQuad?, hzero, hexValue?_hexDigit (by omega),
    hexValue?_hexDigit (Nat.mod_lt n (by decide))]
  simp only [Option.bind_eq_bind, Option.bind_some, Option.pure_def,
    Option.some.injEq]
  omega

/-- Each character is read back as its own code point. -/
theorem scanUnits_escapeChar (c : Char) (rest : List Char) :
    scanUnits (escapeChar c ++ rest) =
      (scanUnits rest).map (Prod.map (c.toNat :: ·) id) := by
  have hmap : ∀ unit, ((scanUnits rest).bind fun scanned =>
      some (unit :: scanned.1, scanned.2)) =
        (scanUnits rest).map (Prod.map (unit :: ·) id) := by
    intro unit
    cases scanUnits rest <;> rfl
  rw [← hmap]
  unfold escapeChar
  iterate 7
    split
    · next h => subst h; rfl
  split
  · next hlow =>
      simp only [List.cons_append, List.nil_append]
      rw [scanUnits, hexQuad?_low hlow]
      rfl
  · next hquote hslash _ _ _ _ _ hlow =>
      rw [List.cons_append, List.nil_append, scanUnits.eq_def]
      split
      · simp_all
      · simp_all
      · simp_all
      · simp_all
      · next heq =>
          cases heq
          rw [if_neg (by simp [hlow, hslash])]
          rfl

theorem scanUnits_text (s : List Char) (rest : List Char) :
    scanUnits (s.flatMap escapeChar ++ '"' :: rest) =
      some (s.map Char.toNat, rest) := by
  induction s with
  | nil => rfl
  | cons c s ih =>
      rw [List.flatMap_cons, List.append_assoc, scanUnits_escapeChar, ih]
      rfl

/-- Characters are no surrogates. -/
theorem textOfUnits?_map_toNat (s : List Char) :
    textOfUnits? (s.map Char.toNat) = some s := by
  induction s with
  | nil => rfl
  | cons c s ih =>
      have hvalid : c.toNat < 0xD800 ∨ 0xDFFF < c.toNat :=
        c.valid.imp_right And.left
      have hlead : isLeadSurrogate c.toNat = false := by
        rw [isLeadSurrogate, decide_eq_false_iff_not]
        omega
      have htrail : isTrailSurrogate c.toNat = false := by
        rw [isTrailSurrogate, decide_eq_false_iff_not]
        omega
      rw [List.map_cons, textOfUnits?.eq_def]
      simp only [htrail, hlead, Bool.false_eq_true, if_false, ih,
        Option.map_some, Char.ofNat_toNat]

/-! ## Tokens -/

/-- The numeral of a token, if it is one, is proper. -/
def Token.IsProper : Token → Prop
  | .number value => value.IsProper
  | _ => True

theorem tokens?_cons {c : Char} {rest after : List Char} {token : Token}
    (hblank : isBlank c = false) (hscan : scanToken c rest = some (token, after)) :
    tokens? (c :: rest) = (tokens? after).map (token :: ·) := by
  rw [tokens?, if_neg (by rw [hblank]; exact Bool.false_ne_true)]
  split
  · next hnone => rw [hscan] at hnone; cases hnone
  · next hsome => rw [hscan] at hsome; cases hsome; rfl

/-- A numeral starts with a sign or a digit. -/
theorem exists_render (value : Numeral) :
    ∃ c cs, value.render = c :: cs ∧ (c = '-' ∨ ∃ d, c = digitChar d) := by
  obtain ⟨first, digits, htext, _⟩ := exists_digits value.whole
  rw [render_eq, htext]
  cases value.negative with
  | true => exact ⟨_, _, rfl, .inl rfl⟩
  | false => exact ⟨_, _, rfl, .inr ⟨first, rfl⟩⟩

/-- No other token starts as a numeral does. -/
theorem scanToken_numeral {c : Char} (hc : c = '-' ∨ ∃ d, c = digitChar d)
    (rest : List Char) :
    isBlank c = false ∧ scanToken c rest =
      (scanNumeral (c :: rest)).map fun (value, rest) => (.number value, rest) := by
  have hdigit : ∀ d : Fin 10, isBlank (digitChar d) = false ∧
      punctuation? (digitChar d) = none ∧ digitChar d ≠ '"' ∧
      digitChar d ≠ 'n' ∧ digitChar d ≠ 't' ∧ digitChar d ≠ 'f' := by decide
  have hother : isBlank c = false ∧ punctuation? c = none ∧ c ≠ '"' ∧
      c ≠ 'n' ∧ c ≠ 't' ∧ c ≠ 'f' := by
    rcases hc with rfl | ⟨d, rfl⟩
    · decide
    · exact hdigit d
  obtain ⟨hblank, hpunctuation, hquote, hn, ht, hf⟩ := hother
  refine ⟨hblank, ?_⟩
  simp only [scanToken, hpunctuation, hquote, hn, ht, hf, if_false]

/-- A string is read back from its characters; the one that is no text stands
for a surrogate, which is none either. -/
theorem exists_writeString (value : Option String) (rest : List Char) :
    ∃ text, writeString value = '"' :: text ∧
      scanToken '"' (text ++ rest) = some (.string value, rest) := by
  have hquote (text : List Char) : scanToken '"' text =
      (scanUnits text).map fun scanned =>
        (.string ((textOfUnits? scanned.1).map String.ofList), scanned.2) := rfl
  cases value with
  | some s =>
      refine ⟨s.toList.flatMap escapeChar ++ ['"'], rfl, ?_⟩
      rw [hquote, List.append_assoc, List.singleton_append, scanUnits_text]
      simp only [Option.map_some, textOfUnits?_map_toNat, String.ofList_toList]
  | none =>
      have hquad : hexQuad? 'd' '8' '0' '0' = some 0xD800 := by decide
      refine ⟨_, rfl, ?_⟩
      simp only [hquote, List.cons_append, List.nil_append, scanUnits, hquad]
      rfl

/-- A token is read back from its characters.  What follows matters only for a
numeral. -/
theorem tokens?_write_append {token : Token} (hproper : token.IsProper)
    {rest : List Char}
    (hends : ∀ value, token = .number value → EndsNumeral rest) :
    tokens? (token.write ++ rest) = (tokens? rest).map (token :: ·) := by
  cases token with
  | number value =>
      have hscan := scanNumeral_render (hends value rfl) hproper
      obtain ⟨c, cs, htext, hc⟩ := exists_render value
      obtain ⟨hblank, htoken⟩ := scanToken_numeral hc (cs ++ rest)
      rw [htext, List.cons_append] at hscan
      rw [hscan] at htoken
      rw [Token.write, htext, List.cons_append]
      exact tokens?_cons hblank htoken
  | string value =>
      obtain ⟨text, htext, hscan⟩ := exists_writeString value rest
      rw [Token.write, htext, List.cons_append]
      exact tokens?_cons rfl hscan
  | bool value => cases value <;> exact tokens?_cons rfl rfl
  | _ => exact tokens?_cons rfl rfl

/-! ## The text of a document -/

mutual

/-- Every numeral of the document is proper. -/
def IsProper : Json → Prop
  | .number value => value.IsProper
  | .array items => ItemsProper items
  | .object members => MembersProper members
  | _ => True

def ItemsProper : List Json → Prop
  | [] => True
  | item :: rest => IsProper item ∧ ItemsProper rest

def MembersProper : List (Option String × Json) → Prop
  | [] => True
  | (_, value) :: rest => IsProper value ∧ MembersProper rest

end

theorem endsNumeral_laterItems (items : List Json) (rest : List Char) :
    EndsNumeral ((laterItemTokens items).flatMap Token.write ++ rest) := by
  cases items <;>
    · rintro c ⟨⟩
      decide

theorem endsNumeral_laterMembers (members : List (Option String × Json))
    (rest : List Char) :
    EndsNumeral ((laterMemberTokens members).flatMap Token.write ++ rest) := by
  rcases members with _ | ⟨⟨_, _⟩, _⟩ <;>
    · rintro c ⟨⟩
      decide

/-- Any token but a numeral can be followed by anything. -/
theorem tokens?_flatMap_cons {token : Token} (htoken : ∀ value, token ≠ .number value)
    {later more : List Token} {rest : List Char}
    (hlater : tokens? (later.flatMap Token.write ++ rest) = some more) :
    tokens? ((token :: later).flatMap Token.write ++ rest) =
      some (token :: more) := by
  have hproper : token.IsProper := by
    cases token with
    | number value => exact (htoken value rfl).elim
    | _ => trivial
  rw [List.flatMap_cons, List.append_assoc,
    tokens?_write_append hproper (fun value heq => (htoken value heq).elim),
    hlater]
  rfl

theorem tokens?_flatMap_append {first later more : List Token} {rest : List Char}
    (h : tokens? (first.flatMap Token.write ++
      (later.flatMap Token.write ++ rest)) = some (first ++ (later ++ more))) :
    tokens? ((first ++ later).flatMap Token.write ++ rest) =
      some (first ++ later ++ more) := by
  rwa [List.flatMap_append, List.append_assoc, List.append_assoc]

-- What follows a document is a parameter of the induction: it is what ends a
-- numeral that the document ends with.
mutual

theorem tokens?_tokens {rest : List Char} {more : List Token}
    (hrest : tokens? rest = some more) (hends : EndsNumeral rest) :
    ∀ json : Json, json.IsProper →
      tokens? (json.tokens.flatMap Token.write ++ rest) =
        some (json.tokens ++ more)
  | .null, _ | .bool _, _ | .string _, _ =>
    tokens?_flatMap_cons (by simp) hrest
  | .number value, hproper => by
    have htoken : (Token.number value).IsProper := hproper
    rw [tokens, List.flatMap_singleton,
      tokens?_write_append htoken fun _ _ => hends, hrest]
    rfl
  | .array items, hproper =>
    tokens?_flatMap_cons (by simp) (tokens?_itemTokens hrest items hproper)
  | .object members, hproper =>
    tokens?_flatMap_cons (by simp) (tokens?_memberTokens hrest members hproper)

theorem tokens?_itemTokens {rest : List Char} {more : List Token}
    (hrest : tokens? rest = some more) :
    ∀ items : List Json, ItemsProper items →
      tokens? ((itemTokens items).flatMap Token.write ++ rest) =
        some (itemTokens items ++ more)
  | [], _ => tokens?_flatMap_cons (by simp) hrest
  | item :: items, ⟨hitem, hitems⟩ =>
    tokens?_flatMap_append
      (tokens?_tokens (tokens?_laterItemTokens hrest items hitems)
        (endsNumeral_laterItems items rest) item hitem)

theorem tokens?_laterItemTokens {rest : List Char} {more : List Token}
    (hrest : tokens? rest = some more) :
    ∀ items : List Json, ItemsProper items →
      tokens? ((laterItemTokens items).flatMap Token.write ++ rest) =
        some (laterItemTokens items ++ more)
  | [], _ => tokens?_flatMap_cons (by simp) hrest
  | item :: items, ⟨hitem, hitems⟩ =>
    tokens?_flatMap_cons (by simp) (tokens?_flatMap_append
      (tokens?_tokens (tokens?_laterItemTokens hrest items hitems)
        (endsNumeral_laterItems items rest) item hitem))

theorem tokens?_memberTokens {rest : List Char} {more : List Token}
    (hrest : tokens? rest = some more) :
    ∀ members : List (Option String × Json), MembersProper members →
      tokens? ((memberTokens members).flatMap Token.write ++ rest) =
        some (memberTokens members ++ more)
  | [], _ => tokens?_flatMap_cons (by simp) hrest
  | (name, value) :: members, ⟨hvalue, hmembers⟩ => by
    refine tokens?_flatMap_cons (by simp)
      (tokens?_flatMap_cons (by simp) (tokens?_flatMap_append ?_))
    exact tokens?_tokens (tokens?_laterMemberTokens hrest members hmembers)
      (endsNumeral_laterMembers members rest) value hvalue

theorem tokens?_laterMemberTokens {rest : List Char} {more : List Token}
    (hrest : tokens? rest = some more) :
    ∀ members : List (Option String × Json), MembersProper members →
      tokens? ((laterMemberTokens members).flatMap Token.write ++ rest) =
        some (laterMemberTokens members ++ more)
  | [], _ => tokens?_flatMap_cons (by simp) hrest
  | (name, value) :: members, ⟨hvalue, hmembers⟩ => by
    refine tokens?_flatMap_cons (by simp) (tokens?_flatMap_cons (by simp)
      (tokens?_flatMap_cons (by simp) (tokens?_flatMap_append ?_)))
    exact tokens?_tokens (tokens?_laterMemberTokens hrest members hmembers)
      (endsNumeral_laterMembers members rest) value hvalue

end

/-! ## The walk over the tokens -/

/-- A value starts an array as it goes on in one. -/
theorem foldlM_atFirstItem (json : Json) (frames : List Frame) :
    json.tokens.foldlM ReadState.step (.atFirstItem frames) =
      json.tokens.foldlM ReadState.step (.atValue (.array [] :: frames)) := by
  cases json <;> rfl

-- The open containers are a parameter of the induction, since every container
-- adds one around its own values.
mutual

theorem foldlM_tokens : ∀ (json : Json) (frames : List Frame),
    json.tokens.foldlM ReadState.step (.atValue frames) =
      some (.complete json frames)
  | .null, _ | .bool _, _ | .number _, _ | .string _, _ => rfl
  | .array items, frames => foldlM_itemTokens items frames
  | .object members, frames => foldlM_memberTokens members frames

theorem foldlM_itemTokens : ∀ (items : List Json) (frames : List Frame),
    (itemTokens items).foldlM ReadState.step (.atFirstItem frames) =
      some (.complete (.array items) frames)
  | [], _ => rfl
  | item :: items, frames => by
    rw [itemTokens, List.foldlM_append, foldlM_atFirstItem, foldlM_tokens]
    exact foldlM_laterItemTokens items item [] frames

theorem foldlM_laterItemTokens :
    ∀ (items : List Json) (value : Json) (done : List Json) (frames : List Frame),
    (laterItemTokens items).foldlM ReadState.step
      (.complete value (.array done :: frames)) =
      some (.complete (.array ((value :: done).reverse ++ items)) frames)
  | [], value, done, frames => by
    rw [List.append_nil]
    rfl
  | item :: items, value, done, frames => by
    simp only [laterItemTokens, List.foldlM_cons, ReadState.step,
      ReadState.stepAfter, Option.bind_eq_bind, Option.bind_some]
    rw [List.foldlM_append, foldlM_tokens, List.append_cons,
      ← List.reverse_cons]
    exact foldlM_laterItemTokens items item (value :: done) frames

theorem foldlM_memberTokens :
    ∀ (members : List (Option String × Json)) (frames : List Frame),
    (memberTokens members).foldlM ReadState.step (.atFirstName frames) =
      some (.complete (.object members) frames)
  | [], _ => rfl
  | (name, value) :: members, frames => by
    simp only [memberTokens, List.foldlM_cons, ReadState.step,
      Option.bind_eq_bind, Option.bind_some]
    rw [List.foldlM_append, foldlM_tokens]
    exact foldlM_laterMemberTokens members name value [] frames

theorem foldlM_laterMemberTokens :
    ∀ (members : List (Option String × Json)) (name : Option String)
      (value : Json) (done : List (Option String × Json)) (frames : List Frame),
    (laterMemberTokens members).foldlM ReadState.step
      (.complete value (.object done name :: frames)) =
      some (.complete (.object (((name, value) :: done).reverse ++ members)) frames)
  | [], name, value, done, frames => by
    rw [List.append_nil]
    rfl
  | (other, item) :: members, name, value, done, frames => by
    simp only [laterMemberTokens, List.foldlM_cons, ReadState.step,
      ReadState.stepAfter, Option.bind_eq_bind, Option.bind_some]
    rw [List.foldlM_append, foldlM_tokens, List.append_cons,
      ← List.reverse_cons]
    exact foldlM_laterMemberTokens members other item ((name, value) :: done)
      frames

end

/-- A document is read back from its text. -/
theorem parse?_write {json : Json} (hproper : json.IsProper) :
    parse? json.write = some json := by
  have hnothing : tokens? [] = some [] := by rw [tokens?]
  have htokens := tokens?_tokens hnothing (by rintro c ⟨⟩) json hproper
  rw [List.append_nil, List.append_nil] at htokens
  rw [parse?, write, String.toList_ofList, htokens]
  simp only [Option.bind_eq_bind, Option.bind_some, ofTokens?, foldlM_tokens]
  rfl

end DocumentQuery.Json
