import DocumentQuery.Proofs.AddressDatabase

/-!
# Options written as a URL

Options can be written as a URL, the key percent-encoded in front of the host.  Reading
that URL gives back host, port and database.  The key comes back as it was encoded,
since nothing decodes it: a key that cannot stand in a URL as it is cannot come from
any URL.
-/

namespace DocumentQuery.ConnectOptions

open Url

variable {o : ConnectOptions} {encoded : Char → Bool} {c : Char}

/-! ## Writing -/

def keyText (encoded : Char → Bool) (key : String) : String :=
  String.ofList (percentEncode encoded key.toList)

def authorityText (encoded : Char → Bool) (o : ConnectOptions) : String :=
  (match o.authKey with
    | none => ""
    | some key => keyText encoded key ++ "@") ++ o.address

/-- The options as a URL. -/
def toUrl (encoded : Char → Bool) (o : ConnectOptions) : String :=
  addressUrl (authorityText encoded o) o.database

/-- A lower-case letter, a digit, a dot or a hyphen. -/
def IsPlainHostChar (c : Char) : Prop :=
  ('a' ≤ c ∧ c ≤ 'z') ∨ ('0' ≤ c ∧ c ≤ '9') ∨ c = '.' ∨ c = '-'

instance (c : Char) : Decidable (IsPlainHostChar c) :=
  inferInstanceAs (Decidable (_ ∨ _ ∨ _ ∨ _))

/-- Options with a plain host, a port, a database and a key that is not empty. -/
structure IsPlain (o : ConnectOptions) : Prop where
  host_ne : o.host ≠ ""
  host : ∀ c ∈ o.host.toList, IsPlainHostChar c
  port : o.port ≤ 65535
  database : IsPlainName o.database
  authKey : o.authKey ≠ some ""

/-- Whatever has a meaning in a user name is encoded. -/
def CoversUser (encoded : Char → Bool) : Prop :=
  ∀ c, encodedInUser c = true → encoded c = true

/-! ## Characters of an authority -/

theorem IsPlainHostChar.unencoded (h : IsPlainHostChar c) :
    Unencoded encodedInUser c ∧ forbiddenInHost c = false := by
  have hbound : c.toNat < 0x7F := by
    rcases h with ⟨-, hhigh⟩ | ⟨-, hhigh⟩ | rfl | rfl
    · exact lt_of_le_of_lt hhigh (by decide)
    · exact lt_of_le_of_lt hhigh (by decide)
    · decide
    · decide
  exact forall_ascii
    (P := fun c => IsPlainHostChar c → Unencoded encodedInUser c ∧ forbiddenInHost c = false)
    (by decide +kernel) hbound h

theorem unencoded_of_mem_keyText (hencoded : CoversUser encoded) {key : String}
    (hc : c ∈ (keyText encoded key).toList) : Unencoded encodedInUser c := by
  rw [keyText, String.toList_ofList] at hc
  rcases mem_percentEncode hc with ⟨-, hlow, hhigh, hplain⟩ | rfl | ⟨n, hn, rfl⟩
  · refine ⟨hlow, hhigh, ?_⟩
    by_contra huser
    rw [hencoded c (by simpa using huser)] at hplain
    cases hplain
  · decide
  · have hdigit : ∀ n : Fin 16, Unencoded encodedInUser (upperHexDigit n) := by decide
    exact hdigit ⟨n, hn⟩

/-- A character that ends no authority and is neither a blank nor a line break. -/
def StaysInAuthority (c : Char) : Prop := 0x20 < c.toNat ∧ endsAuthority .plain c = false

theorem staysInAuthority_of_unencoded (h : Unencoded encodedInUser c) : StaysInAuthority c := by
  obtain ⟨hlow, hhigh, huser⟩ := h
  have hne : ∀ d, encodedInUser d = true → c ≠ d := by
    rintro d hd rfl
    rw [hd] at huser
    cases huser
  constructor
  · have hblank : c.toNat ≠ 0x20 := fun hvalue => hne ' ' rfl (Char.toNat_inj.1 hvalue)
    omega
  · simp only [endsAuthority, Bool.or_eq_false_iff, beq_eq_false_iff_ne, Bool.and_eq_false_iff]
    exact ⟨⟨⟨hne '/' rfl, hne '?' rfl⟩, hne '#' rfl⟩, .inl rfl⟩

/-! ## The authority of options -/

def userText (encoded : Char → Bool) (o : ConnectOptions) : String :=
  (o.authKey.map (keyText encoded)).getD ""

theorem toList_address (o : ConnectOptions) :
    o.address.toList = o.host.toList ++ ':' :: Nat.toDigits 10 o.port := by
  simp [address, toString, Nat.repr]

theorem unencoded_of_mem_userText (hencoded : CoversUser encoded)
    (hc : c ∈ (userText encoded o).toList) : Unencoded encodedInUser c := by
  rw [userText] at hc
  cases hkey : o.authKey with
  | none =>
      rw [hkey] at hc
      cases hc
  | some key =>
      rw [hkey] at hc
      exact unencoded_of_mem_keyText hencoded hc

theorem IsPlain.of_mem_address (h : IsPlain o) (hc : c ∈ o.address.toList) :
    c = ':' ∨ Unencoded encodedInUser c := by
  have hdigit : ∀ d : Fin 10, Unencoded encodedInUser (digitChar d) := by decide
  rw [toList_address, List.mem_append, List.mem_cons] at hc
  rcases hc with hhost | hcolon | hport
  · exact .inr (h.host c hhost).unencoded.1
  · exact .inl hcolon
  · obtain ⟨first, rest, hdigits, -, -⟩ := exists_digits o.port
    rw [hdigits] at hport
    obtain ⟨d, -, rfl⟩ := List.mem_map.1 hport
    exact .inr (hdigit d)

theorem IsPlain.at_not_mem_address (h : IsPlain o) : '@' ∉ o.address.toList := by
  intro hmem
  rcases h.of_mem_address hmem with hcolon | huser
  · exact absurd hcolon (by decide)
  · exact absurd huser (by decide)

theorem toList_authorityText (encoded : Char → Bool) (o : ConnectOptions) :
    (authorityText encoded o).toList =
      (if o.authKey.isSome then (userText encoded o).toList ++ ['@'] else []) ++
        o.address.toList := by
  rw [authorityText, userText]
  cases o.authKey with
  | none => simp
  | some key => simp

theorem IsPlain.staysInAuthority (h : IsPlain o) (hencoded : CoversUser encoded)
    (hc : c ∈ (authorityText encoded o).toList) : StaysInAuthority c := by
  rw [toList_authorityText, List.mem_append] at hc
  rcases hc with huser | haddress
  · split at huser
    · rcases List.mem_append.1 huser with hkey | hat
      · exact staysInAuthority_of_unencoded (unencoded_of_mem_userText hencoded hkey)
      · rw [List.mem_singleton.1 hat]
        exact ⟨by decide, rfl⟩
    · cases huser
  · rcases h.of_mem_address haddress with rfl | hplain
    · exact ⟨by decide, rfl⟩
    · exact staysInAuthority_of_unencoded hplain

theorem IsPlain.splitUser_authorityText (h : IsPlain o) (encoded : Char → Bool) :
    (splitUser (authorityText encoded o).toList).getD ([], (authorityText encoded o).toList) =
      ((userText encoded o).toList, o.address.toList) := by
  rw [toList_authorityText]
  cases hkey : o.authKey with
  | none =>
      have huser : userText encoded o = "" := by
        rw [userText, hkey]
        rfl
      rw [Option.isSome_none, if_neg Bool.false_ne_true, List.nil_append,
        splitUser_eq_none h.at_not_mem_address, huser]
      rfl
  | some key =>
      rw [Option.isSome_some, if_pos rfl, List.append_assoc, List.singleton_append,
        splitUser_append h.at_not_mem_address]
      rfl

theorem IsPlain.authorityText_ends (h : IsPlain o) (hencoded : CoversUser encoded) :
    withoutBreaks (authorityText encoded o).toList = (authorityText encoded o).toList ∧
      addressRest (authorityText encoded o) = [] := by
  have hbreaks : withoutBreaks (authorityText encoded o).toList =
      (authorityText encoded o).toList :=
    withoutBreaks_eq_self fun c hc => isBreak_eq_false (h.staysInAuthority hencoded hc).1
  refine ⟨hbreaks, ?_⟩
  rw [addressRest, hbreaks, List.dropWhile_eq_nil_iff]
  intro c hc
  rw [(h.staysInAuthority hencoded hc).2]
  rfl

theorem IsPlain.endpoint_authorityText (h : IsPlain o) (hencoded : CoversUser encoded) :
    endpoint (authorityText encoded o) =
      .ok ({ scheme, username := userText encoded o, host := some o.host, port := some o.port,
             path := "" }, []) := by
  have hkept : (authorityText encoded o).toList.takeWhile (!endsAuthority .plain ·) =
      (authorityText encoded o).toList := by
    apply List.takeWhile_eq_self_iff.2
    intro c hc
    rw [(h.staysInAuthority hencoded hc).2]
    rfl
  have hsplit := h.splitUser_authorityText encoded
  rw [toList_address o] at hsplit
  have hcolon : ':' ∈ (authorityText encoded o).toList := by
    rw [toList_authorityText, toList_address]
    simp
  have hne : (authorityText encoded o).toList ≠ ['@'] := by
    intro hat
    rw [hat] at hcolon
    exact absurd hcolon (by decide)
  have hhost : ∀ c ∈ o.host.toList, Url.IsHostChar c := by
    intro c hc
    obtain ⟨⟨hlow, hhigh, -⟩, hforbidden⟩ := (h.host c hc).unencoded
    exact ⟨hforbidden, hlow, hhigh, rfl⟩
  rw [endpoint, (h.authorityText_ends hencoded).1, hkept,
    readEndpoint_written hsplit hne (fun c hc => unencoded_of_mem_userText hencoded hc)
      (fun hnil => h.host_ne (String.toList_eq_nil_iff.1 hnil)) hhost h.port,
    String.ofList_toList, String.ofList_toList]

/-! ## Reading -/

theorem keyText_eq_empty_iff {key : String} : keyText encoded key = "" ↔ key = "" := by
  constructor
  · intro h
    have hnil : percentEncode encoded key.toList = [] := by
      rw [← String.toList_ofList (l := percentEncode encoded key.toList)]
      exact String.toList_eq_nil_iff.2 h
    have hlength := length_le_percentEncode encoded key.toList
    rw [hnil, List.length_nil] at hlength
    exact String.toList_eq_nil_iff.1 (List.eq_nil_of_length_eq_zero (Nat.le_zero.1 hlength))
  · rintro rfl
    rfl

theorem keyText_eq_self_iff {key : String} :
    keyText encoded key = key ↔ ∀ c ∈ key.toList, Unencoded encoded c := by
  rw [← percentEncode_eq_self_iff, keyText, ← String.toList_inj, String.toList_ofList]

/-- The key that comes back is the one that was written, still encoded. -/
theorem IsPlain.ofUrl_toUrl (h : IsPlain o) (hencoded : CoversUser encoded) :
    ofUrl (toUrl encoded o) = .ok { o with authKey := o.authKey.map (keyText encoded) } := by
  apply ofAddress_eq_ok_iff.2
  refine ⟨_, _, h.endpoint_authorityText hencoded, ⟨rfl, rfl, rfl, ?_⟩, ?_⟩
  · rw [userText]
    cases hkey : o.authKey with
    | none => rfl
    | some key =>
        have hne : (keyText encoded key).isEmpty = false := by
          rw [Bool.eq_false_iff, ne_eq, String.isEmpty_iff, keyText_eq_empty_iff]
          rintro rfl
          exact h.authKey hkey
        simp only [Option.map_some, Option.getD_some, hne, Bool.false_eq_true, if_false]
  · have hverbatim := isVerbatim_of_isPlainName h.database
    rw [(h.authorityText_ends hencoded).2, List.append_nil]
    have hnothing : ∀ s ∈ segmentsBefore [], s = "" := by
      intro s hs
      cases hs
    apply (hverbatim.databaseOf_readPath fun c hc => by cases hc).2
    exact ⟨hnothing, .inr h.database, (if_neg h.database.1).symm⟩

/-- No URL gives a key with a character that must be encoded in it. -/
theorem unencoded_of_ofUrl {text key : String} (h : ofUrl text = .ok o)
    (hkey : o.authKey = some key) (hc : c ∈ key.toList) : Unencoded encodedInUser c := by
  obtain ⟨url, hparse, hnames, -⟩ := ofUrl_eq_ok_iff.1 h
  obtain ⟨name, hname⟩ := parse_username hparse
  have husername : url.username = key := by
    have hauth := hnames.authKey
    rw [hkey] at hauth
    split at hauth
    · cases hauth
    · exact (Option.some.inj hauth).symm
  have htext : key = keyText encodedInUser (String.ofList name) := by
    rw [← husername, hname, keyText, String.toList_ofList]
  rw [htext] at hc
  exact unencoded_of_mem_keyText (fun c hc => hc) hc

/-- What options come back as from a URL that they are written as: the same, but with a
key that is still encoded.  Decoding would give the key, and without it only options with
a key that needs no encoding come back, from this URL or any other. -/
theorem IsPlain.toUrl_read (h : IsPlain o) (hencoded : CoversUser encoded) :
    ofUrl (toUrl encoded o) = .ok { o with authKey := o.authKey.map (keyText encoded) } ∧
      (encoded '%' = true → ∀ key, o.authKey = some key →
        percentDecode (keyText encoded key).toList = Bytes.ofText key) ∧
      (ofUrl (toUrl encoded o) = .ok o ↔
        ∀ key, o.authKey = some key → ∀ c ∈ key.toList, Unencoded encoded c) ∧
      ((∃ text, ofUrl text = .ok o) ↔
        ∀ key, o.authKey = some key → ∀ c ∈ key.toList, Unencoded encodedInUser c) := by
  have hsame : ∀ encoded, CoversUser encoded → (ofUrl (toUrl encoded o) = .ok o ↔
      ∀ key, o.authKey = some key → ∀ c ∈ key.toList, Unencoded encoded c) := by
    intro encoded hencoded
    rw [h.ofUrl_toUrl hencoded, Except.ok.injEq]
    obtain ⟨host, port, authKey, database⟩ := o
    cases authKey with
    | none => simp
    | some key => simp [keyText_eq_self_iff]
  refine ⟨h.ofUrl_toUrl hencoded, fun hpercent key _ => ?_, hsame encoded hencoded, ?_⟩
  · rw [keyText, String.toList_ofList, percentDecode_percentEncode hpercent,
      Bytes.ofText_eq_flatMap]
  · constructor
    · rintro ⟨text, htext⟩ key hkey c hc
      exact unencoded_of_ofUrl htext hkey hc
    · -- Such a key stands in a URL as it is, percent signs included.
      intro hkeys
      exact ⟨_, (hsame encodedInUser fun c hc => hc).2 hkeys⟩

/-- What is encoded so that a user name can be decoded again. -/
def encodedInKey (c : Char) : Bool := encodedInUser c || c == '%'

def reservedKey : ConnectOptions :=
  { host := "db.local", port := 1234, authKey := some "p@ss", database := "prod" }

theorem IsPlain.toUrl_read_reservedKey :
    ofUrl (toUrl encodedInKey reservedKey) = .ok { reservedKey with authKey := some "p%40ss" } ∧
      percentDecode "p%40ss".toList = Bytes.ofText "p@ss" ∧
      ¬ ∃ text, ofUrl text = .ok reservedKey := by
  have hcheck : checkName .database "prod" = .ok () := rfl
  have hplain : IsPlain reservedKey :=
    ⟨by decide, List.all_iff_forall_prop.1 (by decide), by decide, checkName_eq_ok_iff.1 hcheck,
      by decide⟩
  have hencoded : CoversUser encodedInKey := fun c hc => by rw [encodedInKey, hc, Bool.true_or]
  have htext : keyText encodedInKey "p@ss" = "p%40ss" := by cbv
  obtain ⟨hread, hdecode, -, hexists⟩ := IsPlain.toUrl_read hplain hencoded
  refine ⟨?_, ?_, ?_⟩
  · rw [← htext]
    exact hread
  · rw [← htext]
    exact hdecode rfl "p@ss" rfl
  · rw [hexists]
    intro hkeys
    exact absurd (hkeys "p@ss" rfl '@' (by decide)) (by decide)

/-- An at sign in a key comes back as it was encoded. -/
theorem reservedKey_not_read :
    toUrl encodedInKey reservedKey = "docql://p%40ss@db.local:1234/prod" ∧
      ofUrl "docql://p%40ss@db.local:1234/prod" =
        .ok { reservedKey with authKey := some "p%40ss" } ∧
      ofUrl "docql://p%40ss@db.local:1234/prod" ≠ .ok reservedKey := by
  have hread : ofUrl "docql://p%40ss@db.local:1234/prod" =
      .ok { reservedKey with authKey := some "p%40ss" } := by cbv
  have hkey : ({ reservedKey with authKey := some "p%40ss" } : ConnectOptions) ≠ reservedKey := by decide
  refine ⟨by cbv, hread, ?_⟩
  rw [hread]
  exact fun h => hkey (Except.ok.inj h)

end DocumentQuery.ConnectOptions
