import DocumentQuery.Proofs.NumeralText
import DocumentQuery.Proofs.PercentEncoding
import DocumentQuery.Url.Reader
import Mathlib.Data.List.DropRight
import Mathlib.Tactic

/-!
# What stands before the path of a URL

A URL loses the blanks around it, and tabs and line breaks wherever they are,
before anything is looked for in it.  What a reader finds in the authority it
leaves, or hands on to the path unread.
-/

namespace DocumentQuery.Url

/-! ## Cutting at a character -/

section Cut

variable {p : Char → Bool} {c : Char} (hc : p c = false) (cs rest : List Char)

include hc

theorem takeWhile_append_cons : (cs ++ c :: rest).takeWhile p = cs.takeWhile p := by
  induction cs with
  | nil => simp [hc]
  | cons d cs ih => rw [List.cons_append, List.takeWhile_cons, List.takeWhile_cons, ih]

theorem dropWhile_append_cons : (cs ++ c :: rest).dropWhile p = cs.dropWhile p ++ c :: rest := by
  induction cs with
  | nil => simp [hc]
  | cons d cs ih =>
      rw [List.cons_append, List.dropWhile_cons, List.dropWhile_cons, ih]
      split <;> rfl

end Cut

/-! ## Blanks -/

/-- Tabs and line breaks, which do not count in a URL. -/
def isBreak (c : Char) : Bool := c == '\t' || c == '\n' || c == '\r'

def withoutBreaks (cs : List Char) : List Char := cs.filter (!isBreak ·)

/-- The end of a URL without the blanks after it and without tabs and line breaks. -/
def trimEnd (cs : List Char) : List Char :=
  withoutBreaks (cs.rdropWhile fun c => decide (c.toNat ≤ 0x20))

theorem withoutBreaks_eq_self {cs : List Char} (h : ∀ c ∈ cs, isBreak c = false) :
    withoutBreaks cs = cs := by
  apply List.filter_eq_self.2
  intro c hc
  rw [h c hc]
  rfl

theorem withoutBreaks_append (front back : List Char) :
    withoutBreaks (front ++ back) = withoutBreaks front ++ withoutBreaks back :=
  List.filter_append ..

theorem isBreak_eq_false {c : Char} (h : 0x20 < c.toNat) : isBreak c = false := by
  simp only [isBreak, Bool.or_eq_false_iff, beq_eq_false_iff_ne]
  refine ⟨⟨?_, ?_⟩, ?_⟩ <;>
    · rintro rfl
      exact absurd h (by decide)

theorem trimEnd_eq_self {cs : List Char} (hbreak : ∀ c ∈ cs, isBreak c = false)
    (hlast : ∀ c ∈ cs.getLast?, 0x20 < c.toNat) : trimEnd cs = cs := by
  have hend : cs.rdropWhile (fun c => decide (c.toNat ≤ 0x20)) = cs := by
    rw [List.rdropWhile_eq_self_iff]
    intro hne
    have hblank := hlast _ (List.getLast?_eq_some_getLast hne)
    simpa using hblank
  rw [trimEnd, hend, withoutBreaks_eq_self hbreak]

/-- The blanks at the end of a URL come after its last character that is none. -/
theorem trim_append {first last : Char} (front back : List Char)
    (hfirst : 0x20 < first.toNat) (hlast : 0x20 < last.toNat) :
    trim (first :: front ++ last :: back) =
      withoutBreaks (first :: front ++ [last]) ++ trimEnd back := by
  have hstart : (first :: front ++ last :: back).dropWhile
      (fun c => decide (c.toNat ≤ 0x20)) = first :: front ++ last :: back := by
    rw [List.cons_append, List.dropWhile_cons_of_neg]
    simpa using hfirst
  have hreverse : (first :: front ++ last :: back).reverse =
      back.reverse ++ last :: (first :: front).reverse := by simp
  have hkept : (last :: (first :: front).reverse).dropWhile
      (fun c => decide (c.toNat ≤ 0x20)) = last :: (first :: front).reverse := by
    rw [List.dropWhile_cons_of_neg]
    simpa using hlast
  -- From the end, blanks are dropped from `back` only, since `last` is none.
  have hend : (back.reverse ++ last :: (first :: front).reverse).dropWhile
      (fun c => decide (c.toNat ≤ 0x20)) =
      back.reverse.dropWhile (fun c => decide (c.toNat ≤ 0x20)) ++
        last :: (first :: front).reverse := by
    rw [List.dropWhile_append, hkept]
    split
    · next hempty => rw [List.isEmpty_iff.1 hempty, List.nil_append]
    · rfl
  rw [trim, hstart, hreverse, hend]
  change withoutBreaks _ = _
  rw [List.reverse_append, withoutBreaks_append, trimEnd]
  congr 2
  simp

/-! ## The scheme -/

theorem parse_eq_readAuthority {text : String} {cs : List Char}
    (h : trim text.toList = "docql://".toList ++ cs) :
    parse text = readAuthority "docql" .plain cs := by
  have hscheme : splitScheme ("docql://".toList ++ cs) = some ("docql", '/' :: '/' :: cs) := rfl
  rw [parse, h, hscheme]
  rfl

/-! ## The authority -/

theorem bind_eq_ok_iff {ε α β : Type} {x : Except ε α} {f : α → Except ε β} {b : β} :
    (x >>= f) = .ok b ↔ ∃ a, x = .ok a ∧ f a = .ok b := by
  cases x with
  | error cause => simp [bind, Except.bind]
  | ok a => simp [bind, Except.bind]

theorem mem_of_mem_splitHost {bracketed : Bool} {cs : List Char} {c : Char}
    (h : c ∈ (splitHost bracketed cs).2) : c ∈ cs := by
  induction cs generalizing bracketed with
  | nil => exact h
  | cons d rest ih =>
      rw [splitHost] at h
      split at h
      · exact h
      · exact List.mem_cons_of_mem d (ih h)

theorem mem_of_readPort {port port' : Option Nat} {cs rest : List Char} {c : Char}
    (h : readPort port cs = .ok (port', rest)) (hc : c ∈ rest) : c ∈ cs := by
  induction cs generalizing port with
  | nil =>
      obtain ⟨-, rfl⟩ := Prod.mk.inj (Except.ok.inj h)
      exact hc
  | cons d cs ih =>
      simp only [readPort] at h
      split at h
      · split at h
        · cases h
        · exact List.mem_cons_of_mem d (ih h)
      · split at h
        · obtain ⟨-, rfl⟩ := Prod.mk.inj (Except.ok.inj h)
          exact hc
        · cases h

theorem mem_of_splitUser {authority user hostAndPort : List Char} {c : Char}
    (h : splitUser authority = some (user, hostAndPort)) (hc : c ∈ hostAndPort) :
    c ∈ authority := by
  simp only [splitUser] at h
  split at h
  · cases h
  · obtain ⟨-, rfl⟩ := Prod.mk.inj (Option.some.inj h)
    rw [List.mem_reverse] at hc
    exact List.mem_reverse.1 ((List.takeWhile_subset _) hc)

/-- The user of an authority is percent-encoded, and what is left to the path stands in
the authority. -/
theorem readEndpoint_parts {scheme : String} {kind : SchemeKind} {authority after : List Char}
    {alone : Bool} {url : Url} (h : readEndpoint scheme kind authority alone = .ok (url, after)) :
    (∃ name, url.username = String.ofList (percentEncode encodedInUser name)) ∧
      ∀ c ∈ after, c ∈ authority := by
  -- What is left comes from the port, which comes from the host, which comes from here.
  have hsplit : ∀ c ∈ ((splitUser authority).getD ([], authority)).2, c ∈ authority := by
    intro c hc
    cases hparts : splitUser authority with
    | none => rwa [hparts] at hc
    | some parts =>
        rw [hparts] at hc
        exact mem_of_splitUser hparts hc
  simp only [readEndpoint] at h
  split at h
  · cases h
  · obtain ⟨host, -, h⟩ := bind_eq_ok_iff.1 h
    split at h
    · cases h
    · obtain ⟨⟨port, afterPort⟩, hport, h⟩ := bind_eq_ok_iff.1 h
      split at h
      · cases h
      · obtain ⟨rfl, rfl⟩ := Prod.mk.inj (Except.ok.inj h)
        refine ⟨⟨_, rfl⟩, fun c hc => ?_⟩
        have hafter := mem_of_readPort hport hc
        exact hsplit c (mem_of_mem_splitHost (List.mem_of_mem_drop hafter))

theorem readAuthority_username {scheme : String} {kind : SchemeKind} {cs : List Char} {url : Url}
    (h : readAuthority scheme kind cs = .ok url) :
    ∃ name, url.username = String.ofList (percentEncode encodedInUser name) := by
  obtain ⟨⟨endpoint, after⟩, hendpoint, hurl⟩ := bind_eq_ok_iff.1 h
  obtain rfl := Except.ok.inj hurl
  exact (readEndpoint_parts hendpoint).1

theorem parse_username {text : String} {url : Url} (h : parse text = .ok url) :
    ∃ name, url.username = String.ofList (percentEncode encodedInUser name) := by
  -- A URL without an authority has no user, which is the empty text encoded.
  have hnone : ∃ name, "" = String.ofList (percentEncode encodedInUser name) := ⟨[], rfl⟩
  rw [parse] at h
  split at h
  · cases h
  · split at h
    · exact readAuthority_username h
    · split at h
      · split at h
        · obtain ⟨host, -, hurl⟩ := bind_eq_ok_iff.1 h
          obtain rfl := Except.ok.inj hurl
          exact hnone
        · obtain rfl := Except.ok.inj h
          exact hnone
      · obtain rfl := Except.ok.inj h
        exact hnone
    · split at h
      · exact readAuthority_username h
      · obtain rfl := Except.ok.inj h
        exact hnone

/-! ## An authority that is written out -/

section Written

variable {user host server : List Char}

theorem splitUser_append (h : '@' ∉ server) :
    splitUser (user ++ '@' :: server) = some (user, server) := by
  have hserver : ∀ c ∈ server.reverse, (c != '@') = true := by
    intro c hc
    rw [bne_iff_ne]
    rintro rfl
    exact h (List.mem_reverse.1 hc)
  have hreverse : (user ++ '@' :: server).reverse = server.reverse ++ '@' :: user.reverse := by
    simp
  simp only [splitUser, hreverse]
  rw [dropWhile_append_cons (p := (· != '@')) rfl, takeWhile_append_cons (p := (· != '@')) rfl,
    List.dropWhile_eq_nil_iff.2 hserver, List.takeWhile_eq_self_iff.2 hserver]
  simp

theorem splitUser_eq_none (h : '@' ∉ server) : splitUser server = none := by
  have hserver : ∀ c ∈ server.reverse, (c != '@') = true := by
    intro c hc
    rw [bne_iff_ne]
    rintro rfl
    exact h (List.mem_reverse.1 hc)
  simp only [splitUser]
  rw [List.dropWhile_eq_nil_iff.2 hserver]

theorem splitHost_append (h : ∀ c ∈ host, c ≠ ':' ∧ c ≠ '[') (rest : List Char) :
    splitHost false (host ++ ':' :: rest) = (host, ':' :: rest) := by
  induction host with
  | nil => rfl
  | cons c host ih =>
      obtain ⟨hcolon, hbracket⟩ := h c List.mem_cons_self
      have hrest := ih fun d hd => h d (List.mem_cons_of_mem c hd)
      rw [List.cons_append, splitHost]
      simp only [beq_eq_false_iff_ne.2 hcolon, beq_eq_false_iff_ne.2 hbracket, Bool.false_and,
        Bool.false_eq_true, if_false, ite_self, hrest]

theorem le_digitsValue (start : ℕ) (digits : List (Fin 10)) :
    start ≤ digitsValue start digits := by
  induction digits generalizing start with
  | nil => exact le_refl start
  | cons d digits ih => exact le_trans (by omega) (ih (10 * start + d.val))

theorem readPort_digits {digits : List (Fin 10)} (hne : digits ≠ []) {port : Option ℕ}
    (h : digitsValue (port.getD 0) digits ≤ 65535) :
    readPort port (digits.map digitChar) = .ok (some (digitsValue (port.getD 0) digits), []) := by
  induction digits generalizing port with
  | nil => exact absurd rfl hne
  | cons d digits ih =>
      have hvalue : digitsValue (port.getD 0) (d :: digits) =
          digitsValue (10 * port.getD 0 + d.val) digits := rfl
      rw [hvalue] at h ⊢
      -- The value only grows, so it is no smaller in the end than here.
      have hle : ¬ 65535 < 10 * port.getD 0 + d.val :=
        Nat.not_lt.2 (le_trans (le_digitsValue _ digits) h)
      simp only [List.map_cons, readPort, digitValue?_digitChar, if_neg hle]
      by_cases hlast : digits = []
      · subst hlast
        rfl
      · have hrest := @ih hlast (some (10 * port.getD 0 + d.val)) h
        exact hrest

theorem readPort_toDigits {port : ℕ} (h : port ≤ 65535) :
    readPort none (Nat.toDigits 10 port) = .ok (some port, []) := by
  obtain ⟨first, rest, hdigits, hvalue, -⟩ := exists_digits port
  have hport : digitsValue ((none : Option ℕ).getD 0) (first :: rest) = port := hvalue
  rw [hdigits, readPort_digits (List.cons_ne_nil first rest) (hport.symm ▸ h), hport]

/-- A character of a host that is no address. -/
def IsHostChar (c : Char) : Prop := forbiddenInHost c = false ∧ Unencoded (fun _ => false) c

theorem readHost_eq (hne : host ≠ []) (h : ∀ c ∈ host, IsHostChar c) :
    readHost .plain host = .ok (some (String.ofList host)) := by
  have hforbidden : host.any forbiddenInHost = false := by
    rw [List.any_eq_false]
    intro c hc
    rw [(h c hc).1]
    exact Bool.false_ne_true
  rw [readHost.eq_def]
  split
  · exact absurd rfl hne
  · next inner => exact absurd (h '[' List.mem_cons_self).1 (by decide)
  · rw [hforbidden, percentEncode_eq_self fun c hc => (h c hc).2]
    rfl

theorem readEndpoint_written {authority : List Char} {port : ℕ}
    (hsplit : (splitUser authority).getD ([], authority) =
      (user, host ++ ':' :: Nat.toDigits 10 port))
    (hauthority : authority ≠ ['@']) (huser : ∀ c ∈ user, Unencoded encodedInUser c)
    (hne : host ≠ []) (hhost : ∀ c ∈ host, IsHostChar c) (hport : port ≤ 65535)
    (scheme : String) (alone : Bool) :
    readEndpoint scheme .plain authority alone =
      .ok ({ scheme, username := String.ofList user, host := some (String.ofList host),
             port := some port, path := "" }, []) := by
  have hname : user.takeWhile (· != ':') = user := by
    apply List.takeWhile_eq_self_iff.2
    intro c hc
    rw [bne_iff_ne]
    rintro rfl
    exact absurd (huser ':' hc) (by decide)
  have hcolon : ∀ c ∈ host, c ≠ ':' ∧ c ≠ '[' := by
    intro c hc
    constructor
    · rintro rfl
      exact absurd (hhost ':' hc).1 (by decide)
    · rintro rfl
      exact absurd (hhost '[' hc).1 (by decide)
  simp only [readEndpoint, hsplit, hname, splitHost_append hcolon, hauthority, false_and, if_false,
    readHost_eq hne hhost, bind, Except.bind, List.drop_succ_cons, List.drop_zero,
    readPort_toDigits hport, Option.isNone_some, Bool.false_eq_true,
    percentEncode_eq_self huser]
  rfl

end Written

end DocumentQuery.Url
