import DocumentQuery.Proofs.PercentEncoding
import DocumentQuery.Proofs.UrlAuthority
import Mathlib

/-!
# Paths of URLs

The path of a URL is cut at its slashes, and segments that are dots go up or stay.
What comes of it is settled segment by segment, the last one apart: everything
before the last slash leaves some segments, and the last segment is put behind
them as it is, unless it is a dot.  Dots can be written percent-encoded as well,
but encoding a segment never makes a dot of it.
-/

namespace DocumentQuery.Url

/-! ## Segments -/

theorem not_mem_of_mem_splitOn {cs segment : List Char} (h : segment ∈ cs.splitOn '/') :
    '/' ∉ segment := by
  induction cs generalizing segment with
  | nil =>
      rw [List.splitOn_nil, List.mem_singleton] at h
      simp [h]
  | cons c cs ih =>
      rw [List.splitOn_cons_eq_if_modifyHead] at h
      split at h
      · rcases List.mem_cons.1 h with rfl | h
        · exact List.not_mem_nil
        · exact ih h
      · next hc =>
          cases hsplit : cs.splitOn '/' with
          | nil => exact absurd hsplit (List.splitOn_ne_nil _ _)
          | cons first rest =>
              rw [hsplit] at h ih
              rw [List.modifyHead_cons] at h
              rcases List.mem_cons.1 h with rfl | h
              · have hfirst := ih List.mem_cons_self
                simp only [beq_iff_eq] at hc
                simpa [Ne.symm hc] using hfirst
              · exact ih (List.mem_cons_of_mem _ h)

theorem mem_above {before : List String} {segment : String} (h : segment ∈ above before) :
    segment ∈ before := by
  cases before with
  | nil => exact h
  | cons latest before =>
      rw [above] at h
      split at h
      · exact h
      · exact List.mem_cons_of_mem latest h

/-- A segment with what comes before it, the latest segment first. -/
def resolveSegment (before : List String) (segment : String) : List String :=
  if isDoubleDot segment then above before
  else if isSingleDot segment then before
  else segment :: before

theorem mem_resolveSegment {before : List String} {segment s : String}
    (h : s ∈ resolveSegment before segment) : s ∈ before ∨ s = segment := by
  rw [resolveSegment] at h
  split at h
  · exact .inl (mem_above h)
  · split at h
    · exact .inl h
    · exact (List.mem_cons.1 h).symm

theorem mem_foldl_resolveSegment {before segments : List String} {s : String}
    (h : s ∈ segments.foldl resolveSegment before) : s ∈ before ∨ s ∈ segments := by
  induction segments generalizing before with
  | nil => exact .inl h
  | cons segment segments ih =>
      rcases ih h with hbefore | hsegments
      · rcases mem_resolveSegment hbefore with hold | rfl
        · exact .inl hold
        · exact .inr List.mem_cons_self
      · exact .inr (List.mem_cons_of_mem segment hsegments)

/-- The last segment of a path, with what comes before it. -/
def resolveLast (before : List String) (last : String) : List String :=
  if isDoubleDot last then "" :: above before
  else if isSingleDot last then "" :: before
  else last :: before

theorem resolveSegments_concat (before segments : List String) (last : String) :
    resolveSegments before (segments ++ [last]) =
      (resolveLast (segments.foldl resolveSegment before) last).reverse := by
  -- The last segment stays the last one while those before it are taken away.
  induction segments generalizing before with
  | nil =>
      rw [List.nil_append, resolveSegments, List.foldl_nil, resolveLast]
      split_ifs <;> rfl
  | cons segment segments ih =>
      obtain ⟨next, rest, hrest⟩ : ∃ next rest, segments ++ [last] = next :: rest :=
        List.exists_cons_of_ne_nil (by simp)
      rw [List.foldl_cons, ← ih, List.cons_append, hrest, resolveSegments]
      · rw [resolveSegment]
        split_ifs <;> rfl
      · exact List.cons_ne_nil _ _

/-- The segments of what comes before the last slash of a path. -/
def frontSegments (front : List Char) : List (List Char) :=
  match front with
  | [] => []
  | first :: rest => (if first = '/' then rest else front).splitOn '/'

def encodeSegment (segment : List Char) : String :=
  String.ofList (percentEncode encodedInPath segment)

/-- The segments that what comes before the last slash leaves, the latest first. -/
def segmentsBefore (front : List Char) : List String :=
  ((frontSegments front).map encodeSegment).foldl resolveSegment []

def joinSegments (segments : List String) : String :=
  String.join (segments.map ("/" ++ ·))

def endsPath (c : Char) : Bool := c == '?' || c == '#'

/-- The path with the given last segment, up to a query or fragment. -/
theorem readPath_eq {front last stop : List Char}
    (hfront : ∀ c ∈ front, endsPath c = false) (hlast : ∀ c ∈ last, endsPath c = false)
    (hslash : '/' ∉ last) (hstop : ∀ c ∈ stop.head?, endsPath c = true) :
    readPath (front ++ '/' :: last ++ stop) =
      joinSegments (resolveLast (segmentsBefore front) (encodeSegment last)).reverse := by
  have hpath : ∀ c ∈ front ++ '/' :: last, (!(c == '?' || c == '#')) = true := by
    intro c hc
    rcases List.mem_append.1 hc with hc | hc
    · simpa [endsPath] using hfront c hc
    · rcases List.mem_cons.1 hc with rfl | hc
      · rfl
      · simpa [endsPath] using hlast c hc
  have hnone : stop.takeWhile (fun c => !(c == '?' || c == '#')) = [] := by
    cases stop with
    | nil => rfl
    | cons c rest =>
        have hc : (c == '?' || c == '#') = true := hstop c rfl
        rw [List.takeWhile_cons, hc]
        rfl
  have hsegments : (frontSegments front ++ [last]).map encodeSegment =
      (frontSegments front).map encodeSegment ++ [encodeSegment last] := by simp
  rw [readPath, List.takeWhile_append_of_pos hpath, hnone, List.append_nil]
  cases front with
  | nil =>
      simp only [List.nil_append, if_true]
      rw [List.splitOn_eq_singleton hslash]
      exact congrArg joinSegments (resolveSegments_concat [] [] (encodeSegment last))
  | cons first rest =>
      simp only [List.cons_append]
      -- Whether the path starts with a slash is settled before its last one.
      have hsplit : (if first = '/' then rest ++ '/' :: last
          else first :: (rest ++ '/' :: last)).splitOn '/' =
          frontSegments (first :: rest) ++ [last] := by
        rw [frontSegments, ← List.splitOn_eq_singleton hslash]
        split
        · exact List.splitOn_append_cons_self _ _
        · exact List.splitOn_append_cons_self (first :: rest) _
      rw [hsplit]
      change joinSegments (resolveSegments [] ((frontSegments (first :: rest) ++ [last]).map
        encodeSegment)) = _
      rw [hsegments, resolveSegments_concat, segmentsBefore]

theorem readPath_append {cs : List Char} (h : ∃ c ∈ cs, endsPath c = true) (rest : List Char) :
    readPath (cs ++ rest) = readPath cs := by
  obtain ⟨c, hc, hends⟩ := h
  obtain ⟨front, back, rfl⟩ := List.append_of_mem hc
  have hcut : ∀ rest, (front ++ c :: rest).takeWhile (fun c => !(c == '?' || c == '#')) =
      front.takeWhile fun c => !(c == '?' || c == '#') := by
    intro rest
    apply takeWhile_append_cons
    rw [Bool.not_eq_false']
    exact hends
  rw [List.append_assoc, List.cons_append, readPath, readPath, hcut, hcut]

/-! ## The last segment -/

/-- What stands before a query or fragment. -/
def upToEnd (cs : List Char) : List Char := cs.takeWhile (!endsPath ·)

/-- The last segment of a path that starts with a slash. -/
def lastSegment (path : List Char) : List Char := path.rtakeWhile (· != '/')

theorem slash_not_mem_lastSegment (path : List Char) : '/' ∉ lastSegment path := by
  intro hmem
  have hkept := List.mem_rtakeWhile_imp hmem
  exact absurd hkept (by decide)

theorem exists_before_lastSegment (path : List Char) :
    ∃ before, '/' :: path = before ++ '/' :: lastSegment path := by
  have hpath : path.rdropWhile (· != '/') ++ lastSegment path = path :=
    List.rdropWhile_append_rtakeWhile
  rcases List.eq_nil_or_concat (path.rdropWhile (· != '/')) with hnil | ⟨init, c, hinit⟩
  · rw [hnil, List.nil_append] at hpath
    exact ⟨[], by rw [hpath, List.nil_append]⟩
  · have hne : path.rdropWhile (· != '/') ≠ [] := by simp [hinit]
    have hslash : c = '/' := by
      have hlast := List.rdropWhile_last_not (· != '/') path hne
      simpa [hinit] using hlast
    refine ⟨'/' :: init, ?_⟩
    conv_lhs => rw [← hpath, hinit, hslash]
    simp

/-- A text behind a slash is cut before its last segment and before a query or fragment. -/
theorem exists_lastSegment (cs : List Char) :
    ∃ before stop, '/' :: cs = before ++ '/' :: lastSegment (upToEnd cs) ++ stop ∧
      (∀ c ∈ before, endsPath c = false) ∧ (∀ c ∈ lastSegment (upToEnd cs), endsPath c = false) ∧
      ∀ c ∈ stop.head?, endsPath c = true := by
  have hsplit : upToEnd cs ++ cs.dropWhile (!endsPath ·) = cs := List.takeWhile_append_dropWhile
  obtain ⟨before, hbefore⟩ := exists_before_lastSegment (upToEnd cs)
  have hends : ∀ c ∈ before ++ '/' :: lastSegment (upToEnd cs), endsPath c = false := by
    rw [← hbefore]
    refine List.forall_mem_cons.2 ⟨rfl, fun c hc => ?_⟩
    simpa using List.mem_takeWhile_imp hc
  rw [List.forall_mem_append, List.forall_mem_cons] at hends
  refine ⟨before, cs.dropWhile (!endsPath ·), ?_, hends.1, hends.2.2, fun c hc => ?_⟩
  · rw [← hbefore, List.cons_append, hsplit]
  · have hstop := List.head?_dropWhile_not (!endsPath ·) cs
    rw [hc] at hstop
    simpa using hstop

/-! ## Dots -/

/-- The segments that go up or stay, in lower case. -/
def dots : List (List Char) :=
  [".", "%2e", "..", ".%2e", "%2e.", "%2e%2e"].map String.toList

def IsDot (segment : String) : Prop :=
  isDoubleDot segment = true ∨ isSingleDot segment = true

instance (segment : String) : Decidable (IsDot segment) :=
  inferInstanceAs (Decidable (_ ∨ _))

theorem IsDot.mem_dots {segment : String} (h : IsDot segment) :
    segment.toList.map Char.toLower ∈ dots := by
  have hlower : segment.toLower ∈ [".", "%2e", "..", ".%2e", "%2e.", "%2e%2e"] := by
    simp only [IsDot, isDoubleDot, isSingleDot, List.contains_iff_mem] at h
    simp only [List.mem_cons, List.not_mem_nil, or_false] at h ⊢
    tauto
  have hlist := List.mem_map_of_mem (f := String.toList) hlower
  rwa [String.toLower, String.toList_map] at hlist

theorem resolveLast_of_isDot (before : List String) {last : String} (h : IsDot last) :
    ∃ before', resolveLast before last = "" :: before' ∧ ∀ s ∈ before', s ∈ before := by
  rw [resolveLast]
  split
  · exact ⟨above before, rfl, fun s hs => mem_above hs⟩
  · next hdouble =>
      rw [if_pos (h.resolve_left hdouble)]
      exact ⟨before, rfl, fun s hs => hs⟩

theorem resolveLast_of_not_isDot {before : List String} {last : String} (h : ¬ IsDot last) :
    resolveLast before last = last :: before := by
  rw [IsDot, not_or] at h
  rw [resolveLast, if_neg h.1, if_neg h.2]

theorem toLower_cases (c : Char) :
    c.toLower = c ∨ (65 ≤ c.toNat ∧ c.toNat ≤ 90 ∧ c.toLower.toNat = c.toNat + 32) := by
  by_cases h : c.val ≥ 'A'.val ∧ c.val ≤ 'Z'.val
  · have hbounds : 65 ≤ c.toNat ∧ c.toNat ≤ 90 := h
    have hlower : c.toLower.val = c.val + ('a'.val - 'A'.val) := by
      rw [Char.toLower, dif_pos h]
    refine .inr ⟨hbounds.1, hbounds.2, ?_⟩
    rw [← Char.toNat_val, hlower, UInt32.toNat_add]
    have hgap : ('a'.val - 'A'.val).toNat = 32 := rfl
    rw [hgap, Char.toNat_val]
    omega
  · rw [Char.toLower, dif_neg h]
    exact .inl rfl

theorem eq_of_toLower_eq {c d : Char} (hd : d.toNat < 97) (h : c.toLower = d) : c = d := by
  rcases toLower_cases c with hsame | ⟨hlow, -, hvalue⟩
  · rw [← hsame, h]
  · rw [h] at hvalue
    omega

theorem IsDot.exists_mark {segment : String} (h : IsDot segment) :
    ∃ c ∈ segment.toList, c = '.' ∨ c = '%' := by
  have hmark : ∀ dot ∈ dots, '.' ∈ dot ∨ '%' ∈ dot := by decide
  rcases hmark _ h.mem_dots with hdot | hpercent
  · obtain ⟨c, hc, hlower⟩ := List.mem_map.1 hdot
    exact ⟨c, hc, .inl (eq_of_toLower_eq (by decide) hlower)⟩
  · obtain ⟨c, hc, hlower⟩ := List.mem_map.1 hpercent
    exact ⟨c, hc, .inr (eq_of_toLower_eq (by decide) hlower)⟩

/-- The characters a dot is written with. -/
def dotChars : List Char := ['.', '%', '2', 'e', 'E']

/-- A percent-encoded byte in a dot is that of a dot. -/
theorem byte_of_infix_dot {b : UInt8} {dot : List Char} (hdot : dot ∈ dots)
    (h : (percentByte b).map Char.toLower <:+: dot) : b = 46 := by
  -- There are few enough bytes and dots to try them all.
  have hall : ∀ n : Fin 256, ∀ dot ∈ dots,
      (percentByte (UInt8.ofNat n)).map Char.toLower <:+: dot → UInt8.ofNat n = 46 := by
    decide +kernel
  have hbyte := hall ⟨b.toNat, b.toNat_lt⟩ dot hdot
  rw [UInt8.ofNat_toNat] at hbyte
  exact hbyte h

theorem mem_dotChars_of_toLower {c : Char} {dot : List Char} (hdot : dot ∈ dots)
    (h : c.toLower ∈ dot) : c ∈ dotChars := by
  have hchars : ∀ dot ∈ dots, dot ⊆ ['.', '%', '2', 'e'] := by decide
  have hmem := hchars dot hdot h
  simp only [List.mem_cons, List.not_mem_nil, or_false] at hmem
  rcases hmem with hc | hc | hc | hc
  · rw [eq_of_toLower_eq (by decide) hc]
    decide
  · rw [eq_of_toLower_eq (by decide) hc]
    decide
  · rw [eq_of_toLower_eq (by decide) hc]
    decide
  · rcases toLower_cases c with hsame | ⟨-, -, hvalue⟩
    · rw [← hsame, hc]
      decide
    · have he : 'e'.toNat = c.toNat + 32 := by rw [← hc, hvalue]
      have hupper : c.toNat = 'E'.toNat := by
        change 101 = c.toNat + 32 at he
        change c.toNat = 69
        omega
      rw [Char.toNat_inj.1 hupper]
      decide

theorem mem_dotChars_of_isDot_encodeSegment {segment : List Char}
    (h : IsDot (encodeSegment segment)) {c : Char} (hc : c ∈ segment) : c ∈ dotChars := by
  have hdot := h.mem_dots
  rw [encodeSegment, String.toList_ofList] at hdot
  have hpiece : percentEncodeChar encodedInPath c <:+: percentEncode encodedInPath segment := by
    obtain ⟨front, rest, rfl⟩ := List.append_of_mem hc
    refine ⟨percentEncode encodedInPath front, percentEncode encodedInPath rest, ?_⟩
    simp [percentEncode]
  have hlower := hpiece.map Char.toLower
  by_cases hplain : Unencoded encodedInPath c
  · rw [percentEncodeChar_of_unencoded hplain] at hlower
    exact mem_dotChars_of_toLower hdot (hlower.subset (List.mem_singleton.2 rfl))
  · -- An encoded character cannot be a dot, and only a dot may be encoded.
    obtain ⟨b, rest, hbytes, hb⟩ := exists_utf8EncodeChar c
    rw [percentEncodeChar_of_not_unencoded hplain, hbytes, List.flatMap_cons,
      List.map_append] at hlower
    have hinfix := (List.infix_append [] _ _).trans hlower
    have hb46 : b = 46 := byte_of_infix_dot hdot hinfix
    subst hb46
    rcases hb with ⟨-, hb⟩ | hb
    · have hperiod : c = '.' := Char.toNat_inj.1 hb.symm
      subst hperiod
      exact absurd hplain (by decide)
    · exact absurd hb (by decide)

/-- Encoding a segment neither makes a dot of it nor undoes one. -/
theorem isDot_encodeSegment_iff {segment : List Char} :
    IsDot (encodeSegment segment) ↔ IsDot (String.ofList segment) := by
  have hencoded : ∀ c ∈ dotChars, Unencoded encodedInPath c :=
    List.all_iff_forall_prop.1 (by decide)
  have hsame : (∀ c ∈ segment, c ∈ dotChars) → encodeSegment segment = String.ofList segment := by
    intro hchars
    rw [encodeSegment, percentEncode_eq_self fun c hc => hencoded c (hchars c hc)]
  constructor
  · intro h
    rwa [← hsame fun c hc => mem_dotChars_of_isDot_encodeSegment h hc]
  · intro h
    have hdot := h.mem_dots
    rw [String.toList_ofList] at hdot
    rwa [hsame fun c hc => mem_dotChars_of_toLower hdot (List.mem_map_of_mem hc)]

/-! ## Segments and slashes -/

theorem slash_not_mem_encodeSegment {segment : List Char} (h : '/' ∉ segment) :
    '/' ∉ (encodeSegment segment).toList := by
  rw [encodeSegment, String.toList_ofList]
  intro hmem
  rcases mem_percentEncode hmem with ⟨hmem, -⟩ | hmem | ⟨n, hn, hmem⟩
  · exact h hmem
  · exact absurd hmem (by decide)
  · revert hmem
    interval_cases n <;> decide

theorem slash_not_mem_segmentsBefore {front : List Char} {segment : String}
    (h : segment ∈ segmentsBefore front) : '/' ∉ segment.toList := by
  rcases mem_foldl_resolveSegment h with hnone | hsegment
  · cases hnone
  · obtain ⟨cs, hcs, rfl⟩ := List.mem_map.1 hsegment
    apply slash_not_mem_encodeSegment
    cases front with
    | nil => cases hcs
    | cons first rest => exact not_mem_of_mem_splitOn hcs

theorem toList_joinSegments (segments : List String) :
    (joinSegments segments).toList = segments.flatMap fun segment => '/' :: segment.toList := by
  rw [joinSegments, String.toList_join, List.flatMap_map]
  congr 1
  funext segment
  simp

theorem dropWhile_joinSegments {before : List String} {last : String}
    (hbefore : ∀ s ∈ before, s = "") (hlast : '/' ∉ last.toList) :
    (joinSegments (before ++ [last])).toList.dropWhile (· == '/') = last.toList := by
  rw [toList_joinSegments]
  induction before with
  | nil =>
      simp only [List.nil_append, List.flatMap_singleton]
      cases hchars : last.toList with
      | nil => rfl
      | cons c rest =>
          rw [hchars] at hlast
          have hc : (c == '/') = false := by
            simpa using Ne.symm (List.ne_of_not_mem_cons hlast)
          simp [hc]
  | cons s before ih =>
      obtain rfl : s = "" := hbefore s List.mem_cons_self
      exact ih fun s hs => hbefore s (List.mem_cons_of_mem _ hs)

theorem slash_mem_dropWhile_joinSegments {before : List String} {last : String}
    (hslash : ∀ s ∈ before, '/' ∉ s.toList) (hbefore : ∃ s ∈ before, s ≠ "") :
    '/' ∈ (joinSegments (before ++ [last])).toList.dropWhile (· == '/') := by
  rw [toList_joinSegments]
  induction before with
  | nil =>
      obtain ⟨s, hs, -⟩ := hbefore
      cases hs
  | cons s before ih =>
      by_cases hempty : s = ""
      · subst hempty
        apply ih
        · exact fun s hs => hslash s (List.mem_cons_of_mem _ hs)
        · obtain ⟨s, hs, hne⟩ := hbefore
          exact ⟨s, (List.mem_cons.1 hs).resolve_left hne, hne⟩
      · -- The first character of `s` ends the slashes in front, so the rest stays.
        have hnonempty : s.toList ≠ [] := by simpa using hempty
        obtain ⟨c, rest, hchars⟩ := List.exists_cons_of_ne_nil hnonempty
        have hc : (c == '/') = false := by
          have hs := hslash s List.mem_cons_self
          rw [hchars] at hs
          simpa using Ne.symm (List.ne_of_not_mem_cons hs)
        have hlater : '/' ∈ (before ++ [last]).flatMap fun segment => '/' :: segment.toList := by
          rw [List.flatMap_append, List.mem_append]
          exact .inr (by simp)
        rw [List.cons_append, List.flatMap_cons, hchars]
        simp only [List.cons_append, List.dropWhile_cons, beq_self_eq_true, if_true, hc,
          Bool.false_eq_true, if_false]
        exact List.mem_cons_of_mem c (List.mem_append_right rest hlater)

end DocumentQuery.Url
