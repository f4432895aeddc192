import DocumentQuery.Client.Options
import DocumentQuery.Proofs.UrlAuthority
import DocumentQuery.Proofs.UrlPath

/-!
# The database asked for with an address

An address and a database become one text that is read as a URL, and only what
comes out is checked.  The database that is reached is therefore the last segment
of a path: what follows a question mark or a hash sign is lost, what stands before
a slash may be taken back by dots, and a segment of dots names no database.  Plain
names come through as they are.
-/

namespace DocumentQuery.ConnectOptions

open Url

variable {address database name : String} {o : ConnectOptions}

/-! ## From a URL to options -/

/-- The database of a connection for which none is asked. -/
def unnamed : String := ({} : Settings).defaultDatabase

theorem isPlainName_unnamed : IsPlainName unnamed := by
  have hcheck : checkName .database unnamed = .ok () := rfl
  exact checkName_eq_ok_iff.1 hcheck

theorem not_isPlainName {cause : BuildFault} (h : checkName .database name = .error cause) :
    ¬ IsPlainName name := by
  intro hplain
  rw [checkName_eq_ok_iff.2 hplain] at h
  cases h

theorem databaseOf_eq_ok_iff {path : String} :
    databaseOf path = .ok name ↔
      path.toList.dropWhile (· == '/') = [] ∧ name = unnamed ∨
      IsPlainName name ∧ path.toList.dropWhile (· == '/') = name.toList := by
  rw [databaseOf]
  split
  · next hempty =>
      have hnamed : ¬ (IsPlainName name ∧ [] = name.toList) := by
        rintro ⟨hplain, hlist⟩
        exact hplain.1 (String.toList_eq_nil_iff.1 hlist.symm)
      simp only [hempty, hnamed, or_false, true_and, Except.ok.injEq]
      exact eq_comm
  · next cs hne =>
      have hcs : path.toList.dropWhile (· == '/') ≠ [] := hne
      simp only [hcs, false_and, false_or]
      cases hcheck : checkName .database (String.ofList (path.toList.dropWhile (· == '/'))) with
      | error cause =>
          simp only [Except.mapError, bind, Except.bind, reduceCtorEq, false_iff, not_and]
          intro hplain hlist
          rw [hlist, String.ofList_toList, checkName_eq_ok_iff.2 hplain] at hcheck
          cases hcheck
      | ok checked =>
          have hplain := checkName_eq_ok_iff.1 hcheck
          simp only [Except.mapError, bind, Except.bind, pure, Except.pure, Except.ok.injEq]
          constructor
          · rintro rfl
            exact ⟨hplain, String.toList_ofList.symm⟩
          · rintro ⟨-, hlist⟩
            rw [hlist, String.ofList_toList]

theorem isPlainName_of_databaseOf {path : String} (h : databaseOf path = .ok name) :
    IsPlainName name := by
  rcases databaseOf_eq_ok_iff.1 h with ⟨-, rfl⟩ | ⟨hplain, -⟩
  · exact isPlainName_unnamed
  · exact hplain

/-- The server and the key are those that a URL names. -/
structure Names (url : Url) (o : ConnectOptions) : Prop where
  scheme : url.scheme = ConnectOptions.scheme
  host : url.host = some o.host
  port : o.port = url.port.getD 28015
  authKey : o.authKey = if url.username.isEmpty then none else some url.username

theorem Names.withDatabase {url : Url} (h : Names url o) (database : String) :
    Names url { o with database } :=
  ⟨h.scheme, h.host, h.port, h.authKey⟩

theorem names_withPath {url : Url} {path : String} : Names { url with path } o ↔ Names url o :=
  ⟨fun h => ⟨h.scheme, h.host, h.port, h.authKey⟩, fun h => ⟨h.scheme, h.host, h.port, h.authKey⟩⟩

theorem ofUrl_eq_ok_iff {text : String} :
    ofUrl text = .ok o ↔
      ∃ url, parse text = .ok url ∧ Names url o ∧ databaseOf url.path = .ok o.database := by
  constructor
  · intro h
    cases hparse : parse text with
    | error cause =>
        rw [ofUrl, hparse] at h
        cases h
    | ok url =>
        rw [ofUrl, hparse] at h
        simp only [Except.mapError, bind, Except.bind] at h
        split at h
        · cases h
        · next hscheme =>
            split at h
            · cases h
            · next host hhost =>
                obtain ⟨database, hdatabase, h⟩ := bind_eq_ok_iff.1 h
                obtain rfl := Except.ok.inj h
                exact ⟨url, rfl, ⟨Decidable.not_not.1 hscheme, hhost, rfl, rfl⟩, hdatabase⟩
  · rintro ⟨url, hparse, hnames, hdatabase⟩
    obtain ⟨host, port, authKey, database⟩ := o
    obtain ⟨hscheme, hhost, hport, hkey⟩ := hnames
    simp only at hhost hport hkey hdatabase
    rw [ofUrl, hparse]
    simp only [Except.mapError, bind, Except.bind, hscheme, ne_eq, not_true_eq_false, if_false,
      hhost, hdatabase, hport, hkey]
    rfl

/-! ## Characters of names -/

theorem isNameChar_bounds {c : Char} (h : isNameChar c = true) :
    0x20 < c.toNat ∧ c.toNat < 0x7F := by
  rcases isNameChar_iff.1 h with ⟨hlow, hhigh⟩ | ⟨hlow, hhigh⟩ | ⟨hlow, hhigh⟩ | rfl
  · exact ⟨lt_of_lt_of_le (by decide) hlow, lt_of_le_of_lt hhigh (by decide)⟩
  · exact ⟨lt_of_lt_of_le (by decide) hlow, lt_of_le_of_lt hhigh (by decide)⟩
  · exact ⟨lt_of_lt_of_le (by decide) hlow, lt_of_le_of_lt hhigh (by decide)⟩
  · decide

/-- No character of a name has a meaning in a URL. -/
theorem isNameChar_plain {c : Char} (h : isNameChar c = true) :
    encodedInPath c = false ∧ endsPath c = false ∧ c ≠ '/' ∧ c ≠ '.' ∧ c ≠ '%' :=
  forall_ascii
    (P := fun c => isNameChar c = true →
      encodedInPath c = false ∧ endsPath c = false ∧ c ≠ '/' ∧ c ≠ '.' ∧ c ≠ '%')
    (by decide +kernel) (isNameChar_bounds h).2 h

/-! ## Databases in paths -/

/-- A path names the database of its last segment, if there is nothing before it. -/
theorem databaseOf_joinSegments {before : List String} {last : String}
    (hslash : ∀ s ∈ before, '/' ∉ s.toList) (hlast : '/' ∉ last.toList) :
    databaseOf (joinSegments (before ++ [last])) = .ok name ↔
      (∀ s ∈ before, s = "") ∧
        (last = "" ∧ name = unnamed ∨ IsPlainName name ∧ last = name) := by
  rw [databaseOf_eq_ok_iff]
  by_cases hbefore : ∀ s ∈ before, s = ""
  · rw [dropWhile_joinSegments hbefore hlast, String.toList_eq_nil_iff, String.toList_inj]
    exact (and_iff_right hbefore).symm
  · -- A segment that is not empty leaves a slash behind it, which no name has.
    have hmem : '/' ∈ (joinSegments (before ++ [last])).toList.dropWhile (· == '/') := by
      apply slash_mem_dropWhile_joinSegments hslash
      simpa using hbefore
    have hplain : ¬ (IsPlainName name ∧ '/' ∈ name.toList) := by
      rintro ⟨hplain, hslash⟩
      have hchar := isNameChar_iff.2 (hplain.2 _ hslash)
      exact absurd hchar (by decide)
    constructor
    · rintro (⟨hnil, -⟩ | ⟨hname, hlist⟩)
      · rw [hnil] at hmem
        cases hmem
      · rw [hlist] at hmem
        exact absurd ⟨hname, hmem⟩ hplain
    · rintro ⟨hall, -⟩
      exact absurd hall hbefore

theorem encodeSegment_eq_empty_iff {segment : List Char} :
    encodeSegment segment = "" ↔ segment = [] := by
  rw [encodeSegment, ← String.toList_eq_nil_iff, String.toList_ofList]
  constructor
  · intro hnil
    have hsame : percentEncode encodedInPath segment = segment := by
      apply percentEncode_eq_self_of_percent_not_mem
      rw [hnil]
      exact List.not_mem_nil
    rw [← hsame, hnil]
  · rintro rfl
    rfl

/-- What encoding makes a plain name of was one before. -/
theorem encodeSegment_eq_iff {segment : List Char} (hplain : IsPlainName name) :
    encodeSegment segment = name ↔ segment = name.toList := by
  have hchar : ∀ c ∈ name.toList, isNameChar c = true := fun c hc =>
    isNameChar_iff.2 (hplain.2 c hc)
  constructor
  · rintro rfl
    rw [encodeSegment, String.toList_ofList]
    symm
    apply percentEncode_eq_self_of_percent_not_mem
    intro hpercent
    rw [encodeSegment, String.toList_ofList] at hchar
    exact absurd (hchar _ hpercent) (by decide)
  · rintro rfl
    rw [encodeSegment, percentEncode_eq_self, String.ofList_toList]
    intro c hc
    have hbounds := isNameChar_bounds (hchar c hc)
    exact ⟨hbounds.1.le, hbounds.2, (isNameChar_plain (hchar c hc)).1⟩

/-! ## The database that is reached -/

section Reached

variable {front last stop : List Char}
    (hfront : ∀ c ∈ front, endsPath c = false) (hlast : ∀ c ∈ last, endsPath c = false)
    (hslash : '/' ∉ last) (hstop : ∀ c ∈ stop.head?, endsPath c = true)

include hfront hlast hslash hstop

theorem databaseOf_readPath (hdot : ¬ IsDot (String.ofList last)) :
    databaseOf (readPath (front ++ '/' :: last ++ stop)) = .ok name ↔
      (∀ s ∈ segmentsBefore front, s = "") ∧
        (last = [] ∧ name = unnamed ∨ IsPlainName name ∧ last = name.toList) := by
  have hname : IsPlainName name ∧ encodeSegment last = name ↔
      IsPlainName name ∧ last = name.toList :=
    and_congr_right encodeSegment_eq_iff
  rw [← isDot_encodeSegment_iff] at hdot
  rw [readPath_eq hfront hlast hslash hstop, resolveLast_of_not_isDot hdot, List.reverse_cons,
    databaseOf_joinSegments, encodeSegment_eq_empty_iff, hname]
  · simp only [List.mem_reverse]
  · intro s hs
    exact slash_not_mem_segmentsBefore (List.mem_reverse.1 hs)
  · exact slash_not_mem_encodeSegment hslash

theorem databaseOf_readPath_of_isDot (hdot : IsDot (String.ofList last))
    (h : databaseOf (readPath (front ++ '/' :: last ++ stop)) = .ok name) : name = unnamed := by
  rw [← isDot_encodeSegment_iff] at hdot
  obtain ⟨before, hresolve, hbefore⟩ :=
    resolveLast_of_isDot (segmentsBefore front) hdot
  rw [readPath_eq hfront hlast hslash hstop, hresolve, List.reverse_cons,
    databaseOf_joinSegments] at h
  · rcases h.2 with ⟨-, hunnamed⟩ | ⟨hplain, hempty⟩
    · exact hunnamed
    · exact absurd hempty.symm hplain.1
  · intro s hs
    exact slash_not_mem_segmentsBefore (hbefore s (List.mem_reverse.1 hs))
  · exact List.not_mem_nil

end Reached

/-- The database that is reached when the given one is asked for. -/
def reached (database : String) : String :=
  let last := String.ofList (lastSegment (upToEnd (trimEnd database.toList)))
  if last = "" ∨ IsDot last then unnamed else last

/-- A path that the server's part of an address starts names no other database. -/
theorem eq_reached_of_databaseOf {front : List Char} (hfront : ∀ c ∈ front, endsPath c = false)
    (h : databaseOf (readPath (front ++ '/' :: trimEnd database.toList)) = .ok name) :
    name = reached database := by
  obtain ⟨before, stop, hcut, hbefore, hlast, hstop⟩ := exists_lastSegment (trimEnd database.toList)
  have hslash := slash_not_mem_lastSegment (upToEnd (trimEnd database.toList))
  have hpath : ∀ c ∈ front ++ before, endsPath c = false :=
    List.forall_mem_append.2 ⟨hfront, hbefore⟩
  rw [hcut, ← List.append_assoc, ← List.append_assoc] at h
  rw [reached]
  generalize lastSegment (upToEnd (trimEnd database.toList)) = last at h hlast hslash
  by_cases hdot : IsDot (String.ofList last)
  · rw [if_pos (.inr hdot)]
    exact databaseOf_readPath_of_isDot hpath hlast hslash hstop hdot h
  · rcases ((databaseOf_readPath hpath hlast hslash hstop hdot).1 h).2 with
      ⟨rfl, hname⟩ | ⟨hplain, rfl⟩
    · rw [hname]
      rfl
    · rw [String.ofList_toList] at hdot ⊢
      rw [if_neg (not_or.2 ⟨hplain.1, hdot⟩)]

/-! ## Addresses -/

/-- The server that an address names, and what its authority leaves to the path. -/
def endpoint (address : String) : Except UrlFault (Url × List Char) :=
  readEndpoint scheme .plain
    ((withoutBreaks address.toList).takeWhile (!endsAuthority .plain ·)) false

def addressRest (address : String) : List Char :=
  (withoutBreaks address.toList).dropWhile (!endsAuthority .plain ·)

theorem parse_addressUrl (address database : String) :
    parse (addressUrl address database) = (endpoint address).map fun parts =>
      { parts.1 with
        path := readPath (parts.2 ++ addressRest address ++ '/' :: trimEnd database.toList) } := by
  have htrim : trim (addressUrl address database).toList =
      "docql://".toList ++ (withoutBreaks address.toList ++ '/' :: trimEnd database.toList) := by
    have htext : (addressUrl address database).toList =
        'd' :: ("ocql://".toList ++ address.toList) ++ '/' :: database.toList := by
      simp [addressUrl, scheme]
    rw [htext, trim_append _ _ (by decide) (by decide)]
    simp only [withoutBreaks_append, ← List.cons_append, List.append_assoc]
    rfl
  have hends : (!endsAuthority .plain '/') = false := rfl
  have htail : (addressRest address ++ '/' :: trimEnd database.toList).isEmpty = false := by
    simp
  rw [parse_eq_readAuthority htrim, readAuthority]
  rw [takeWhile_append_cons (p := (!endsAuthority .plain ·)) hends,
    dropWhile_append_cons (p := (!endsAuthority .plain ·)) hends]
  change (readEndpoint _ _ _ (addressRest address ++ _).isEmpty >>= _) = _
  rw [htail]
  change (endpoint address >>= _) = _
  cases endpoint address with
  | error cause => rfl
  | ok parts =>
      simp only [Except.map, List.append_assoc]
      rfl

theorem ofAddress_eq_ok_iff :
    ofAddress address database = .ok o ↔
      ∃ url after, endpoint address = .ok (url, after) ∧ Names url o ∧
        databaseOf (readPath (after ++ addressRest address ++ '/' :: trimEnd database.toList)) =
          .ok o.database := by
  rw [ofAddress, ofUrl_eq_ok_iff, parse_addressUrl]
  cases endpoint address with
  | error cause => simp [Except.map]
  | ok parts =>
      constructor
      · rintro ⟨url, hurl, hnames, hdatabase⟩
        obtain rfl := Except.ok.inj hurl
        exact ⟨parts.1, parts.2, rfl, names_withPath.1 hnames, hdatabase⟩
      · rintro ⟨url, after, hurl, hnames, hdatabase⟩
        obtain rfl := Except.ok.inj hurl
        exact ⟨_, rfl, names_withPath.2 hnames, hdatabase⟩

theorem endsPath_of_mem_front {url : Url} {after : List Char} {c : Char}
    (haddress : ∀ c ∈ address.toList, endsPath c = false)
    (hendpoint : endpoint address = .ok (url, after)) (hc : c ∈ after ++ addressRest address) :
    endsPath c = false := by
  have hkept : c ∈ withoutBreaks address.toList := by
    rcases List.mem_append.1 hc with hafter | hrest
    · exact List.takeWhile_subset _ ((readEndpoint_parts hendpoint).2 c hafter)
    · exact List.dropWhile_subset _ hrest
  exact haddress c (List.mem_filter.1 hkept).1

/-! ## What is asked for and what is reached -/

/-- The database that is asked for, which an empty text leaves open. -/
def asked (database : String) : String := if database = "" then unnamed else database

/-- A text that a URL takes as it is, and of which no dot is made. -/
structure IsVerbatim (database : String) : Prop where
  kept : ∀ c ∈ database.toList, isBreak c = false ∧ endsPath c = false ∧ c ≠ '/'
  last : ∀ c ∈ database.toList.getLast?, 0x20 < c.toNat
  noDot : ¬ IsDot database

theorem isVerbatim_empty : IsVerbatim "" := by
  refine ⟨?_, ?_, ?_⟩
  · intro c hc
    cases hc
  · intro c hc
    cases hc
  · intro hdot
    obtain ⟨c, hc, -⟩ := hdot.exists_mark
    cases hc

theorem isVerbatim_of_isPlainName (h : IsPlainName database) : IsVerbatim database := by
  have hchar : ∀ c ∈ database.toList, isNameChar c = true := fun c hc =>
    isNameChar_iff.2 (h.2 c hc)
  refine ⟨?_, ?_, ?_⟩
  · intro c hc
    have hplain := isNameChar_plain (hchar c hc)
    exact ⟨isBreak_eq_false (isNameChar_bounds (hchar c hc)).1, hplain.2.1, hplain.2.2.1⟩
  · intro c hc
    exact (isNameChar_bounds (hchar c (List.mem_of_getLast? hc))).1
  · intro hdot
    obtain ⟨c, hc, hmark⟩ := hdot.exists_mark
    have hplain := isNameChar_plain (hchar c hc)
    rcases hmark with rfl | rfl
    · exact hplain.2.2.2.1 rfl
    · exact hplain.2.2.2.2 rfl

namespace IsVerbatim

variable (h : IsVerbatim database)

include h

theorem trimEnd_eq : trimEnd database.toList = database.toList :=
  trimEnd_eq_self (fun c hc => (h.kept c hc).1) h.last

theorem reached_eq : reached database = asked database := by
  have hpath : upToEnd database.toList = database.toList := by
    apply List.takeWhile_eq_self_iff.2
    intro c hc
    rw [(h.kept c hc).2.1]
    rfl
  have hsegment : lastSegment database.toList = database.toList := by
    apply List.rtakeWhile_eq_self_iff.2
    intro c hc
    exact bne_iff_ne.2 (h.kept c hc).2.2
  simp only [reached, h.trimEnd_eq, hpath, hsegment, String.ofList_toList, h.noDot, or_false]
  rfl

theorem databaseOf_readPath {front : List Char} (hfront : ∀ c ∈ front, endsPath c = false) :
    databaseOf (readPath (front ++ '/' :: trimEnd database.toList)) = .ok name ↔
      (∀ s ∈ segmentsBefore front, s = "") ∧
        (database = "" ∨ IsPlainName database) ∧ name = asked database := by
  have hends : ∀ c ∈ database.toList, endsPath c = false := fun c hc => (h.kept c hc).2.1
  have hslash : '/' ∉ database.toList := fun hmem => (h.kept _ hmem).2.2 rfl
  have hdot : ¬ IsDot (String.ofList database.toList) := by
    rw [String.ofList_toList]
    exact h.noDot
  have hstop : ∀ c ∈ ([] : List Char).head?, endsPath c = true := fun c hc => by cases hc
  have hpath : databaseOf (readPath (front ++ '/' :: database.toList ++ [])) = .ok name ↔ _ :=
    ConnectOptions.databaseOf_readPath hfront hends hslash hstop hdot
  rw [List.append_nil] at hpath
  rw [h.trimEnd_eq, hpath]
  apply and_congr_right
  intro _
  rw [String.toList_eq_nil_iff, String.toList_inj, asked]
  constructor
  · rintro (⟨hempty, rfl⟩ | ⟨hplain, rfl⟩)
    · exact ⟨.inl hempty, (if_pos hempty).symm⟩
    · exact ⟨.inr hplain, (if_neg hplain.1).symm⟩
  · rintro ⟨hempty | hplain, rfl⟩
    · exact .inl ⟨hempty, if_pos hempty⟩
    · rw [if_neg hplain.1]
      exact .inr ⟨hplain, rfl⟩

end IsVerbatim

/-! ## Addresses that reach a database -/

theorem isPlainName_of_ofAddress (h : ofAddress address database = .ok o) :
    IsPlainName o.database := by
  obtain ⟨url, after, -, -, hdatabase⟩ := ofAddress_eq_ok_iff.1 h
  exact isPlainName_of_databaseOf hdatabase

theorem reached_of_ofAddress (haddress : ∀ c ∈ address.toList, endsPath c = false)
    (h : ofAddress address database = .ok o) : o.database = reached database := by
  obtain ⟨url, after, hendpoint, -, hdatabase⟩ := ofAddress_eq_ok_iff.1 h
  exact eq_reached_of_databaseOf (fun c => endsPath_of_mem_front haddress hendpoint) hdatabase

theorem IsVerbatim.ofAddress_iff (h : IsVerbatim database)
    (haddress : ∀ c ∈ address.toList, endsPath c = false) :
    ofAddress address database = .ok o ↔
      (database = "" ∨ IsPlainName database) ∧
        ∃ base, ofAddress address "" = .ok base ∧ o = { base with database := asked database } := by
  constructor
  · intro hok
    obtain ⟨url, after, hendpoint, hnames, hdatabase⟩ := ofAddress_eq_ok_iff.1 hok
    have hfront := fun c => endsPath_of_mem_front (c := c) haddress hendpoint
    obtain ⟨hbefore, hasked, hname⟩ := (h.databaseOf_readPath hfront).1 hdatabase
    -- What stands before the last segment does not depend on the database.
    refine ⟨hasked, { o with database := unnamed }, ?_, ?_⟩
    · apply ofAddress_eq_ok_iff.2
      refine ⟨url, after, hendpoint, hnames.withDatabase unnamed, ?_⟩
      exact (isVerbatim_empty.databaseOf_readPath hfront).2 ⟨hbefore, .inl rfl, rfl⟩
    · rw [← hname]
  · rintro ⟨hasked, base, hbase, rfl⟩
    obtain ⟨url, after, hendpoint, hnames, hdatabase⟩ := ofAddress_eq_ok_iff.1 hbase
    have hfront := fun c => endsPath_of_mem_front (c := c) haddress hendpoint
    obtain ⟨hbefore, -, -⟩ := (isVerbatim_empty.databaseOf_readPath hfront).1 hdatabase
    apply ofAddress_eq_ok_iff.2
    refine ⟨url, after, hendpoint, hnames.withDatabase _, ?_⟩
    exact (h.databaseOf_readPath hfront).2 ⟨hbefore, hasked, rfl⟩

theorem ofAddress_of_endsPath {database' : String}
    (haddress : ∃ c ∈ address.toList, endsPath c = true)
    (h : ofAddress address database = .ok o) : ofAddress address database' = .ok o := by
  obtain ⟨url, after, hendpoint, hnames, hdatabase⟩ := ofAddress_eq_ok_iff.1 h
  -- The mark ends the authority at the latest, so it stands in what follows it.
  have hmark : ∃ c ∈ after ++ addressRest address, endsPath c = true := by
    obtain ⟨c, hc, hends⟩ := haddress
    have hmarks : c = '?' ∨ c = '#' := by simpa [endsPath] using hends
    have hkinds : isBreak c = false ∧ endsAuthority .plain c = true := by
      rcases hmarks with rfl | rfl <;> exact ⟨rfl, rfl⟩
    have hkept : c ∈ withoutBreaks address.toList :=
      List.mem_filter.2 ⟨hc, by rw [hkinds.1]; rfl⟩
    have hsplit := List.takeWhile_append_dropWhile (p := (!endsAuthority .plain ·))
      (l := withoutBreaks address.toList)
    rw [← hsplit, List.mem_append] at hkept
    refine ⟨c, List.mem_append_right after (hkept.resolve_left fun hauthority => ?_), hends⟩
    have hnone := List.mem_takeWhile_imp hauthority
    rw [hkinds.2] at hnone
    cases hnone
  rw [readPath_append hmark] at hdatabase
  exact ofAddress_eq_ok_iff.2
    ⟨url, after, hendpoint, hnames, by rw [readPath_append hmark]; exact hdatabase⟩

/-- Which database an address and a database reach.  Only what comes out of the two
together is checked, so another database than the one asked for can be reached, but
not where a plain name is asked for and the address has no query or fragment. -/
theorem ofAddress_database (address : String) :
    (∀ database o, ofAddress address database = .ok o → IsPlainName o.database) ∧
    ((∀ c ∈ address.toList, endsPath c = false) →
      (∀ database, database = "" ∨ IsPlainName database → ∀ o,
        ofAddress address database = .ok o ↔
          ∃ base, ofAddress address "" = .ok base ∧
            o = { base with database := asked database }) ∧
      (∀ database, IsVerbatim database → database ≠ "" → ¬ IsPlainName database → ∀ o,
        ofAddress address database ≠ .ok o) ∧
      ∀ database o, ofAddress address database = .ok o → o.database = reached database) ∧
    ((∃ c ∈ address.toList, endsPath c = true) →
      ∀ database database' o, ofAddress address database = .ok o →
        ofAddress address database' = .ok o) := by
  refine ⟨fun database o => isPlainName_of_ofAddress, fun haddress => ⟨?_, ?_, ?_⟩,
    fun haddress database database' o => ofAddress_of_endsPath haddress⟩
  · intro database hasked o
    have hverbatim : IsVerbatim database := by
      rcases hasked with rfl | hplain
      · exact isVerbatim_empty
      · exact isVerbatim_of_isPlainName hplain
    rw [hverbatim.ofAddress_iff haddress, and_iff_right hasked]
  · intro database hverbatim hne hplain o hok
    rcases ((hverbatim.ofAddress_iff haddress).1 hok).1 with hempty | hname
    · exact hne hempty
    · exact hplain hname
  · intro database o
    exact reached_of_ofAddress haddress

theorem ofAddress_database_localhost :
    ofAddress "localhost" "prod" = .ok { host := "localhost", database := "prod" } ∧
      (∀ o, ofAddress "localhost" "bad-name" ≠ .ok o) ∧
      ofAddress "localhost/prod?" "app" = .ok { host := "localhost", database := "prod" } := by
  have hplain : checkName .database "prod" = .ok () := rfl
  have hinvalid : checkName .database "bad-name" = .error (.invalidName .database "bad-name") :=
    rfl
  have hlast : ∀ c ∈ "bad-name".toList.getLast?, 0x20 < c.toNat := by
    rintro c ⟨⟩
    decide
  have hverbatim : IsVerbatim "bad-name" :=
    ⟨List.all_iff_forall_prop.1 (by decide), hlast, by decide +kernel⟩
  have haddress := (ofAddress_database "localhost").2.1 (List.all_iff_forall_prop.1 (by decide))
  refine ⟨?_, ?_, ?_⟩
  · apply (haddress.1 "prod" (.inr (checkName_eq_ok_iff.1 hplain)) _).2
    exact ⟨{ host := "localhost" }, by cbv, rfl⟩
  · exact haddress.2.1 "bad-name" hverbatim (by decide) (not_isPlainName hinvalid)
  · apply (ofAddress_database "localhost/prod?").2.2 ⟨'?', by decide, rfl⟩ ""
    cbv

/-- Dots take back what stands before them, so a text that is no name is not refused. -/
theorem ofAddress_dots_reach_other :
    ofAddress "localhost" "a/../prod" = .ok { host := "localhost", database := "prod" } ∧
      asked "a/../prod" ≠ "prod" ∧ ¬ IsPlainName "a/../prod" := by
  have hinvalid : checkName .database "a/../prod" =
      .error (.invalidName .database "a/../prod") :=
    rfl
  exact ⟨by cbv, by decide, not_isPlainName hinvalid⟩

end DocumentQuery.ConnectOptions
