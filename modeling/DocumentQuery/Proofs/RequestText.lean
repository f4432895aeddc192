import DocumentQuery.Proofs.CanonicalTerm
import DocumentQuery.Proofs.MessageReading
import DocumentQuery.Wire.Request

/-!
# Requests in text

What a client sends is read back by whoever receives it as the very request
that was sent.  A message is read in two passes, once as a document and once by
its tag, and the parts of a request find themselves again in the second pass
because nothing is left out of them but what is empty.
-/

namespace DocumentQuery

-- Powers are those of the core library, whatever else is imported.
attribute [local instance (2000)] instPowNat

namespace Request

/-- The numbers in a request. -/
def numbers : Request → List Number
  | .start term options => term.numbers ++ Term.optionNumbers options
  | _ => []

/-- The terms of the request are canonical, and its options are in the order of
their names. -/
def Canonical : Request → Prop
  | .start term options =>
    term.Canonical ∧ Fields.Sorted options ∧
      ∀ option ∈ options, option.2.Canonical
  | _ => True

theorem isFinite_of_canonical {r : Request} (h : r.Canonical) :
    ∀ n ∈ r.numbers, n.isFinite := by
  cases r with
  | start term options =>
      obtain ⟨hterm, _, hoptions⟩ := h
      rw [numbers, List.forall_mem_append]
      exact ⟨term.isFinite_of_canonical hterm,
        Term.isFinite_of_options options hoptions⟩
  | _ => simp [numbers]

/-- The place of the request's tag among the known ones. -/
def place : Request → Nat
  | .start .. => 0
  | .resume _ => 1
  | .stop => 2

theorem findIdx?_tag (r : Request) :
    tags.findIdx? (· == r.tag) = some r.place := by
  cases r <;> rfl

theorem name_toMembers (r : Request) :
    ∀ member ∈ r.toMembers, member.1 ≠ "token" ∧ member.1 ≠ "type" := by
  cases r with
  | start term options => cases options <;> simp [toMembers]
  | _ => simp [toMembers]

theorem isProper_toMembers (r : Request) :
    ∀ member ∈ r.toMembers, member.2.IsProper := by
  cases r with
  | start term options =>
      have hterm := term.isProper_toJson
      have hoptions : (Json.object (Term.optionsToJson options)).IsProper :=
        Term.membersProper_toJson options
      cases options <;> simp [toMembers, hterm, hoptions]
  | resume continuation => simp [toMembers, Json.ofText, Json.IsProper]
  | stop => simp [toMembers]

theorem isSound_toMembers {r : Request} {depth : Nat}
    (hrestored : ∀ n ∈ r.numbers, n.IsRestored)
    (hdepth : ∀ member ∈ r.toMembers, member.2.height ≤ depth) :
    ∀ member ∈ r.toMembers, member.2.isSound depth := by
  cases r with
  | start term options =>
      rw [numbers, List.forall_mem_append] at hrestored
      rw [toMembers, List.forall_mem_cons] at hdepth ⊢
      have hterm := term.isSound_toJson hrestored.1 hdepth.1
      refine ⟨hterm, fun member hmember => ?_⟩
      have hheight := hdepth.2 member hmember
      split at hmember
      · cases hmember
      · rw [List.mem_singleton] at hmember
        subst hmember
        exact Json.isSound_object hheight fun _ =>
          Term.membersSound_toJson options hrestored.2
  | resume continuation => simp [toMembers, Json.ofText, Json.isSound]
  | stop => simp [toMembers]

/-- A request is found again in its message. -/
theorem ofMessage?_written {r : Request} (hcanonical : r.Canonical)
    (hrestored : ∀ n ∈ r.numbers, n.IsRestored)
    (hdepth : ∀ member ∈ r.toMembers, member.2.height ≤ Json.maxDepth - 1)
    (token : Token) :
    ofMessage? ⟨token, r.place, TaggedMessage.written token r.tag r.toMembers⟩ =
      some r := by
  cases r with
  | start term options =>
      obtain ⟨hterm, hsorted, hoptions⟩ := hcanonical
      rw [numbers, List.forall_mem_append] at hrestored
      rw [toMembers, List.forall_mem_cons] at hdepth
      have htermMember : Json.member? "term" (TaggedMessage.written token
          (start term options).tag (start term options).toMembers) =
          some (some term.toJson) := by
        cases options <;>
          simp [TaggedMessage.written, Json.member?, toMembers]
      have hoptionsMember : Json.member? "options" (TaggedMessage.written token
          (start term options).tag (start term options).toMembers) =
          some (if options.isEmpty then none
            else some (.object (Term.optionsToJson options))) := by
        cases options <;>
          simp [TaggedMessage.written, Json.member?, toMembers]
      -- The second pass counts containers anew, so the bound of the first is more
      -- than enough.
      have hreadTerm := term.ofJson?_toJson .tagged hterm hrestored.1
        (hdepth.1.trans (Nat.pred_le Json.maxDepth))
      have hreadOptions : (if options.isEmpty then none
          else some (Json.object (Term.optionsToJson options))).elim (some [])
            (Term.fieldsOfJson? Json.maxDepth
              (Term.ofJson? .tagged Json.maxDepth)) = some options := by
        cases options with
        | nil => rfl
        | cons option rest =>
            have hheight : Json.membersHeight
                (Term.optionsToJson (option :: rest)) + 1 ≤ Json.maxDepth - 1 :=
              hdepth.2 _ List.mem_cons_self
            have hle : Json.membersHeight
                (Term.optionsToJson (option :: rest)) ≤ Json.maxDepth := by omega
            have hpositive : Json.maxDepth ≠ 0 := by decide
            exact Term.fieldsOfJson?_optionsToJson hsorted hpositive
              (Term.mapM_optionsToJson .tagged _ hoptions hrestored.2 hle)
      simp only [ofMessage?, place, TaggedMessage.required?, htermMember,
        hoptionsMember, Option.bind_eq_bind, Option.bind_some, id_eq, hreadTerm,
        hreadOptions]
      rfl
  | resume continuation =>
      simp [ofMessage?, place, TaggedMessage.required?, TaggedMessage.written,
        Json.member?, toMembers, Json.ofText, Json.asText?]
  | stop => rfl

end Request

namespace Envelope

/-- What a client sends: compiled terms with the options of its session,
continuations and stops, under any token.  The numbers of parameters and the
rows of a batch are words of 64 bits. -/
inductive Sendable : Envelope → Prop where
  | start {token : Token} {e : Expr} {context : CompileContext} {t : Term}
      {settings : Settings} :
      e.Obtainable → e.compile context = .ok t →
      e.parametersBound context < 2 ^ 64 → settings.maxBatchRows < 2 ^ 64 →
      Sendable ⟨token, .start t settings.startOptions⟩
  | resume {token : Token} {continuation : String} :
      Sendable ⟨token, .resume continuation⟩
  | stop {token : Token} : Sendable ⟨token, .stop⟩

theorem Sendable.canonical {m : Envelope} (h : m.Sendable) :
    m.request.Canonical := by
  cases h with
  | @start _ _ _ _ settings he hcompile hwords hrows =>
      exact ⟨he.canonical_compile hcompile hwords, settings.sorted_startOptions,
        Settings.canonical_startOptions hrows⟩
  | _ => trivial

/-! ## Reading a request back -/

/-- A request whose numbers are restored is read back from its document. -/
theorem ofJson?_toJson {m : Envelope} (hcanonical : m.request.Canonical)
    (hrestored : ∀ n ∈ m.request.numbers, n.IsRestored)
    (hdepth : m.toJson.height ≤ Json.maxDepth) : ofJson? m.toJson = some m := by
  have hmembers := TaggedMessage.height_of_mem hdepth
  have hmessage := TaggedMessage.ofJson?_toJson m.token m.request.findIdx?_tag
    m.request.name_toMembers
    (Request.isSound_toMembers hrestored hmembers)
  have hrequest := Request.ofMessage?_written hcanonical hrestored hmembers
    m.token
  rw [ofJson?, toJson, hmessage]
  simp only [Option.bind_eq_bind, Option.bind_some, hrequest]
  rfl

/-- Every request that a client sends is read back from its text, provided that
the text nests no deeper than a reader goes and that each of its numbers is read
from its own numeral. -/
theorem parse?_write_of_sendable {m : Envelope} (h : m.Sendable)
    (hdepth : m.toJson.height ≤ Json.maxDepth)
    (hreader : ∀ n ∈ m.request.numbers, ∀ numeral,
      n.toNumeral? .document = some numeral → numeral.toNumber? = some n) :
    parse? m.write = some m := by
  have hrestored : ∀ n ∈ m.request.numbers, n.IsRestored := by
    intro n hn
    have hfinite := Request.isFinite_of_canonical h.canonical n hn
    obtain ⟨numeral, hnumeral⟩ : ∃ numeral,
        n.toNumeral? .document = some numeral := by
      cases n with
      | finite negative rank => exact ⟨_, rfl⟩
      | _ => cases hfinite
    exact ⟨numeral, hnumeral, hreader n hn numeral hnumeral⟩
  have hproper : m.toJson.IsProper :=
    TaggedMessage.isProper_toJson _ _ m.request.isProper_toMembers
  rw [parse?, write, Json.parse?_write hproper]
  exact ofJson?_toJson h.canonical hrestored hdepth

/-- Settings with a quote, a control character and a letter of two bytes. -/
def quotedSettings : Settings :=
  { defaultDatabase := "\"\x01é", durability := .soft, maxBatchRows := 100 }

/-- A start with nulls, empty parts, numbers and escapes in it. -/
theorem parse?_write_mapTwice :
    ∃ t, Expr.mapTwice.compile {} = .ok t ∧
      let m : Envelope := ⟨7, .start t quotedSettings.startOptions⟩
      m.toJson.height ≤ Json.maxDepth ∧
      (∀ n ∈ m.request.numbers, ∀ numeral,
        n.toNumeral? .document = some numeral → numeral.toNumber? = some n) ∧
      parse? m.write = some m := by
  have hfew : Expr.mapTwice.parametersBound {} < 2 ^ 64 := by decide
  refine ⟨_, rfl, ?_⟩
  intro m
  have hsendable : m.Sendable :=
    .start Expr.mapTwice_obtainable rfl hfew (by decide)
  have hdepth : m.toJson.height ≤ Json.maxDepth := by decide +kernel
  have hall : m.request.numbers.all (fun n =>
      (n.toNumeral? .document).all (fun numeral =>
        decide (numeral.toNumber? = some n))) = true := by decide +kernel
  have hreader : ∀ n ∈ m.request.numbers, ∀ numeral,
      n.toNumeral? .document = some numeral → numeral.toNumber? = some n := by
    intro n hn numeral hnumeral
    have hone := List.all_eq_true.1 hall n hn
    rw [hnumeral] at hone
    exact of_decide_eq_true hone
  exact ⟨hdepth, hreader, parse?_write_of_sendable hsendable hdepth hreader⟩

end Envelope

end DocumentQuery
