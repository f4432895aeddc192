import DocumentQuery.Proofs.CompileFailure
import DocumentQuery.Proofs.JsonText
import DocumentQuery.Term.Document

/-!
# Reading back what was written

A term leaves out what is empty, and a reader that finds nothing takes it to be
empty.  So a term is read back from its document as long as it is in the form
that compiling gives it: options and fields in the order of their names, null
as the absence of a value, and no number without a numeral.  A reader goes only
so deep into a document, which therefore has a height.
-/

namespace DocumentQuery

/-! ## Heights -/

namespace Json

mutual

/-- How many containers stand inside each other. -/
def height : Json → Nat
  | .array items => itemsHeight items + 1
  | .object members => membersHeight members + 1
  | _ => 0

def itemsHeight : List Json → Nat
  | [] => 0
  | item :: rest => max (height item) (itemsHeight rest)

def membersHeight : List (Option String × Json) → Nat
  | [] => 0
  | (_, value) :: rest => max (height value) (membersHeight rest)

end

theorem isSound_array {items : List Json} {depth : Nat}
    (hdepth : itemsHeight items + 1 ≤ depth)
    (hitems : ∀ inner, itemsHeight items ≤ inner →
      ∀ item ∈ items, item.isSound inner) :
    (array items).isSound depth := by
  obtain _ | inner := depth
  · exact absurd hdepth (Nat.not_succ_le_zero _)
  · rw [isSound, List.all_eq_true]
    exact hitems inner (Nat.le_of_succ_le_succ hdepth)

theorem isSound_object {members : List (Option String × Json)} {depth : Nat}
    (hdepth : membersHeight members + 1 ≤ depth)
    (hmembers : ∀ inner, membersHeight members ≤ inner →
      ∀ member ∈ members, member.1.isSome && member.2.isSound inner) :
    (object members).isSound depth := by
  obtain _ | inner := depth
  · exact absurd hdepth (Nat.not_succ_le_zero _)
  · rw [isSound, List.all_eq_true]
    exact hmembers inner (Nat.le_of_succ_le_succ hdepth)

theorem isProper_ofBinary {p : Precision} (layout : Layout) (n : Binary p) :
    (ofBinary layout n).IsProper := by
  rw [ofBinary]
  split
  · next hnumeral => exact Binary.isProper_of_toNumeral? hnumeral
  · trivial

end Json

/-! ## Fields in order -/

namespace Fields

variable {α : Type} {fields : Fields α}

theorem insert_last {name : String} (hlast : ∀ pair ∈ fields, pair.1 < name)
    (value : α) : insert name value fields = fields ++ [(name, value)] := by
  induction fields with
  | nil => rfl
  | cons pair rest ih =>
      obtain ⟨hlt, hrest⟩ := List.forall_mem_cons.1 hlast
      have hne : name ≠ pair.1 := fun heq => String.lt_irrefl name (heq ▸ hlt)
      rw [insert, if_neg (String.lt_asymm hlt), if_neg hne, ih hrest]
      rfl

/-- Fields in order are not moved. -/
theorem Sorted.ofList_eq (h : Sorted fields) : ofList fields = fields := by
  suffices ∀ done : Fields α, Sorted (done ++ fields) →
      fields.foldl (fun fields field => Fields.insert field.1 field.2 fields)
        done = done ++ fields from this [] h
  clear h
  induction fields with
  | nil => exact fun done _ => (List.append_nil done).symm
  | cons pair rest ih =>
      intro done h
      obtain ⟨name, value⟩ := pair
      have hlast : ∀ earlier ∈ done, earlier.1 < name := fun earlier hmem =>
        (List.pairwise_append.1 h).2.2 earlier hmem _ List.mem_cons_self
      rw [List.append_cons] at h ⊢
      rw [List.foldl_cons]
      dsimp only
      rw [insert_last hlast, ih _ h]

end Fields

/-! ## Datums -/

/-- The numeral of a document that the number is written as is read as the
number. -/
def Binary.IsRestored (n : Number) : Prop :=
  ∃ numeral, n.toNumeral? .document = some numeral ∧ numeral.toNumber? = some n

theorem Binary.isRestored_of_isFinite {n : Number} (hfinite : n.isFinite)
    (hreader : ∀ numeral, n.toNumeral? .document = some numeral →
      numeral.toNumber? = some n) : n.IsRestored := by
  cases n with
  | finite negative rank => exact ⟨_, rfl, hreader _ rfl⟩
  | _ => cases hfinite

namespace Datum

theorem toJson_ne_null {d : Datum} (hnull : d ≠ .null)
    (hrestored : ∀ n ∈ d.numbers, n.IsRestored) : d.toJson ≠ .null := by
  cases d with
  | null => exact (hnull rfl).elim
  | number n =>
      obtain ⟨numeral, hnumeral, _⟩ := hrestored n List.mem_cons_self
      rw [toJson, Json.ofBinary, hnumeral]
      exact fun heq => Json.noConfusion heq
  | _ => exact fun heq => Json.noConfusion heq

mutual

theorem isProper_toJson : ∀ d : Datum, d.toJson.IsProper
  | .null | .bool _ | .string _ => trivial
  | .number n => Json.isProper_ofBinary .document n
  | .array items => itemsProper_toJson items
  | .object fields => membersProper_toJson fields

theorem itemsProper_toJson : ∀ items : List Datum,
    Json.ItemsProper (itemsToJson items)
  | [] => trivial
  | item :: rest => ⟨isProper_toJson item, itemsProper_toJson rest⟩

theorem membersProper_toJson : ∀ fields : List (String × Datum),
    Json.MembersProper (fieldsToJson fields)
  | [] => trivial
  | (_, value) :: rest => ⟨isProper_toJson value, membersProper_toJson rest⟩

end

mutual

theorem isSound_toJson : ∀ (d : Datum) {depth : Nat},
    (∀ n ∈ d.numbers, n.IsRestored) → d.toJson.height ≤ depth →
      d.toJson.isSound depth
  | .null, _, _, _ | .bool _, _, _, _ | .string _, _, _, _ => by
    simp [toJson, Json.ofText, Json.isSound]
  | .number n, _, hrestored, _ => by
    obtain ⟨numeral, hnumeral, hread⟩ := hrestored n List.mem_cons_self
    rw [toJson, Json.ofBinary, hnumeral]
    simp only [Json.isSound, hread, Option.isSome_some]
  | .array items, _, hrestored, hdepth =>
    Json.isSound_array hdepth fun _ => itemsSound_toJson items hrestored
  | .object fields, _, hrestored, hdepth =>
    Json.isSound_object hdepth fun _ => membersSound_toJson fields hrestored

theorem itemsSound_toJson : ∀ (items : List Datum) {depth : Nat},
    (∀ n ∈ itemsNumbers items, n.IsRestored) →
    Json.itemsHeight (itemsToJson items) ≤ depth →
      ∀ item ∈ itemsToJson items, item.isSound depth
  | [], _, _, _ => by simp [itemsToJson]
  | item :: rest, depth, hrestored, hdepth => by
    rw [itemsNumbers, List.forall_mem_append] at hrestored
    rw [itemsToJson, Json.itemsHeight, max_le_iff] at hdepth
    rw [itemsToJson, List.forall_mem_cons]
    exact ⟨isSound_toJson item hrestored.1 hdepth.1,
      itemsSound_toJson rest hrestored.2 hdepth.2⟩

theorem membersSound_toJson : ∀ (fields : List (String × Datum)) {depth : Nat},
    (∀ n ∈ fieldsNumbers fields, n.IsRestored) →
    Json.membersHeight (fieldsToJson fields) ≤ depth →
      ∀ member ∈ fieldsToJson fields,
        member.1.isSome && member.2.isSound depth
  | [], _, _, _ => by simp [fieldsToJson]
  | (name, value) :: rest, depth, hrestored, hdepth => by
    rw [fieldsNumbers, List.forall_mem_append] at hrestored
    rw [fieldsToJson, Json.membersHeight, max_le_iff] at hdepth
    rw [fieldsToJson, List.forall_mem_cons]
    exact ⟨isSound_toJson value hrestored.1 hdepth.1,
      membersSound_toJson rest hrestored.2 hdepth.2⟩

end

mutual

/-- A datum is read back from its document. -/
theorem ofJson?_toJson : ∀ (d : Datum) {depth : Nat}, d.Ordered →
    (∀ n ∈ d.numbers, n.IsRestored) → d.toJson.height ≤ depth →
      ofJson? depth d.toJson = some d
  | .null, _, _, _, _ | .bool _, _, _, _, _ | .string _, _, _, _, _ => by
    simp [toJson, Json.ofText, ofJson?]
  | .number n, _, _, hrestored, _ => by
    obtain ⟨numeral, hnumeral, hread⟩ := hrestored n List.mem_cons_self
    rw [toJson, Json.ofBinary, hnumeral]
    simp only [ofJson?, hread, Option.map_some]
  | .array items, depth + 1, hordered, hrestored, hdepth => by
    rw [toJson, ofJson?, mapM_itemsToJson items hordered hrestored
      (Nat.le_of_succ_le_succ hdepth)]
    rfl
  | .object fields, depth + 1, ⟨hsorted, hordered⟩, hrestored, hdepth => by
    rw [toJson, ofJson?, mapM_fieldsToJson fields hordered hrestored
      (Nat.le_of_succ_le_succ hdepth)]
    rw [Option.map_some, ofPairs, hsorted.ofList_eq]

theorem mapM_itemsToJson : ∀ (items : List Datum) {depth : Nat},
    ItemsOrdered items → (∀ n ∈ itemsNumbers items, n.IsRestored) →
    Json.itemsHeight (itemsToJson items) ≤ depth →
      (itemsToJson items).mapM (ofJson? depth) = some items
  | [], _, _, _, _ => rfl
  | item :: rest, depth, hordered, hrestored, hdepth => by
    rw [itemsNumbers, List.forall_mem_append] at hrestored
    rw [itemsToJson, Json.itemsHeight, max_le_iff] at hdepth
    rw [itemsToJson, List.mapM_cons,
      ofJson?_toJson item hordered.1 hrestored.1 hdepth.1,
      mapM_itemsToJson rest hordered.2 hrestored.2 hdepth.2]
    rfl

theorem mapM_fieldsToJson : ∀ (fields : List (String × Datum)) {depth : Nat},
    FieldsOrdered fields → (∀ n ∈ fieldsNumbers fields, n.IsRestored) →
    Json.membersHeight (fieldsToJson fields) ≤ depth →
      ((fieldsToJson fields).mapM fun (member : Option String × Json) => do
        return (← member.1, ← ofJson? depth member.2)) = some fields
  | [], _, _, _, _ => rfl
  | (name, value) :: rest, depth, hordered, hrestored, hdepth => by
    rw [fieldsNumbers, List.forall_mem_append] at hrestored
    rw [fieldsToJson, Json.membersHeight, max_le_iff] at hdepth
    rw [fieldsToJson, List.mapM_cons,
      ofJson?_toJson value hordered.1 hrestored.1 hdepth.1,
      mapM_fieldsToJson rest hordered.2 hrestored.2 hdepth.2]
    rfl

end

end Datum

/-! ## Terms -/

theorem TermKind.ofName?_name (kind : TermKind) :
    TermKind.ofName? kind.name = some kind := by
  cases kind <;> rfl

namespace Term

mutual

/-- The numbers in a term: in its value, its arguments and its options. -/
def numbers : Term → List Number
  | ⟨_, args, options, value⟩ =>
    argNumbers args ++ optionNumbers options ++ (value.elim [] Datum.numbers)

def argNumbers : List Term → List Number
  | [] => []
  | arg :: rest => numbers arg ++ argNumbers rest

def optionNumbers : List (String × Term) → List Number
  | [] => []
  | (_, option) :: rest => numbers option ++ optionNumbers rest

end

/-- A term as compiling makes them: null is the absence of a value, numbers are
finite, and options and fields are in the order of their names. -/
inductive Canonical : Term → Prop where
  | mk {kind : TermKind} {args : List Term} {options : Fields Term}
      {value : Option Datum} :
      (∀ arg ∈ args, Canonical arg) → Fields.Sorted options →
      (∀ option ∈ options, Canonical option.2) →
      (∀ d ∈ value, d ≠ .null ∧ d.Ordered ∧ d.isFinite) →
      Canonical ⟨kind, args, options, value⟩

mutual

theorem isFinite_of_canonical : ∀ t : Term, t.Canonical →
    ∀ n ∈ t.numbers, n.isFinite
  | ⟨kind, args, options, value⟩, .mk hargs _ hoptions hvalue => by
    have hargNumbers := isFinite_of_args args hargs
    have hoptionNumbers := isFinite_of_options options hoptions
    have hvalueNumbers : ∀ n ∈ value.elim [] Datum.numbers, n.isFinite := by
      cases value with
      | none => simp
      | some d => exact d.isFinite_iff.1 (hvalue d rfl).2.2
    rw [numbers, List.forall_mem_append, List.forall_mem_append]
    exact ⟨⟨hargNumbers, hoptionNumbers⟩, hvalueNumbers⟩

theorem isFinite_of_args : ∀ args : List Term, (∀ arg ∈ args, arg.Canonical) →
    ∀ n ∈ argNumbers args, n.isFinite
  | [], _ => by simp [argNumbers]
  | arg :: rest, hargs => by
    rw [List.forall_mem_cons] at hargs
    rw [argNumbers, List.forall_mem_append]
    exact ⟨isFinite_of_canonical arg hargs.1, isFinite_of_args rest hargs.2⟩

theorem isFinite_of_options : ∀ options : List (String × Term),
    (∀ option ∈ options, option.2.Canonical) →
    ∀ n ∈ optionNumbers options, n.isFinite
  | [], _ => by simp [optionNumbers]
  | (_, option) :: rest, hoptions => by
    rw [List.forall_mem_cons] at hoptions
    rw [optionNumbers, List.forall_mem_append]
    exact ⟨isFinite_of_canonical option hoptions.1,
      isFinite_of_options rest hoptions.2⟩

end

theorem height_toJson_le_iff {kind : TermKind} {args : List Term}
    {options : Fields Term} {value : Option Datum} {depth : Nat} :
    (toJson ⟨kind, args, options, value⟩).height ≤ depth + 1 ↔
      (args ≠ [] → Json.itemsHeight (argsToJson args) + 1 ≤ depth) ∧
      (options ≠ [] → Json.membersHeight (optionsToJson options) + 1 ≤ depth) ∧
      ∀ d ∈ value, d.toJson.height ≤ depth := by
  cases args <;> cases options <;> cases value <;>
    simp [toJson, Json.height, Json.membersHeight, Json.ofText]

theorem record?_toJson (kind : TermKind) (args : List Term)
    (options : Fields Term) (value : Option Datum) :
    (toJson ⟨kind, args, options, value⟩).record?
      ["type", "args", "optargs", "datum"] =
      some [some (.ofText kind.name),
        if args.isEmpty then none else some (.array (argsToJson args)),
        if options.isEmpty then none else some (.object (optionsToJson options)),
        value.map Datum.toJson] := by
  cases args <;> cases options <;> cases value <;>
    simp [toJson, Json.record?, Json.member?]

mutual

theorem isProper_toJson : ∀ t : Term, t.toJson.IsProper
  | ⟨kind, args, options, value⟩ => by
    have hargs := itemsProper_toJson args
    have hoptions := membersProper_toJson options
    have hvalue := fun d : Datum => d.isProper_toJson
    cases args <;> cases options <;> cases value <;>
      simp_all [toJson, Json.IsProper, Json.MembersProper, Json.ofText]

theorem itemsProper_toJson : ∀ args : List Term,
    Json.ItemsProper (argsToJson args)
  | [] => trivial
  | arg :: rest => ⟨isProper_toJson arg, itemsProper_toJson rest⟩

theorem membersProper_toJson : ∀ options : List (String × Term),
    Json.MembersProper (optionsToJson options)
  | [] => trivial
  | (_, option) :: rest => ⟨isProper_toJson option, membersProper_toJson rest⟩

end

theorem height_toJson_pos (t : Term) : 0 < t.toJson.height := by
  obtain ⟨kind, args, options, value⟩ := t
  cases value <;> exact Nat.succ_pos _

mutual

theorem isSound_toJson : ∀ (t : Term) {depth : Nat},
    (∀ n ∈ t.numbers, n.IsRestored) → t.toJson.height ≤ depth →
      t.toJson.isSound depth
  | t, 0, _, hdepth => absurd hdepth (Nat.not_le_of_lt t.height_toJson_pos)
  | ⟨kind, args, options, value⟩, depth + 1, hrestored, hdepth => by
    obtain ⟨hargs, hoptions, hvalue⟩ := height_toJson_le_iff.1 hdepth
    rw [numbers, List.forall_mem_append, List.forall_mem_append] at hrestored
    obtain ⟨⟨hargNumbers, hoptionNumbers⟩, hvalueNumbers⟩ := hrestored
    have hsoundArgs (hne : args ≠ []) :
        (Json.array (argsToJson args)).isSound depth :=
      Json.isSound_array (hargs hne) fun _ => itemsSound_toJson args hargNumbers
    have hsoundOptions (hne : options ≠ []) :
        (Json.object (optionsToJson options)).isSound depth :=
      Json.isSound_object (hoptions hne) fun _ =>
        membersSound_toJson options hoptionNumbers
    have hsoundValue : ∀ d ∈ value, d.toJson.isSound depth := by
      rintro d rfl
      exact d.isSound_toJson hvalueNumbers (hvalue d rfl)
    cases args <;> cases options <;> cases value <;>
      simp_all [toJson, Json.isSound, Json.ofText]

theorem itemsSound_toJson : ∀ (args : List Term) {depth : Nat},
    (∀ n ∈ argNumbers args, n.IsRestored) →
    Json.itemsHeight (argsToJson args) ≤ depth →
      ∀ item ∈ argsToJson args, item.isSound depth
  | [], _, _, _ => by simp [argsToJson]
  | arg :: rest, depth, hrestored, hdepth => by
    rw [argNumbers, List.forall_mem_append] at hrestored
    rw [argsToJson, Json.itemsHeight, max_le_iff] at hdepth
    rw [argsToJson, List.forall_mem_cons]
    exact ⟨isSound_toJson arg hrestored.1 hdepth.1,
      itemsSound_toJson rest hrestored.2 hdepth.2⟩

theorem membersSound_toJson : ∀ (options : List (String × Term)) {depth : Nat},
    (∀ n ∈ optionNumbers options, n.IsRestored) →
    Json.membersHeight (optionsToJson options) ≤ depth →
      ∀ member ∈ optionsToJson options,
        member.1.isSome && member.2.isSound depth
  | [], _, _, _ => by simp [optionsToJson]
  | (name, option) :: rest, depth, hrestored, hdepth => by
    rw [optionNumbers, List.forall_mem_append] at hrestored
    rw [optionsToJson, Json.membersHeight, max_le_iff] at hdepth
    rw [optionsToJson, List.forall_mem_cons]
    exact ⟨isSound_toJson option hrestored.1 hdepth.1,
      membersSound_toJson rest hrestored.2 hdepth.2⟩

end

/-- How the parts of a term are read, which stand inside two containers. -/
def partOfJson? (framing : Framing) : (depth : Nat) → Json → Option Term
  | 0 => fun _ => none
  | inner + 1 => ofJson? framing inner

theorem ofJson?_of_record {framing : Framing} {depth : Nat} {json : Json}
    {kind : TermKind} {args options value : Option Json}
    (h : json.record? ["type", "args", "optargs", "datum"] =
      some [some (.ofText kind.name), args, options, value]) :
    ofJson? framing (depth + 1) json = (do
      let args ← args.elim (some [])
        (listOfJson? depth (partOfJson? framing depth))
      let options ← options.elim (some [])
        (fieldsOfJson? depth (partOfJson? framing depth))
      let value ← valueOfJson? depth value
      return ⟨kind, args, options, value⟩) := by
  rw [ofJson?.eq_def]
  simp only [h, Json.ofText, Json.choice?, Option.bind_eq_bind,
    Option.bind_some, TermKind.ofName?_name]
  rfl

/-- Arguments are read back if each of them is. -/
theorem elim_listOfJson? {framing : Framing} {args : List Term} {depth : Nat}
    (hdepth : args ≠ [] → Json.itemsHeight (argsToJson args) + 1 ≤ depth)
    (hread : ∀ inner, Json.itemsHeight (argsToJson args) ≤ inner →
      (argsToJson args).mapM (ofJson? framing inner) = some args) :
    (if args.isEmpty then none else some (Json.array (argsToJson args))).elim
      (some []) (listOfJson? depth (partOfJson? framing depth)) = some args := by
  cases args with
  | nil => rfl
  | cons arg rest =>
      have hheight := hdepth (List.cons_ne_nil arg rest)
      obtain _ | inner := depth
      · exact absurd hheight (Nat.not_succ_le_zero _)
      · exact hread inner (Nat.le_of_succ_le_succ hheight)

/-- Options in order are read back if each of them is. -/
theorem fieldsOfJson?_optionsToJson {item : Json → Option Term}
    {options : Fields Term} {depth : Nat} (hsorted : Fields.Sorted options)
    (hdepth : depth ≠ 0)
    (hread : ((optionsToJson options).mapM
      fun (member : Option String × Json) => do
        return (← member.1, ← item member.2)) = some options) :
    fieldsOfJson? depth item (.object (optionsToJson options)) = some options := by
  rw [fieldsOfJson?, if_neg hdepth, hread, Option.map_some, hsorted.ofList_eq]

theorem elim_fieldsOfJson? {framing : Framing} {options : Fields Term}
    {depth : Nat} (hsorted : Fields.Sorted options)
    (hdepth : options ≠ [] →
      Json.membersHeight (optionsToJson options) + 1 ≤ depth)
    (hread : ∀ inner, Json.membersHeight (optionsToJson options) ≤ inner →
      ((optionsToJson options).mapM fun (member : Option String × Json) => do
        return (← member.1, ← ofJson? framing inner member.2)) = some options) :
    (if options.isEmpty then none
      else some (Json.object (optionsToJson options))).elim
      (some []) (fieldsOfJson? depth (partOfJson? framing depth)) =
        some options := by
  cases options with
  | nil => rfl
  | cons option rest =>
      have hheight := hdepth (List.cons_ne_nil option rest)
      obtain _ | inner := depth
      · exact absurd hheight (Nat.not_succ_le_zero _)
      · exact fieldsOfJson?_optionsToJson hsorted (Nat.succ_ne_zero inner)
          (hread inner (Nat.le_of_succ_le_succ hheight))

theorem valueOfJson?_toJson {value : Option Datum} {depth : Nat}
    (hvalue : ∀ d ∈ value, d ≠ .null ∧ d.Ordered ∧ d.isFinite)
    (hrestored : ∀ n ∈ value.elim [] Datum.numbers, n.IsRestored)
    (hdepth : ∀ d ∈ value, d.toJson.height ≤ depth) :
    valueOfJson? depth (value.map Datum.toJson) = some value := by
  cases value with
  | none => rfl
  | some d =>
      obtain ⟨hnull, hordered, _⟩ := hvalue d rfl
      have hne := Datum.toJson_ne_null hnull hrestored
      have hread := d.ofJson?_toJson hordered hrestored (hdepth d rfl)
      rw [Option.map_some, valueOfJson?, hread]
      · rfl
      · exact hne

-- A term is a container itself, so its parts are read two containers deeper,
-- and there is no term at depth zero.
mutual

/-- A term is read back from its document. -/
theorem ofJson?_toJson (framing : Framing) : ∀ (t : Term) {depth : Nat},
    t.Canonical → (∀ n ∈ t.numbers, n.IsRestored) → t.toJson.height ≤ depth →
      ofJson? framing depth t.toJson = some t
  | t, 0, _, _, hdepth => absurd hdepth (Nat.not_le_of_lt t.height_toJson_pos)
  | ⟨kind, args, options, value⟩, depth + 1, hcanonical, hrestored, hdepth => by
    obtain ⟨hargHeight, hoptionHeight, hvalueHeight⟩ :=
      height_toJson_le_iff.1 hdepth
    rw [numbers, List.forall_mem_append, List.forall_mem_append] at hrestored
    obtain ⟨⟨hargNumbers, hoptionNumbers⟩, hvalueNumbers⟩ := hrestored
    obtain ⟨hargs, hsorted, hoptions, hvalue⟩ := hcanonical
    rw [ofJson?_of_record (record?_toJson kind args options value),
      elim_listOfJson? hargHeight fun _ =>
        mapM_argsToJson framing args hargs hargNumbers,
      elim_fieldsOfJson? hsorted hoptionHeight fun _ =>
        mapM_optionsToJson framing options hoptions hoptionNumbers,
      valueOfJson?_toJson hvalue hvalueNumbers hvalueHeight]
    rfl

theorem mapM_argsToJson (framing : Framing) : ∀ (args : List Term) {depth : Nat},
    (∀ arg ∈ args, arg.Canonical) → (∀ n ∈ argNumbers args, n.IsRestored) →
    Json.itemsHeight (argsToJson args) ≤ depth →
      (argsToJson args).mapM (ofJson? framing depth) = some args
  | [], _, _, _, _ => rfl
  | arg :: rest, depth, hargs, hrestored, hdepth => by
    rw [List.forall_mem_cons] at hargs
    rw [argNumbers, List.forall_mem_append] at hrestored
    rw [argsToJson, Json.itemsHeight, max_le_iff] at hdepth
    rw [argsToJson, List.mapM_cons,
      ofJson?_toJson framing arg hargs.1 hrestored.1 hdepth.1,
      mapM_argsToJson framing rest hargs.2 hrestored.2 hdepth.2]
    rfl

theorem mapM_optionsToJson (framing : Framing) :
    ∀ (options : List (String × Term)) {depth : Nat},
    (∀ option ∈ options, option.2.Canonical) →
    (∀ n ∈ optionNumbers options, n.IsRestored) →
    Json.membersHeight (optionsToJson options) ≤ depth →
      ((optionsToJson options).mapM fun (member : Option String × Json) => do
        return (← member.1, ← ofJson? framing depth member.2)) = some options
  | [], _, _, _, _ => rfl
  | (name, option) :: rest, depth, hoptions, hrestored, hdepth => by
    rw [List.forall_mem_cons] at hoptions
    rw [optionNumbers, List.forall_mem_append] at hrestored
    rw [optionsToJson, Json.membersHeight, max_le_iff] at hdepth
    rw [optionsToJson, List.mapM_cons,
      ofJson?_toJson framing option hoptions.1 hrestored.1 hdepth.1,
      mapM_optionsToJson framing rest hoptions.2 hrestored.2 hdepth.2]
    rfl

end

end Term

end DocumentQuery
