import DocumentQuery.Fault
import DocumentQuery.Proofs.OutcomeReread

/-!
# Visiting a datum

A datum is read as a tree of some type by a visitor.  The datum says what it is and
hands over its parts one after the other, read by the same visitor; what the tree
looks like is up to the visitor.  A visitor that agrees with a function on every
piece of a datum agrees with it on every datum, however deep.  There are two such
visitors: one puts the datum together again, the other makes a document in memory.
-/

namespace DocumentQuery

/-- What a type of trees makes of the pieces of a datum.  The parts of a collection
are trees already. -/
structure Visitor (τ : Type) where
  nothing : Except Mismatch τ
  bool (value : Bool) : Except Mismatch τ
  number (value : Number) : Except Mismatch τ
  text (value : String) : Except Mismatch τ
  sequence (items : List τ) : Except Mismatch τ
  map (entries : List (String × τ)) : Except Mismatch τ

namespace Reader

variable {τ : Type}

mutual

/-- Shows a datum to a visitor, its parts first. -/
def visit (v : Visitor τ) : Reader τ
  | .null => v.nothing
  | .bool value => v.bool value
  | .number value => v.number value
  | .string value => v.text value
  | .array items => do v.sequence (← visitItems v items)
  | .object fields => do v.map (← visitFields v fields)

def visitItems (v : Visitor τ) : List Datum → Except Mismatch (List τ)
  | [] => .ok []
  | item :: rest => do
    let item ← visit v item
    let rest ← visitItems v rest
    return item :: rest

def visitFields (v : Visitor τ) :
    List (String × Datum) → Except Mismatch (List (String × τ))
  | [] => .ok []
  | (name, value) :: rest => do
    let value ← visit v value
    let rest ← visitFields v rest
    return (name, value) :: rest

end

end Reader

namespace Visitor

variable {τ : Type} {v : Visitor τ} {f : Datum → τ}

/-- The visitor makes of each piece of a datum what `f` makes of it. -/
structure Builds (v : Visitor τ) (f : Datum → τ) : Prop where
  nothing : v.nothing = .ok (f .null)
  bool (value : Bool) : v.bool value = .ok (f (.bool value))
  number (value : Number) : v.number value = .ok (f (.number value))
  text (value : String) : v.text value = .ok (f (.string value))
  sequence (items : List Datum) : v.sequence (items.map f) = .ok (f (.array items))
  map {fields : Fields Datum} : Fields.Sorted fields →
    v.map (Fields.mapValues f fields) = .ok (f (.object fields))

mutual

theorem Builds.visit (h : v.Builds f) :
    ∀ d : Datum, d.Ordered → Reader.visit v d = .ok (f d)
  | .null, _ => h.nothing
  | .bool value, _ => h.bool value
  | .number value, _ => h.number value
  | .string value, _ => h.text value
  | .array items, hordered => by
    rw [Reader.visit, h.visitItems items hordered]
    exact h.sequence items
  | .object fields, ⟨hsorted, hordered⟩ => by
    rw [Reader.visit, h.visitFields fields hordered]
    exact h.map hsorted

theorem Builds.visitItems (h : v.Builds f) :
    ∀ items : List Datum, Datum.ItemsOrdered items →
      Reader.visitItems v items = .ok (items.map f)
  | [], _ => rfl
  | item :: rest, ⟨hitem, hrest⟩ => by
    rw [Reader.visitItems, h.visit item hitem, h.visitItems rest hrest]
    rfl

theorem Builds.visitFields (h : v.Builds f) :
    ∀ fields : List (String × Datum), Datum.FieldsOrdered fields →
      Reader.visitFields v fields = .ok (Fields.mapValues f fields)
  | [], _ => rfl
  | (name, value) :: rest, ⟨hvalue, hrest⟩ => by
    rw [Reader.visitFields, h.visit value hvalue, h.visitFields rest hrest]
    rfl

end

/-! ## A datum again -/

/-- Puts a datum together from its pieces, an object field by field. -/
def datum : Visitor Datum where
  nothing := .ok .null
  bool value := .ok (.bool value)
  number value := .ok (.number value)
  text value := .ok (.string value)
  sequence items := .ok (.array items)
  map entries := .ok (.ofPairs entries)

theorem datum_builds : datum.Builds id where
  nothing := rfl
  bool _ := rfl
  number _ := rfl
  text _ := rfl
  sequence items := by
    rw [List.map_id]
    rfl
  map {fields} hsorted := by
    have hfields : Fields.mapValues id fields = fields := List.map_id fields
    have hobject : Datum.ofPairs fields = .object fields := by
      rw [Datum.ofPairs, hsorted.ofList_eq]
    rw [hfields]
    exact congrArg Except.ok hobject

end Visitor

namespace Reader

mutual

/-- Reading any value is visiting the datum. -/
theorem any_eq_visit : ∀ d : Datum, any d = visit .datum d
  | .null | .bool _ | .number _ | .string _ => rfl
  | .array items => by
    rw [any, visit, anyItems_eq_visitItems items]
    rfl
  | .object fields => by
    rw [any, visit, anyFields_eq_visitFields [] fields]
    cases visitFields .datum fields <;> rfl

theorem anyItems_eq_visitItems : ∀ items : List Datum,
    anyItems items = visitItems .datum items
  | [] => rfl
  | item :: rest => by
    rw [anyItems, visitItems, any_eq_visit item, anyItems_eq_visitItems rest]

-- A field is put in its place as soon as it is read, where the visitor is given all
-- of them at the end; so the fields read before are a parameter of the induction.
theorem anyFields_eq_visitFields (done : Fields Datum) : ∀ fields : List (String × Datum),
    anyFields done fields = (visitFields .datum fields).map fun entries =>
      entries.foldl (fun fields (name, value) => Fields.insert name value fields) done
  | [] => rfl
  | (name, value) :: rest => by
    rw [anyFields, visitFields, any_eq_visit value]
    cases visit .datum value with
    | error cause => rfl
    | ok value =>
        refine (anyFields_eq_visitFields (Fields.insert name value done) rest).trans ?_
        cases visitFields .datum rest <;> rfl

end

end Reader

namespace Datum

/-- A datum read as a datum is the same. -/
theorem readAs_any {d : Datum} (hordered : d.Ordered) :
    d.readAs Reader.any = .ok d := by
  rw [readAs, Reader.any_eq_visit, Visitor.datum_builds.visit d hordered]
  rfl

end Datum

/-! ## A document in memory -/

namespace Visitor

/-- The visitor of documents in memory.  A number that is not finite has no place in
them and becomes null, and the members of an object that come in order stay so. -/
structure MakesDocuments (v : Visitor JsonValue) : Prop where
  nothing : v.nothing = .ok .null
  bool (value : Bool) : v.bool value = .ok (.bool value)
  number (value : Number) :
    v.number value = .ok (if value.isFinite then .number value else .null)
  text (value : String) : v.text value = .ok (.string value)
  sequence (items : List JsonValue) : v.sequence items = .ok (.array items)
  map {entries : Fields JsonValue} :
    Fields.Sorted entries → v.map entries = .ok (.object entries)

end Visitor

namespace Datum

theorem itemsToValue_eq_map (items : List Datum) :
    itemsToValue items = items.map toValue := by
  induction items with
  | nil => rfl
  | cons item rest ih => rw [itemsToValue, ih, List.map_cons]

theorem fieldsToValue_eq_mapValues (fields : Fields Datum) :
    fieldsToValue fields = Fields.mapValues toValue fields := by
  induction fields with
  | nil => rfl
  | cons field rest ih =>
      obtain ⟨name, value⟩ := field
      rw [fieldsToValue, ih]
      rfl

end Datum

theorem Fields.Sorted.mapValues {α β : Type} {fields : Fields α}
    (h : Fields.Sorted fields) (f : α → β) :
    Fields.Sorted (Fields.mapValues f fields) :=
  List.pairwise_map.2 h

namespace Visitor

variable {v : Visitor JsonValue}

theorem MakesDocuments.builds (h : v.MakesDocuments) : v.Builds Datum.toValue where
  nothing := h.nothing
  bool := h.bool
  number := h.number
  text := h.text
  sequence items := by
    rw [h.sequence, Datum.toValue, Datum.itemsToValue_eq_map]
  map {fields} hsorted := by
    rw [h.map (hsorted.mapValues Datum.toValue), Datum.toValue,
      Datum.fieldsToValue_eq_mapValues]

/-- Reading a datum as a document gives the document that it is written as. -/
theorem MakesDocuments.readAs (h : v.MakesDocuments) {d : Datum}
    (hordered : d.Ordered) : d.readAs (Reader.visit v) = .ok d.toValue := by
  rw [Datum.readAs, h.builds.visit d hordered]
  rfl

/-- Puts a document together from the pieces of a datum. -/
def document : Visitor JsonValue where
  nothing := .ok .null
  bool value := .ok (.bool value)
  number value := .ok (if value.isFinite then .number value else .null)
  text value := .ok (.string value)
  sequence items := .ok (.array items)
  map entries := .ok (.object (Fields.ofList entries))

theorem document_makesDocuments : document.MakesDocuments where
  nothing := rfl
  bool _ := rfl
  number _ := rfl
  text _ := rfl
  sequence _ := rfl
  map hsorted :=
    congrArg (fun members => Except.ok (JsonValue.object members)) hsorted.ofList_eq

end Visitor

end DocumentQuery
