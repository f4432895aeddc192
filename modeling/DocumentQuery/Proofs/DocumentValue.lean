import DocumentQuery.Datum.Value
import DocumentQuery.Proofs.DocumentReading

/-!
# Datums and documents in memory

A datum is written as the document that stands for it in memory is.  Taken for a
datum again, this document is the datum that it stands for, unless a number in it
is not finite.
-/

namespace DocumentQuery.Datum

mutual

theorem toJson_toValue : ∀ d : Datum, d.toValue.toJson = d.toJson
  | .null | .bool _ | .string _ => rfl
  | .number value => by
    cases value <;> rfl
  | .array items => by
    rw [toValue, JsonValue.toJson, itemsToJson_toValue items, toJson]
  | .object fields => by
    rw [toValue, JsonValue.toJson, membersToJson_toValue fields, toJson]

theorem itemsToJson_toValue : ∀ items : List Datum,
    JsonValue.itemsToJson (itemsToValue items) = itemsToJson items
  | [] => rfl
  | item :: rest => by
    rw [itemsToValue, JsonValue.itemsToJson, toJson_toValue item,
      itemsToJson_toValue rest, itemsToJson]

theorem membersToJson_toValue : ∀ fields : List (String × Datum),
    JsonValue.membersToJson (fieldsToValue fields) = fieldsToJson fields
  | [] => rfl
  | (name, value) :: rest => by
    rw [fieldsToValue, JsonValue.membersToJson, toJson_toValue value,
      membersToJson_toValue rest, fieldsToJson]

end

mutual

/-- A datum without special numbers comes back as it was. -/
theorem toDatum_toValue : ∀ d : Datum, d.Ordered → d.isFinite →
    d.toValue.toDatum = d
  | .null, _, _ | .bool _, _, _ | .string _, _, _ => rfl
  | .number value, _, hfinite => by
    rw [isFinite] at hfinite
    rw [toValue, if_pos hfinite, JsonValue.toDatum]
  | .array items, hordered, hfinite => by
    rw [toValue, JsonValue.toDatum, itemsToDatum_toValue items hordered hfinite]
  | .object fields, ⟨hsorted, hordered⟩, hfinite => by
    rw [toValue, JsonValue.toDatum, membersToDatum_toValue fields hordered hfinite,
      ofPairs, hsorted.ofList_eq]

theorem itemsToDatum_toValue : ∀ items : List Datum, ItemsOrdered items →
    itemsFinite items → JsonValue.itemsToDatum (itemsToValue items) = items
  | [], _, _ => rfl
  | item :: rest, ⟨hitem, hrest⟩, hfinite => by
    rw [itemsFinite, Bool.and_eq_true] at hfinite
    rw [itemsToValue, JsonValue.itemsToDatum, toDatum_toValue item hitem hfinite.1,
      itemsToDatum_toValue rest hrest hfinite.2]

theorem membersToDatum_toValue : ∀ fields : List (String × Datum),
    FieldsOrdered fields → fieldsFinite fields →
      JsonValue.membersToDatum (fieldsToValue fields) = fields
  | [], _, _ => rfl
  | (name, value) :: rest, ⟨hvalue, hrest⟩, hfinite => by
    rw [fieldsFinite, Bool.and_eq_true] at hfinite
    rw [fieldsToValue, JsonValue.membersToDatum,
      toDatum_toValue value hvalue hfinite.1,
      membersToDatum_toValue rest hrest hfinite.2]

end

end DocumentQuery.Datum
