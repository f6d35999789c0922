import RecordAlgebra.Proofs.Binary64.Rounding
import RecordAlgebra.Proofs.Document.Stored
import RecordAlgebra.Proofs.Plan.Aggregates

/-!
# Rows that have documents

A row has a document if every property of the schema admits what the row says of it and can
write it down, which only infinite and undefined numbers keep it from. Where no property is of
any type the document gives the row back, with all properties of the schema, each in the form
in which it is stored, and that row has the same document.
-/

namespace RecordAlgebra

namespace FieldType

theorem isItemFree_of_admits {type : FieldType} {v : Value} (hplain : type ≠ .any)
    (h : type.admits v = true) : v.isItemFree = true := by
  cases v with
  | list elements => cases type <;> simp [admits] at h hplain
  | record fields => cases type <;> simp [admits] at h hplain
  | item ref => cases type <;> simp [admits] at h hplain
  | _ => rfl

end FieldType

namespace Document

variable {schema : Schema} {row : Row}

theorem isFinite_coerce (type : FieldType) (v : Value) :
    (coerce type v).isFinite = v.isFinite := by
  cases type with
  | float =>
      cases v with
      | int n => exact Binary64.isFinite_toFloat n
      | _ => rfl
  | _ => rfl

theorem isItemFree_coerce (type : FieldType) (v : Value) :
    (coerce type v).isItemFree = v.isItemFree := by
  cases type <;> cases v <;> rfl

/-- A property stores what it admits, unless it is no finite number. -/
theorem exists_memberOf_iff {property : Property} (hplain : property.type ≠ .any) :
    (∃ member, memberOf row property = .ok member) ↔
      property.type.admits (valueIn row property.name) = true ∧
        (valueIn row property.name).isFinite = true := by
  constructor
  · rintro ⟨member, hmember⟩
    obtain ⟨-, hadmits, hvalue⟩ := memberOf_ok_iff.1 hmember
    have hfinite := isFinite_of_ofValue hvalue
    rw [isFinite_coerce] at hfinite
    exact ⟨hadmits, hfinite⟩
  · rintro ⟨hadmits, hfinite⟩
    have hfree := FieldType.isItemFree_of_admits hplain hadmits
    rw [← isItemFree_coerce property.type] at hfree
    rw [← isFinite_coerce property.type] at hfinite
    obtain ⟨document, hvalue⟩ := exists_ofValue hfree hfinite
    exact ⟨(property.name, document), memberOf_ok_iff.2 ⟨rfl, hadmits, hvalue⟩⟩

/-- A row has a document if each of its properties can be stored. -/
theorem exists_ofRow_iff : (∃ document, ofRow schema row = .ok document) ↔
    ∀ property ∈ schema.properties, ∃ member, memberOf row property = .ok member := by
  constructor
  · rintro ⟨document, hdocument⟩ property hproperty
    obtain ⟨-, hall⟩ := ofRow_ok_iff.1 hdocument
    exact ⟨storedMember row property, hall property hproperty⟩
  · intro hall
    refine ⟨_, ofRow_ok_iff.2 ⟨rfl, fun property hproperty => ?_⟩⟩
    obtain ⟨member, hmember⟩ := hall property hproperty
    obtain ⟨hname, -, hvalue⟩ := memberOf_ok_iff.1 hmember
    rw [hmember, storedMember, hvalue, ← hname]
    rfl

/-- A row has a document exactly if its values fit their properties and its numbers are finite.
The document reads back as the row in the form in which it is stored, and that row has the same
document. -/
theorem stored_rows_round_trip (hplain : ∀ property ∈ schema.properties, property.type ≠ .any)
    (htimes : ∀ property ∈ schema.properties, (valueIn row property.name).timesExist = true) :
    ((∃ document, ofRow schema row = .ok document) ↔ ∀ property ∈ schema.properties,
      property.type.admits (valueIn row property.name) = true ∧
        (valueIn row property.name).isFinite = true) ∧
    ∀ document, ofRow schema row = .ok document → ∃ read, toRow schema document = .ok read ∧
      read = (schema.properties.map fun property =>
        (property.name, coerce property.type (valueIn row property.name))) ∧
      ofRow schema read = .ok document := by
  constructor
  · rw [exists_ofRow_iff]
    exact forall₂_congr fun property hproperty => exists_memberOf_iff (hplain property hproperty)
  · intro document hdocument
    exact ⟨_, toRow_ofRow hplain htimes hdocument, rfl, ofRow_storedRow hdocument⟩

/-- A reading with an integer for its level, and without a note. -/
theorem stored_rows_round_trip_reading :
    let schema : Schema :=
      { name := "readings"
        properties := [⟨"at", .timestamp, true⟩, ⟨"level", .float, false⟩, ⟨"raw", .bytes, false⟩,
          ⟨"note", .text, false⟩]
        distinct := by decide }
    let time : Timestamp := ⟨2015, 6, 30, 23, 59, 59, 1500000000⟩
    let row : Row := [("raw", .bytes [1, 255]), ("at", .timestamp time), ("level", .int 5)]
    let read : Row := [("at", .timestamp time), ("level", .float (Value.toFloat 5)),
      ("raw", .bytes [1, 255]), ("note", .null)]
    ∃ document, ofRow schema row = .ok document ∧ toRow schema document = .ok read ∧
      ofRow schema read = .ok document := by
  intro schema time row read
  have hround := @stored_rows_round_trip schema row (by decide) (by decide)
  obtain ⟨document, hdocument⟩ := hround.1.2 (by decide)
  obtain ⟨_, hread, rfl, hagain⟩ := hround.2 document hdocument
  exact ⟨document, hdocument, hread, hagain⟩

end Document

end RecordAlgebra
