import RecordAlgebra.Proofs.Document.Converting
import RecordAlgebra.Proofs.Pipeline.Tallies
import RecordAlgebra.Proofs.Plan.Elements
import RecordAlgebra.Proofs.Typing.FittingOperations

/-!
# Documents of a type

A document conforms to a type of single values if it is null or written as values of the type
are, and to a record type if it is an object with exactly the fields of the type, in their
order. Values of operands are put under the same rule, so that it passes from documents to the
values that are read off them and on to the documents that are made of these. What is stored
conforms to the properties of its schema.
-/

namespace RecordAlgebra

/-- Fields of the same names in the same order, with related values. -/
inductive Fields.Related {α β : Type} (R : α → β → Prop) : Fields α → Fields β → Prop
  | nil : Related R [] []
  | cons {name : String} {a : α} {b : β} {as : Fields α} {bs : Fields β} :
      R a b → Related R as bs → Related R ((name, a) :: as) ((name, b) :: bs)

namespace Fields

variable {α β γ : Type} {R : α → β → Prop} {as others : Fields α} {bs additions : Fields β}

theorem related_iff_forall₂ :
    Related R as bs ↔ List.Forall₂ (fun a b => a.1 = b.1 ∧ R a.2 b.2) as bs := by
  constructor
  · intro h
    induction h with
    | nil => exact .nil
    | cons hab _ ih => exact .cons ⟨rfl, hab⟩ ih
  · intro h
    induction h with
    | nil => exact .nil
    | @cons a b _ _ hab _ ih =>
        obtain ⟨name, a⟩ := a
        obtain ⟨_, b⟩ := b
        obtain ⟨rfl, hab⟩ := hab
        exact .cons hab ih

theorem Related.names (h : Related R as bs) : as.names = bs.names :=
  names_eq_of_forall₂ (related_iff_forall₂.1 h)

theorem Related.get? (h : Related R as bs) {name : String} {b : β} (hb : bs.get? name = some b) :
    ∃ a, as.get? name = some a ∧ R a b :=
  exists_get?_left (related_iff_forall₂.1 h) hb

theorem Related.insertAll (h : Related R as bs) (hothers : Related R others additions) :
    Related R (as.insertAll others) (bs.insertAll additions) :=
  related_iff_forall₂.2
    (forall₂_insertAll (related_iff_forall₂.1 h) (related_iff_forall₂.1 hothers))

theorem Related.map_left {S : γ → β → Prop} {f : α → γ} (h : Related R as bs)
    (step : ∀ a ∈ as, ∀ b ∈ bs, R a.2 b.2 → S (f a.2) b.2) :
    Related S (as.map fun a => (a.1, f a.2)) bs := by
  induction h with
  | nil => exact .nil
  | cons hab _ ih =>
      obtain ⟨hfirst, hothers⟩ := List.forall_mem_cons.1 step
      refine .cons (hfirst _ List.mem_cons_self hab) (ih fun a ha b hb => ?_)
      exact hothers a ha b (List.mem_cons_of_mem _ hb)

/-- Related fields stay so if their values are replaced and the new ones are related. -/
theorem Related.replace {S : γ → β → Prop} {T : α → γ → Prop} {cs : Fields γ}
    (h : Related R as bs) (hcs : Related T as cs)
    (step : ∀ field ∈ as, ∀ b c, R field.2 b → T field.2 c → S c b) : Related S cs bs := by
  induction h generalizing cs with
  | nil =>
      cases hcs
      exact .nil
  | cons hab _ ih =>
      cases hcs with
      | cons hac hrest =>
          obtain ⟨hfirst, hothers⟩ := List.forall_mem_cons.1 step
          exact .cons (hfirst _ _ hab hac) (ih hrest hothers)

end Fields

/-- Whether the document is one of a value of this type other than null. Whole numbers are
written for fractional ones as well. -/
def FieldType.documents : FieldType → Json → Bool
  | .any, _ | .boolean, .bool _ | .float, .int _ | .float, .float _ | .text, .text _ => true
  | .int, .int n => (wordOfInt? n).isSome
  | .bytes, .array octets => (Document.toOctets octets).isOk
  | .timestamp, .text stored => (Timestamp.ofStoredText? stored).isSome
  | _, _ => false

/-- The document is null or a single value of the type, or an object with exactly the fields of
a record type in their order. -/
inductive Json.Conforms : Json → DataType → Prop
  | null (s : FieldType) : Conforms .null (.scalar s)
  | scalar {document : Json} {s : FieldType} : s.documents document = true →
      Conforms document (.scalar s)
  | record {members : Fields Json} {types : Fields DataType} : types.names.Nodup →
      Fields.Related Conforms members types → Conforms (.object members) (.record types false)

/-- The value belongs to a type whose values are told apart by their documents. Records have
their fields in the order of the type. -/
inductive Value.Conforms : Value → DataType → Prop
  | scalar {v : Value} {s : FieldType} : s.isPlain = true → s.admits v = true →
      Conforms v (.scalar s)
  | record {fields : Fields Value} {types : Fields DataType} : types.names.Nodup →
      Fields.Related Conforms fields types → Conforms (.record fields) (.record types false)

namespace Value

variable {v : Value} {t : DataType} {types : Fields DataType} {isOpen : Bool}

theorem Conforms.scalar_iff {s : FieldType} :
    v.Conforms (.scalar s) ↔ s.isPlain = true ∧ s.admits v = true := by
  constructor
  · intro h
    cases h with
    | scalar hplain h => exact ⟨hplain, h⟩
  · exact fun h => .scalar h.1 h.2

theorem Conforms.fields (h : v.Conforms (.record types isOpen)) : isOpen = false ∧
    types.names.Nodup ∧ ∃ fields, v = .record fields ∧ Fields.Related Conforms fields types := by
  cases h with
  | record hdistinct h => exact ⟨rfl, hdistinct, _, rfl, h⟩

theorem conforms_null {s : FieldType} (h : s.isPlain = true) : Value.Conforms .null (.scalar s) :=
  .scalar h (by cases s <;> rfl)

/-- Only to types whose values are told apart by their documents do values conform. -/
theorem Conforms.isDocumentType (h : v.Conforms t) : t.isDocumentType = true := by
  induction v using partInduction generalizing t with
  | step v ih =>
      cases h with
      | scalar hplain _ => exact hplain
      | @record fields types _ h =>
          refine DataType.isDocumentType_record.2
            ⟨rfl, DataType.areDocumentTypes_iff.2 fun field hfield => ?_⟩
          obtain ⟨value, hvalue, -, hconforms⟩ :=
            exists_mem_of_forall₂ (Fields.related_iff_forall₂.1 h) hfield
          exact ih value.2 (List.mem_map_of_mem hvalue) hconforms

/-- Values that conform to the types of fields make up a record. -/
theorem conforms_ofList {fields : Fields Value} (hdistinct : types.names.Nodup)
    (h : Fields.Related Conforms fields types) :
    Conforms (.record (Fields.ofList fields)) (.record types false) := by
  rw [Fields.ofList_eq_self (h.names ▸ hdistinct)]
  exact .record hdistinct h

end Value

namespace Document

open Value (partInduction forall_parts_record)

variable {document : Json} {v : Value} {t : DataType}

/-- A document of a type whose values it tells apart reads as one of them. -/
theorem admits_toValue {s : FieldType} (hplain : s.isPlain = true)
    (h : s.documents document = true) : s.admits (toValue document) = true := by
  cases s with
  | boolean | text =>
      cases document <;> first | rfl | exact absurd h Bool.false_ne_true
  | int =>
      cases document with
      | int n =>
          obtain ⟨word, hword⟩ := Option.isSome_iff_exists.1 h
          rw [toValue, numberValue, hword]
          rfl
      | _ => exact absurd h Bool.false_ne_true
  | float =>
      cases document with
      | int n =>
          rw [toValue, numberValue]
          split <;> rfl
      | float x => rfl
      | _ => exact absurd h Bool.false_ne_true
  | _ => cases hplain

/-- A value of a type has a document of the type, or it is null. -/
theorem documents_ofValue {s : FieldType} (h : s.admits v = true) (htimes : v.timesExist = true)
    (hdocument : ofValue v = .ok document) : document = .null ∨ s.documents document = true := by
  cases v with
  | null =>
      cases hdocument
      exact .inl rfl
  | int n =>
      cases hdocument
      refine .inr ?_
      cases s with
      | int =>
          obtain ⟨word, hword, -⟩ := exists_wordOfInt? (fitsWord_toInt n)
          exact Option.isSome_iff_exists.2 ⟨word, hword⟩
      | any | float => rfl
      | _ => cases h
  | float x =>
      rw [ofValue] at hdocument
      split at hdocument
      · cases hdocument
        cases s <;> first | exact .inr rfl | cases h
      · cases hdocument
  | bytes octets =>
      cases hdocument
      refine .inr ?_
      cases s with
      | bytes => rw [FieldType.documents, toOctets_map]; rfl
      | any => rfl
      | _ => cases h
  | timestamp t =>
      cases hdocument
      refine .inr ?_
      cases s with
      | timestamp => rw [FieldType.documents, Timestamp.ofStoredText?_storedText htimes]; rfl
      | any => rfl
      | _ => cases h
  | bool b | text stored =>
      cases hdocument
      cases s <;> first | exact .inr rfl | cases h
  | _ => cases s <;> first | exact .inr rfl | cases h

/-- What is read off a document conforms as the document does. -/
theorem conforms_toValue (h : document.Conforms t) (ht : t.isDocumentType = true) :
    (toValue document).Conforms t := by
  induction document using Json.partInduction generalizing t with
  | step document ih =>
      cases h with
      | null s => exact Value.conforms_null ht
      | @scalar _ s h => exact .scalar ht (admits_toValue ht h)
      | @record members types hdistinct h =>
          obtain ⟨-, htypes⟩ := DataType.isDocumentType_record.1 ht
          rw [toValue, toFields_eq_map]
          refine .record hdistinct (h.map_left fun member hmember field hfield hconforms => ?_)
          exact ih member.2 (List.mem_map_of_mem hmember) hconforms
            (DataType.areDocumentTypes_iff.1 htypes field hfield)

/-- The document of a value conforms as the value does. -/
theorem conforms_ofValue (h : v.Conforms t) (hdocument : ofValue v = .ok document) :
    document.Conforms t := by
  induction v using partInduction generalizing t document with
  | step v ih =>
      cases h with
      | @scalar _ s hplain h =>
          -- Plain types have no timestamps, so none has to exist.
          have htimes : v.timesExist = true := by
            cases v <;> first | rfl | (cases s <;> cases hplain <;> cases h)
          rcases documents_ofValue h htimes hdocument with rfl | h
          · exact .null s
          · exact .scalar h
      | @record fields types hdistinct h =>
          rw [ofValue, map_ok_iff] at hdocument
          obtain ⟨members, hmembers, rfl⟩ := hdocument
          have hmade : Fields.Related (fun v member => ofValue v = .ok member) fields members :=
            Fields.related_iff_forall₂.2 (ofFields_ok_iff.1 hmembers)
          refine .record hdistinct (h.replace hmade fun field hfield t member ht hmember => ?_)
          exact ih field.2 (List.mem_map_of_mem hfield) ht hmember

theorem conforms_ofFields {values : Fields Value} {members : Fields Json}
    {types : Fields DataType} (h : Fields.Related Value.Conforms values types)
    (hmembers : ofFields values = .ok members) : Fields.Related Json.Conforms members types := by
  have hmade : Fields.Related (fun v member => ofValue v = .ok member) values members :=
    Fields.related_iff_forall₂.2 (ofFields_ok_iff.1 hmembers)
  exact h.replace hmade fun _ _ _ _ ht hmember => conforms_ofValue ht hmember

/-- A value that conforms to a type is read off its document as one that does. -/
theorem conforms_stored (h : v.Conforms t) (hdocument : ofValue v = .ok document) :
    (toValue document).Conforms t :=
  conforms_toValue (conforms_ofValue h hdocument) h.isDocumentType

theorem timesExist_coerce (s : FieldType) (v : Value) :
    (coerce s v).timesExist = v.timesExist := by
  cases s with
  | float => cases v <;> rfl
  | _ => rfl

/-- What is stored for a row conforms to the properties of its schema. -/
theorem conforms_ofRow {schema : Schema} {row : Row}
    (htimes : ∀ property ∈ schema.properties, (valueIn row property.name).timesExist = true)
    (h : ofRow schema row = .ok document) :
    document.Conforms (.record (DataType.properties schema) false) := by
  obtain ⟨rfl, hall⟩ := ofRow_ok_iff.1 h
  refine .record ?_ (Fields.related_iff_forall₂.2 ?_)
  · rw [DataType.properties, Fields.names, List.map_map]
    exact schema.distinct
  · rw [DataType.properties, List.forall₂_map_left_iff, List.forall₂_map_right_iff,
      List.forall₂_same]
    intro property hproperty
    obtain ⟨-, hadmits, hvalue⟩ := memberOf_ok_iff.1 (hall property hproperty)
    have hstored : (coerce property.type (valueIn row property.name)).timesExist = true := by
      rw [timesExist_coerce]
      exact htimes property hproperty
    refine ⟨rfl, ?_⟩
    rcases documents_ofValue (admits_coerce hadmits) hstored hvalue with hnull | hdocument
    · rw [hnull]
      exact .null _
    · exact .scalar hdocument

end Document

end RecordAlgebra
