import RecordAlgebra.Plan.Shape
import RecordAlgebra.Proofs.Document.Stored
import RecordAlgebra.Proofs.Typing.Mappings

/-!
# Values that documents tell apart

A value of single plain values and records of such is all that its document says: it
reads back from the document, and the datum that it stands for is known from the value
alone. Bytes and timestamps are not like that, because they read back as something else.
-/

namespace RecordAlgebra

namespace DataType

theorem areDocumentTypes_iff {fields : List (String × DataType)} :
    isDocumentType.areDocumentTypes fields = true ↔
      ∀ field ∈ fields, field.2.isDocumentType = true := by
  induction fields with
  | nil => simp [isDocumentType.areDocumentTypes]
  | cons field rest ih =>
      obtain ⟨name, type⟩ := field
      simp [isDocumentType.areDocumentTypes, ih]

theorem isDocumentType_of_get? {fields : Fields DataType}
    (h : isDocumentType.areDocumentTypes fields = true) {name : String} {t : DataType}
    (ht : fields.get? name = some t) : t.isDocumentType = true :=
  areDocumentTypes_iff.1 h _ (Fields.mem_of_get? ht)

theorem isDocumentType_record {fields : List (String × DataType)} {isOpen : Bool} :
    (DataType.record fields isOpen).isDocumentType = true ↔
      isOpen = false ∧ isDocumentType.areDocumentTypes fields = true := by
  rw [isDocumentType, Bool.and_eq_true, Bool.not_eq_true']

end DataType

namespace Datum

/-- Whether the datum is a single value that its document tells apart. -/
def isPlain : Datum → Bool
  | .null | .bool _ | .int _ | .float _ | .text _ => true
  | _ => false

/-- The document of the datum tells it apart. -/
inductive IsTold : Datum → Prop
  | single {d : Datum} : d.isPlain = true → IsTold d
  | record {ds : Fields Datum} : (∀ field ∈ ds, IsTold field.2) → IsTold (.record ds)

theorem isPlain_of_admits {s : FieldType} (hs : s.isPlain = true) {d : Datum}
    (h : s.admits d.bare = true) : d.isPlain = true := by
  cases s <;> cases hs <;> cases d <;> first | rfl | cases h

theorem Fits.isTold {d : Datum} {t : DataType} (h : d.Fits t) (ht : t.isDocumentType = true) :
    d.IsTold := by
  induction h with
  | scalar hadmits => exact .single (isPlain_of_admits ht hadmits)
  | list => cases ht
  | @record ds fields isOpen hnames hdistinct present fits closed ih =>
      obtain ⟨hopen, hfields⟩ := DataType.isDocumentType_record.1 ht
      refine .record fun field hfield => ?_
      have hname : field.1 ∈ Fields.names fields :=
        closed hopen field.1 (List.mem_map_of_mem hfield)
      obtain ⟨type, htype⟩ := Fields.exists_get?_of_mem_names hname
      exact ih field.1 type field.2 htype (Fields.get?_eq_some_of_mem hnames hfield)
        (DataType.isDocumentType_of_get? hfields htype)
  | item => cases ht

theorem IsTold.ofValue_bare {d : Datum} (h : d.IsTold) : ofValue d.bare = d := by
  induction h with
  | @single d hplain => cases d <;> first | rfl | cases hplain
  | @record ds _ ih =>
      have hfields : (ds.map fun field => (field.1, ofValue field.2.bare)) = ds.map id :=
        List.map_congr_left fun field hfield => Prod.ext rfl (ih field hfield)
      simp only [bare, ofValue, ofFields_eq_map, bareFields_eq_map, List.map_map,
        Function.comp_def, hfields, List.map_id]

end Datum

namespace Document

theorem toFields_eq_map (members : List (String × Json)) :
    toFields members = members.map fun member => (member.1, toValue member.2) := by
  induction members with
  | nil => rfl
  | cons member rest ih => rw [toFields, ih, List.map_cons]

theorem get?_toFields (members : Fields Json) (name : String) :
    Fields.get? (toFields members) name = (members.get? name).map toValue := by
  rw [toFields_eq_map, Fields.get?_map_snd]

theorem names_toFields (members : Fields Json) :
    Fields.names (toFields members) = members.names := by
  rw [toFields_eq_map, Fields.names, List.map_map]
  rfl

/-- Only an object reads as a record. -/
theorem object_of_toValue {document : Json} {fields : Fields Value}
    (h : toValue document = .record fields) :
    ∃ members, document = .object members ∧ toFields members = fields := by
  cases document with
  | object members =>
      rw [toValue] at h
      cases h
      exact ⟨members, rfl, rfl⟩
  | int n =>
      rw [toValue, numberValue] at h
      split at h <;> cases h
  | _ => cases h

/-- The document of a datum that it tells apart reads back. -/
theorem toValue_of_ofValue {d : Datum} (hd : d.IsTold) {document : Json}
    (h : ofValue d.bare = .ok document) : toValue document = d.bare := by
  induction hd generalizing document with
  | @single d hplain =>
      cases d with
      | int n =>
          cases h
          exact numberValue_toInt n
      | float x =>
          rw [Datum.bare, ofValue] at h
          split at h
          · cases h
            rfl
          · cases h
      | null | bool b | text s =>
          cases h
          rfl
      | _ => cases hplain
  | @record ds _ ih =>
      have members {ds : Fields Datum} {found : List (String × Json)}
          (ih : ∀ field ∈ ds, ∀ document, ofValue field.2.bare = .ok document →
            toValue document = field.2.bare)
          (h : ofFields (Datum.bareFields ds) = .ok found) :
          toFields found = Datum.bareFields ds := by
        induction ds generalizing found with
        | nil =>
            cases h
            rfl
        | cons field rest ihrest =>
            obtain ⟨name, d⟩ := field
            obtain ⟨hfirst, hrest⟩ := List.forall_mem_cons.1 ih
            rw [Datum.bareFields, ofFields] at h
            cases hd : ofValue d.bare with
            | error e =>
                rw [hd] at h
                cases h
            | ok document =>
                cases hds : ofFields (Datum.bareFields rest) with
                | error e =>
                    rw [hd, hds] at h
                    cases h
                | ok documents =>
                    rw [hd, hds] at h
                    cases h
                    rw [toFields, Datum.bareFields, hfirst document hd, ihrest hrest hds]
      rw [Datum.bare, ofValue] at h
      cases hmembers : ofFields (Datum.bareFields ds) with
      | error e =>
          rw [hmembers] at h
          cases h
      | ok found =>
          rw [hmembers] at h
          cases h
          rw [toValue, Datum.bare, members (fun field hfield document => ih field hfield) hmembers]

end Document

namespace Value

/-- The value alone tells the datum, which is of this type. -/
structure Tells (v : Value) (t : DataType) (d : Datum) : Prop where
  bare : d.bare = v
  fits : d.Fits t
  told : t.isDocumentType = true

namespace Tells

variable {v : Value} {t : DataType} {d : Datum}

theorem isTold (h : v.Tells t d) : d.IsTold := h.fits.isTold h.told

theorem reads (h : v.Tells t d) {document : Json} (hdocument : Document.ofValue v = .ok document) :
    Document.toValue document = v := by
  rw [← h.bare] at hdocument ⊢
  exact Document.toValue_of_ofValue h.isTold hdocument

/-- The document tells the same datum. -/
theorem stored (h : v.Tells t d) {document : Json}
    (hdocument : Document.ofValue v = .ok document) : (Document.toValue document).Tells t d := by
  rw [h.reads hdocument]
  exact h

theorem admits {s : FieldType} (h : v.Tells (.scalar s) d) : s.admits v = true := by
  rw [← h.bare]
  exact Datum.fits_scalar h.fits

theorem isPlain {s : FieldType} (h : v.Tells (.scalar s) d) : d.isPlain = true :=
  Datum.isPlain_of_admits h.told (Datum.fits_scalar h.fits)

theorem shows (h : v.Tells t d) (w : World) : w.Shows v d := by
  obtain ⟨rfl, hfits, htold⟩ := h
  induction hfits with
  | @scalar d s hadmits =>
      have hplain := Datum.isPlain_of_admits htold hadmits
      cases d <;> first | rfl | cases hplain
  | list => cases htold
  | @record ds fields isOpen hnames hdistinct present fits closed ih =>
      obtain ⟨hopen, hfields⟩ := DataType.isDocumentType_record.1 htold
      rw [Datum.bare, Datum.bareFields_eq_map]
      refine World.shows_record.2 ⟨?_, ?_⟩
      · rw [Fields.names, List.map_map]
        exact hnames
      · rw [List.forall₂_map_left_iff, List.forall₂_same]
        intro field hfield
        have hname : field.1 ∈ Fields.names fields :=
          closed hopen field.1 (List.mem_map_of_mem hfield)
        obtain ⟨type, htype⟩ := Fields.exists_get?_of_mem_names hname
        exact ⟨rfl, ih field.1 type field.2 htype (Fields.get?_eq_some_of_mem hnames hfield)
          (DataType.isDocumentType_of_get? hfields htype)⟩
  | item => cases htold

end Tells

/-- Single values of plain types tell their data. -/
theorem tells_of_admits {v : Value} {s : FieldType} (hs : s.isPlain = true)
    (h : s.admits v = true) : v.Tells (.scalar s) (.ofValue v) := by
  have hbare : (Datum.ofValue v).bare = v := by
    cases s <;> cases hs <;> cases v <;> first | rfl | cases h
  refine ⟨hbare, .scalar ?_, hs⟩
  rw [hbare]
  exact h

/-- The value alone tells the fields of a mapping, which are those of the type. -/
structure TellsFields (v : Value) (type : RecordType) (d : Datum) (ds : Fields Datum) : Prop where
  entries : d.entries = .ok ds
  bare : v = .record (Datum.bareFields ds)
  fits : Datum.FieldsFit ds type.fields
  closed : type.isOpen = false
  told : DataType.isDocumentType.areDocumentTypes type.fields = true

theorem Tells.fields {v : Value} {d : Datum} {type : RecordType}
    (h : v.Tells (.ofRecordType type) d) : ∃ ds, d = .record ds ∧ v.TellsFields type d ds := by
  obtain ⟨hbare, hfits, htold⟩ := h
  obtain ⟨hopen, hfields⟩ := DataType.isDocumentType_record.1 htold
  cases hfits with
  | @record ds _ _ hnames hdistinct present fits closed =>
      refine ⟨ds, rfl, rfl, hbare.symm, ⟨hnames, hdistinct, fun name t ht => ?_, closed hopen⟩,
        hopen, hfields⟩
      obtain ⟨part, hpart⟩ := present name t ht
      exact ⟨part, hpart, fits name t part ht hpart⟩

/-- A record tells its data if its fields do. -/
theorem tells_record {ds : Fields Datum} {fields : Fields DataType} (hfits : Datum.FieldsFit ds fields)
    (htold : DataType.isDocumentType.areDocumentTypes fields = true) :
    (Value.record (Datum.bareFields ds)).Tells (.record fields false) (.record ds) :=
  ⟨rfl, hfits.record, DataType.isDocumentType_record.2 ⟨rfl, htold⟩⟩

end Value

end RecordAlgebra
