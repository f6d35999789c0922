import RecordAlgebra.Plan.Operand
import RecordAlgebra.Proofs.Datum.Equality
import RecordAlgebra.Proofs.Document.Told
import RecordAlgebra.Proofs.Typing.Derivation

/-!
# What documents stand for

Between two stages of a pipeline every document stands for an element of the sequence that
the pipeline takes the place of. A stored document stands for an item with the fields that
were stored, any other document for the datum that it was made of or that it reads as. So the
fields that the shape of the documents lists are found in both, as long as documents tell
their values apart.
-/

namespace RecordAlgebra

theorem map_ok_iff {ε α β : Type} {x : Except ε α} {f : α → β} {b : β} :
    x.map f = .ok b ↔ ∃ a, x = .ok a ∧ f a = b := by
  cases x <;> simp [Except.map]

theorem exists_mem_of_forall₂ {α β : Type} {R : α → β → Prop} {as : List α} {bs : List β}
    (h : List.Forall₂ R as bs) {b : β} (hb : b ∈ bs) : ∃ a ∈ as, R a b := by
  induction h with
  | nil => cases hb
  | cons hab _ ih =>
      cases hb with
      | head => exact ⟨_, List.mem_cons_self, hab⟩
      | tail _ hb =>
          obtain ⟨a, ha, hR⟩ := ih hb
          exact ⟨a, List.mem_cons_of_mem _ ha, hR⟩

namespace Document

/-- The document is stored for the row, which shows these fields. Fields of plain types are
read off the document itself. -/
structure Stores (schema : Schema) (document : Json) (row : Row) (ds : Fields Datum) : Prop where
  reads : toRow schema document = .ok row
  object : ∃ members, document = .object members ∧ Fields.names members = schema.names
  names : ds.names = schema.names
  fields : ∀ property ∈ schema.properties, ∃ d, ds.get? property.name = some d ∧
    property.type.admits d.bare = true ∧
    (property.type.isPlain = true → fieldValue document property.name = d.bare)
  shows : ∀ w : World, List.Forall₂ w.ShowsField row ds

/-- The document was made of the datum, or reads as it. -/
def Says (document : Json) (d : Datum) : Prop :=
  ofValue d.bare = .ok document ∨ toValue document = d.bare

variable {document : Json} {d : Datum} {ds : Fields Datum} {name : String}

theorem toValues_eq_map (documents : List Json) : toValues documents = documents.map toValue := by
  induction documents with
  | nil => rfl
  | cons document rest ih => rw [toValues, ih, List.map_cons]

theorem ofValues_ok_iff {vs : List Value} {documents : List Json} :
    ofValues vs = .ok documents ↔
      List.Forall₂ (fun v member => ofValue v = .ok member) vs documents := by
  induction vs generalizing documents with
  | nil => simp [ofValues, eq_comm]
  | cons v rest ih =>
      rw [ofValues, bind_ok_iff, List.forall₂_cons_left_iff]
      simp only [bind_ok_iff, ih]
      constructor
      · rintro ⟨document, hdocument, others, hothers, h⟩
        cases h
        exact ⟨document, others, hdocument, hothers, rfl⟩
      · rintro ⟨document, others, hdocument, hothers, rfl⟩
        exact ⟨document, hdocument, others, hothers, rfl⟩

theorem ofFields_ok_iff {fields : Fields Value} {members : Fields Json} :
    ofFields fields = .ok members ↔
      List.Forall₂ (fun field member => field.1 = member.1 ∧ ofValue field.2 = .ok member.2)
        fields members := by
  induction fields generalizing members with
  | nil => simp [ofFields, eq_comm]
  | cons field rest ih =>
      obtain ⟨name, v⟩ := field
      rw [ofFields, bind_ok_iff, List.forall₂_cons_left_iff]
      simp only [bind_ok_iff, ih]
      constructor
      · rintro ⟨document, hdocument, others, hothers, h⟩
        cases h
        exact ⟨(name, document), others, ⟨rfl, hdocument⟩, hothers, rfl⟩
      · rintro ⟨⟨_, document⟩, others, ⟨rfl, hdocument⟩, hothers, rfl⟩
        exact ⟨document, hdocument, others, hothers, rfl⟩

theorem get?_ofFields {fields : Fields Value} {members : Fields Json}
    (h : ofFields fields = .ok members) {v : Value} (hv : fields.get? name = some v) :
    ∃ member, members.get? name = some member ∧ ofValue v = .ok member :=
  Fields.exists_get?_right (R := fun v member => ofValue v = .ok member) (ofFields_ok_iff.1 h) hv

/-- What is told reads back, even if the document was made of it. -/
theorem Says.reads (h : Says document d) (hd : d.IsTold) : toValue document = d.bare :=
  h.elim (toValue_of_ofValue hd) id

/-- A field that is told is found in the document of its record. -/
theorem Says.fieldValue (h : Says document (.record ds)) (hd : ds.get? name = some d)
    (htold : d.IsTold) : fieldValue document name = d.bare := by
  have hfield : Fields.get? (Datum.bareFields ds) name = some d.bare := by
    rw [Datum.bareFields_eq_map, Fields.get?_map_snd, hd]
    rfl
  rcases h with hmade | hread
  · rw [Datum.bare, ofValue] at hmade
    cases hmembers : ofFields (Datum.bareFields ds) with
    | error e =>
        rw [hmembers] at hmade
        cases hmade
    | ok members =>
        rw [hmembers] at hmade
        cases hmade
        obtain ⟨member, hmember, hvalue⟩ := get?_ofFields hmembers hfield
        rw [Document.fieldValue, Json.member?, hmember]
        exact toValue_of_ofValue htold hvalue
  · obtain ⟨members, rfl, hmembers⟩ := object_of_toValue hread
    have hget : (Fields.get? members name).map toValue = some d.bare := by
      rw [← get?_toFields, hmembers, hfield]
    obtain ⟨member, hmember, hvalue⟩ := Option.map_eq_some_iff.1 hget
    rw [Document.fieldValue, Json.member?, hmember]
    exact hvalue

theorem Stores.fits {schema : Schema} {row : Row} (h : Stores schema document row ds)
    {source : SourceRef} (hsource : source.schema = schema) :
    (Datum.item source ds).Fits (.item schema) := by
  subst hsource
  refine .item (Schema.same_refl _) h.names fun property hproperty => ?_
  obtain ⟨d, hd, hadmits, -⟩ := h.fields property hproperty
  exact ⟨d, hd, hadmits⟩

/-- A stored document whose fields are all plain reads as the record of its fields. -/
theorem Stores.toValue {schema : Schema} {row : Row} (h : Stores schema document row ds)
    (hplain : ∀ property ∈ schema.properties, property.type.isPlain = true) :
    Document.toValue document = .record (Datum.bareFields ds) := by
  obtain ⟨members, rfl, hmembers⟩ := h.object
  rw [Document.toValue]
  congr 1
  have hdistinct : (Fields.names (toFields members)).Nodup := by
    rw [names_toFields, hmembers]
    exact schema.distinct
  have hbare : Fields.names (Datum.bareFields ds) = schema.names := by
    rw [Datum.bareFields_eq_map, Fields.names, List.map_map]
    exact h.names
  refine Fields.eq_of_get? hdistinct ?_ fun name hname => ?_
  · rw [names_toFields, hmembers, hbare]
  · have hlisted : name ∈ Fields.names members := by
      rw [names_toFields] at hname
      exact hname
    rw [hmembers] at hlisted
    obtain ⟨property, hproperty, rfl⟩ := List.mem_map.1 hlisted
    obtain ⟨d, hd, -, hvalue⟩ := h.fields property hproperty
    obtain ⟨member, hmember⟩ := Fields.exists_get?_of_mem_names (hmembers ▸ hlisted)
    have hfield := hvalue (hplain property hproperty)
    rw [fieldValue, Json.member?, hmember] at hfield
    rw [get?_toFields, hmember, Datum.bareFields_eq_map, Fields.get?_map_snd, hd]
    exact congrArg some hfield

section Rows

variable {schema : Schema} {row : Row}

theorem isData_toValue {v : Value} (h : v.IsData) {document : Json}
    (hdocument : ofValue v = .ok document) : (toValue document).IsData := by
  induction h generalizing document with
  | @single v hsingle =>
      cases v with
      | int n =>
          cases hdocument
          rw [toValue, numberValue_toInt]
          exact .single rfl
      | float x =>
          rw [ofValue] at hdocument
          split at hdocument
          · cases hdocument
            exact .single rfl
          · cases hdocument
      | bytes octets =>
          cases hdocument
          rw [toValue, toValues_eq_map]
          refine .list ?_
          simp only [List.map_map, List.forall_mem_map]
          intro octet _
          rw [Function.comp_apply, toValue, numberValue]
          split <;> exact .single rfl
      | null | bool b | text s | timestamp t =>
          cases hdocument
          exact .single rfl
      | list vs | record fields | item ref => cases hsingle
  | @list vs _ ih =>
      obtain ⟨documents, hdocuments, rfl⟩ := map_ok_iff.1 hdocument
      rw [toValue, toValues_eq_map]
      refine .list (List.forall_mem_map.2 fun member hmember => ?_)
      obtain ⟨v, hv, hvalue⟩ := exists_mem_of_forall₂ (ofValues_ok_iff.1 hdocuments) hmember
      exact ih v hv hvalue
  | @record fields hdistinct _ ih =>
      obtain ⟨members, hmembers, rfl⟩ := map_ok_iff.1 hdocument
      have hfields := ofFields_ok_iff.1 hmembers
      rw [toValue, toFields_eq_map]
      refine .record ?_ (List.forall_mem_map.2 fun member hmember => ?_)
      · have hnames : Fields.names fields = Fields.names members :=
          map_eq_map_of_forall₂ (hfields.imp fun _ _ h => h.1)
        rw [hnames] at hdistinct
        rw [Fields.names, List.map_map]
        exact hdistinct
      · obtain ⟨field, hfield, -, hvalue⟩ := exists_mem_of_forall₂ hfields hmember
        exact ih field hfield hvalue

/-- The member of a stored document tells the value of its property, which is admitted. -/
theorem member_read {type : FieldType} {v : Value} (hadmits : type.admits v = true)
    (hdata : v.IsData) (htimes : v.timesExist = true) {member : Json}
    (h : ofValue (coerce type v) = .ok member) :
    ∃ u, toTyped (.scalar type) member = .ok u ∧ type.admits u = true ∧ u.IsData ∧
      (type.isPlain = true → toValue member = u) := by
  by_cases hany : type = .any
  · subst hany
    refine ⟨toValue member, ?_, ?_, isData_toValue hdata h, nofun⟩
    · cases member <;> rfl
    · cases toValue member <;> rfl
  · have hsingle : (coerce type v).isSingle = true := by
      cases type <;> first | exact (hany rfl).elim | cases v <;> first | rfl | cases hadmits
    exact ⟨coerce type v, toTyped_ofValue hany hadmits htimes h, admits_coerce hadmits,
      .single hsingle, fun hplain =>
        (Value.tells_of_admits hplain (admits_coerce hadmits)).reads h⟩

/-- Every document that a row is stored as, is stored for a row. -/
theorem exists_stores_of_ofRow
    (hdata : ∀ property ∈ schema.properties, (valueIn row property.name).IsData)
    (htimes : ∀ property ∈ schema.properties, (valueIn row property.name).timesExist = true)
    (h : ofRow schema row = .ok document) : ∃ stored ds, Stores schema document stored ds := by
  obtain ⟨rfl, hall⟩ := ofRow_ok_iff.1 h
  have hmember (property : Property) (hproperty : property ∈ schema.properties) :
      ∃ u, toTyped (.scalar property.type) (storedMember row property).2 = .ok u ∧
        property.type.admits u = true ∧ u.IsData ∧
          (property.type.isPlain = true → toValue (storedMember row property).2 = u) := by
    obtain ⟨-, hadmits, hvalue⟩ := memberOf_ok_iff.1 (hall property hproperty)
    exact member_read hadmits (hdata property hproperty) (htimes property hproperty) hvalue
  let read (property : Property) : Value :=
    (toTyped (.scalar property.type) (storedMember row property).2).toOption.getD .null
  have hread (property : Property) (hproperty : property ∈ schema.properties) :
      toTyped (.scalar property.type) (storedMember row property).2 = .ok (read property) ∧
        property.type.admits (read property) = true ∧ (read property).IsData ∧
          (property.type.isPlain = true →
            toValue (storedMember row property).2 = read property) := by
    obtain ⟨u, hu, hrest⟩ := hmember property hproperty
    have hu' : read property = u := by simp only [read, hu]; rfl
    rw [hu']
    exact ⟨hu, hrest⟩
  have names {α : Type} (f : Property → α) :
      Fields.names (schema.properties.map fun property => (property.name, f property)) =
        schema.names := by
    rw [Fields.names, List.map_map]
    rfl
  have get? {α : Type} (f : Property → α) {property : Property}
      (hproperty : property ∈ schema.properties) :
      Fields.get? (schema.properties.map fun property => (property.name, f property))
        property.name = some (f property) := by
    refine Fields.get?_eq_some_of_mem ?_
      (List.mem_map_of_mem (f := fun property => (property.name, f property)) hproperty)
    rw [names]
    exact schema.distinct
  refine ⟨schema.properties.map fun property => (property.name, read property),
    schema.properties.map fun property => (property.name, .ofValue (read property)), ?_, ?_, ?_,
    fun property hproperty => ?_, fun w => ?_⟩
  · refine mapM_eq_ok fun property hproperty => ?_
    rw [show Fields.get? (schema.properties.map (storedMember row)) property.name = _ from
      get? (fun property => (storedMember row property).2) hproperty]
    simp only
    rw [(hread property hproperty).1]
    rfl
  · exact ⟨_, rfl, names fun property => (storedMember row property).2⟩
  · exact names _
  · obtain ⟨-, hadmits, hdata, hplain⟩ := hread property hproperty
    refine ⟨_, get? _ hproperty, ?_, fun h => ?_⟩
    · rw [hdata.bare_ofValue]
      exact hadmits
    · rw [hdata.bare_ofValue, fieldValue, Json.member?,
        show Fields.get? (schema.properties.map (storedMember row)) property.name = _ from
          get? (fun property => (storedMember row property).2) hproperty]
      exact hplain h
  · rw [List.forall₂_map_left_iff, List.forall₂_map_right_iff, List.forall₂_same]
    exact fun property hproperty => ⟨rfl, (hread property hproperty).2.2.1.shows w⟩

end Rows

end Document

namespace Shape

/-- The document stands for the datum, where documents have this shape. -/
def Stands (ref : SourceRef) (document : Json) (d : Datum) : Shape → Prop
  | .stored type => type = .closed (DataType.properties ref.schema) ∧
      ∃ row ds, d = .item ref ds ∧ Document.Stores ref.schema document row ds
  | .object type => d.Fits (.ofRecordType type) ∧ Document.Says document d
  | .scalar type => d.Fits type ∧ Document.Says document d

variable {ref : SourceRef} {shape : Shape} {document : Json} {d : Datum} {name : String}
  {t : DataType}

theorem stands_ofType : (ofType t).Stands ref document d ↔ d.Fits t ∧ Document.Says document d := by
  cases t <;> exact .rfl

theorem stands_of_tells (h : (Document.toValue document).Tells t d) :
    (ofType t).Stands ref document d :=
  stands_ofType.2 ⟨h.fits, .inr h.bare.symm⟩

theorem tells_of_said (hfits : d.Fits t) (hsaid : Document.Says document d)
    (htold : t.isDocumentType = true) : (Document.toValue document).Tells t d :=
  ⟨(hsaid.reads (hfits.isTold htold)).symm, hfits, htold⟩

/-- A field that the shape lists. -/
theorem Stands.field (h : shape.Stands ref document d) (ht : shape.fieldType? name = some t) :
    ∃ part, d.field name = .ok part ∧ part.Fits t ∧
      (t.isDocumentType = true → (Document.fieldValue document name).Tells t part) := by
  cases shape with
  | stored type =>
      obtain ⟨rfl, row, ds, rfl, hstores⟩ := h
      obtain ⟨property, hproperty, rfl, rfl⟩ := DataType.get?_properties ht
      obtain ⟨part, hpart, hadmits, hvalue⟩ := hstores.fields property hproperty
      refine ⟨part, by rw [Datum.field, hpart], .scalar hadmits, fun hplain => ?_⟩
      exact ⟨(hvalue hplain).symm, .scalar hadmits, hplain⟩
  | object type =>
      obtain ⟨hfits, hsaid⟩ := h
      cases hfits with
      | @record ds _ _ hnames hdistinct present fits closed =>
          obtain ⟨part, hpart⟩ := present name t ht
          have hfield := fits name t part ht hpart
          refine ⟨part, by rw [Datum.field, hpart], hfield, fun htype => ?_⟩
          exact ⟨(hsaid.fieldValue hpart (hfield.isTold htype)).symm, hfield, htype⟩
  | scalar type => cases ht

theorem Stands.documentField (h : shape.Stands ref document d)
    (ht : shape.documentField? name = some t) :
    ∃ part, d.field name = .ok part ∧ (Document.fieldValue document name).Tells t part := by
  obtain ⟨ht, htype⟩ := Option.filter_eq_some_iff.1 ht
  obtain ⟨part, hpart, -, hvalue⟩ := h.field ht
  exact ⟨part, hpart, hvalue htype⟩

/-- A field of single values that documents tell apart. -/
theorem Stands.plainField (h : shape.Stands ref document d) (ht : shape.plainField? name = some t) :
    ∃ s part, t = .scalar s ∧ s.isPlain = true ∧ d.field name = .ok part ∧
      (Document.fieldValue document name).Tells (.scalar s) part := by
  obtain ⟨ht, hplain⟩ := Option.filter_eq_some_iff.1 ht
  obtain ⟨part, hpart, hvalue⟩ := h.documentField ht
  cases t with
  | scalar s => exact ⟨s, part, rfl, hplain, hpart, hvalue⟩
  | _ => cases hplain

theorem isPlain_of_properties {schema : Schema}
    (h : DataType.isDocumentType.areDocumentTypes (DataType.properties schema) = true) :
    ∀ property ∈ schema.properties, property.type.isPlain = true := by
  intro property hproperty
  have hfield := DataType.areDocumentTypes_iff.1 h (property.name, .scalar property.type)
    (List.mem_map_of_mem (f := fun p : Property => (p.name, DataType.scalar p.type)) hproperty)
  exact hfield

/-- An element that documents tell apart as a whole. -/
theorem Stands.whole (h : shape.Stands ref document d) {type : RecordType}
    (htype : shape.wholeElement? = some type) :
    ∃ ds, (Document.toValue document).TellsFields type d ds := by
  cases shape with
  | stored stored =>
      obtain ⟨rfl, row, ds, rfl, hstores⟩ := h
      simp only [wholeElement?, recordType?, Option.bind_eq_bind, Option.bind_some,
        Option.ite_none_right_eq_some, Option.some.injEq] at htype
      obtain ⟨hwhole, rfl⟩ := htype
      obtain ⟨-, hfields⟩ := DataType.isDocumentType_record.1 hwhole
      obtain ⟨-, es, hes, hfit⟩ := Datum.fieldsFit_of_fits (l := .item ref.schema) rfl
        (hstores.fits rfl) rfl
      cases hes
      exact ⟨ds, rfl, hstores.toValue (isPlain_of_properties hfields), hfit, rfl, hfields⟩
  | object other =>
      simp only [wholeElement?, recordType?, Option.bind_eq_bind, Option.bind_some,
        Option.ite_none_right_eq_some, Option.some.injEq] at htype
      obtain ⟨hwhole, rfl⟩ := htype
      obtain ⟨ds, -, hfields⟩ := Value.Tells.fields (tells_of_said h.1 h.2 hwhole)
      exact ⟨ds, hfields⟩
  | scalar type => cases htype

/-- An element that is no item. -/
theorem Stands.root (h : shape.Stands ref document d) {operand : Pipeline.Operand}
    (hroot : shape.rootOperand? = some (operand, t)) :
    operand = .root ∧ (Document.toValue document).Tells t d := by
  cases shape with
  | stored type => cases hroot
  | object type | scalar type =>
      simp only [rootOperand?, Option.ite_none_right_eq_some, Option.some.injEq,
        Prod.mk.injEq] at hroot
      obtain ⟨htold, rfl, rfl⟩ := hroot
      exact ⟨rfl, tells_of_said h.1 h.2 htold⟩

section Tasks

/-- Tasks that are done or not, unless that is unknown. -/
def tasks : SourceRef where
  id := 0
  name := "tasks"
  schema := { name := "Task", properties := [⟨"done", .boolean, false⟩], distinct := by simp }

def unknownTask : Value := .item { cell := 0, source := tasks }

/-- A state with one task, of which it is unknown whether it is done. -/
def taskState : World := { cells := #[{ source := tasks, slots := [("done", .resolved .null)] }] }

theorem shows_unknownTask : taskState.Shows unknownTask (.item tasks [("done", .null)]) :=
  World.shows_item.2 ⟨rfl, [("done", .null)], rfl, rfl, .cons ⟨rfl, rfl⟩ .nil⟩

theorem stands_unknownTask : (ofSchema tasks.schema).Stands tasks (.object [("done", .null)])
    (.item tasks [("done", .null)]) := by
  refine ⟨rfl, [("done", .null)], _, rfl, rfl, ⟨_, rfl, rfl⟩, rfl, fun property hproperty => ?_,
    fun _ => .cons ⟨rfl, rfl⟩ .nil⟩
  obtain rfl := List.mem_singleton.1 hproperty
  exact ⟨.null, rfl, rfl, fun _ => rfl⟩

end Tasks

end Shape

end RecordAlgebra
