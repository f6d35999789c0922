import RecordAlgebra.Source.Documents
import RecordAlgebra.Proofs.Document.Stored

/-!
# Documents and their identity

A document is stored under the text of its identity if what it says gives the same text
again. Then equal identities have the same text, as long as the identity is in the form in
which it is stored.
-/

namespace RecordAlgebra

/-- The properties by which records are told apart: the identity, or all of them if there is
none. -/
def Schema.keyProperties (schema : Schema) : List Property :=
  if schema.hasIdentity then schema.identityProperties else schema.properties

theorem Schema.mem_of_mem_keyProperties {schema : Schema} {property : Property}
    (h : property ∈ schema.keyProperties) : property ∈ schema.properties := by
  rw [keyProperties] at h
  split at h
  · exact (List.mem_filter.1 h).1
  · exact h

namespace Document

/-- What a row says of the identity. -/
def keyRow (schema : Schema) (row : Row) : Fields Value :=
  schema.keyProperties.map fun property => (property.name, valueIn row property.name)

/-- The documents have rows with equal identities. -/
def SameIdentity (schema : Schema) (first second : Json) : Prop :=
  ∃ left right, toRow schema first = .ok left ∧ toRow schema second = .ok right ∧
    Value.equal ItemAccess.detached.equal (.list ((keyRow schema left).map Prod.snd))
      (.list ((keyRow schema right).map Prod.snd)) = .ok true

/-- The document of a row is kept under the text of its identity. -/
structure IsKeptAs (schema : Schema) (key : String) (document : Json) (row : Row) : Prop where
  read : toRow schema document = .ok row
  whole : row = schema.names.map fun name => (name, valueIn row name)
  stored : ofRow schema row = .ok document
  key : Source.Documents.keyText (keyRow schema row) = .ok key
  complete : schema.hasIdentity = true → ∀ field ∈ keyRow schema row, field.2.isNull = false
  inForm : ∀ property ∈ schema.keyProperties,
    (valueIn row property.name).isInForm property.type = true

variable {schema : Schema} {row : Row} {document : Json} {key : String}

theorem coerce_of_isInForm {type : FieldType} {v : Value} (h : v.isInForm type = true) :
    coerce type v = v := by
  cases type <;> cases v <;> simp_all [coerce, Value.isInForm]

theorem keyRow_storedRow (hform : ∀ property ∈ schema.keyProperties,
    (valueIn row property.name).isInForm property.type = true) :
    keyRow schema (storedRow schema row) = keyRow schema row := by
  apply List.map_congr_left
  intro property hproperty
  rw [valueIn_storedRow (Schema.mem_of_mem_keyProperties hproperty),
    coerce_of_isInForm (hform property hproperty)]

theorem isKeptAs_of_ofRow (hplain : ∀ property ∈ schema.properties, property.type ≠ .any)
    (htimes : ∀ property ∈ schema.properties, (valueIn row property.name).timesExist = true)
    (hform : ∀ property ∈ schema.keyProperties,
      (valueIn row property.name).isInForm property.type = true)
    (hcomplete : schema.hasIdentity = true → ∀ field ∈ keyRow schema row, field.2.isNull = false)
    (hkey : Source.Documents.keyText (keyRow schema row) = .ok key)
    (hdocument : ofRow schema row = .ok document) :
    IsKeptAs schema key document (storedRow schema row) where
  read := toRow_ofRow hplain htimes hdocument
  whole := by
    rw [Schema.names, List.map_map]
    apply List.map_congr_left
    intro property hproperty
    rw [Function.comp_apply, valueIn_storedRow hproperty]
  stored := ofRow_storedRow hdocument
  key := by rw [keyRow_storedRow hform, hkey]
  complete := by rwa [keyRow_storedRow hform]
  inForm property hproperty := by
    have hsame := hform property hproperty
    rwa [valueIn_storedRow (Schema.mem_of_mem_keyProperties hproperty), coerce_of_isInForm hsame]

theorem ofValues_cons_ok {v : Value} {vs : List Value} {documents : List Json}
    (h : ofValues (v :: vs) = .ok documents) :
    ∃ first rest, documents = first :: rest ∧ ofValue v = .ok first ∧ ofValues vs = .ok rest := by
  rw [ofValues] at h
  cases hfirst : ofValue v with
  | error e =>
      rw [hfirst] at h
      cases h
  | ok first =>
      cases hrest : ofValues vs with
      | error e =>
          rw [hfirst, hrest] at h
          cases h
      | ok rest =>
          rw [hfirst, hrest] at h
          cases h
          exact ⟨first, rest, rfl, rfl, rfl⟩

theorem equalElements_cons_true {items : ItemRef → ItemRef → Except Error Bool} {u v : Value}
    {us vs : List Value} (h : Value.equalElements items (u :: us) (v :: vs) = .ok true) :
    u.equal items v = .ok true ∧ Value.equalElements items us vs = .ok true := by
  rw [Value.equalElements] at h
  cases hequal : u.equal items v with
  | error e =>
      rw [hequal] at h
      cases h
  | ok same =>
      rw [hequal] at h
      cases same with
      | false => cases h
      | true => exact ⟨rfl, h⟩

/-- Lists of equal values of some properties have the same texts. -/
theorem printAll_eq_of_equal {items : ItemRef → ItemRef → Except Error Bool} {left right : Row}
    {properties : List Property} {first second : List Json}
    (hplain : ∀ property ∈ properties, property.type ≠ .any)
    (hleft : ∀ property ∈ properties, property.type.admits (valueIn left property.name) = true ∧
      (valueIn left property.name).isInForm property.type = true)
    (hright : ∀ property ∈ properties, property.type.admits (valueIn right property.name) = true ∧
      (valueIn right property.name).isInForm property.type = true)
    (hfirst : ofValues (properties.map fun property => valueIn left property.name) = .ok first)
    (hsecond : ofValues (properties.map fun property => valueIn right property.name) = .ok second)
    (hequal : Value.equalElements items (properties.map fun property => valueIn left property.name)
      (properties.map fun property => valueIn right property.name) = .ok true) :
    Json.printAll first = Json.printAll second := by
  induction properties generalizing first second with
  | nil =>
      cases hfirst
      cases hsecond
      rfl
  | cons property rest ih =>
      obtain ⟨hplain₁, hplain⟩ := List.forall_mem_cons.1 hplain
      obtain ⟨hleft₁, hleft⟩ := List.forall_mem_cons.1 hleft
      obtain ⟨hright₁, hright⟩ := List.forall_mem_cons.1 hright
      obtain ⟨document, documents, rfl, hdocument, hdocuments⟩ := ofValues_cons_ok hfirst
      obtain ⟨document', documents', rfl, hdocument', hdocuments'⟩ := ofValues_cons_ok hsecond
      obtain ⟨hequal₁, hequal⟩ := equalElements_cons_true hequal
      rw [Json.printAll, Json.printAll, ih hplain hleft hright hdocuments hdocuments' hequal,
        print_eq_of_equal hplain₁ hleft₁.1 hright₁.1 hleft₁.2 hright₁.2 hdocument hdocument' hequal₁]

theorem keyText_ok {fields : Fields Value} (h : Source.Documents.keyText fields = .ok key) :
    ∃ documents, ofValues (fields.map Prod.snd) = .ok documents ∧ key = (Json.array documents).print := by
  rw [Source.Documents.keyText] at h
  cases hdocuments : ofValues (fields.map Prod.snd) with
  | error e =>
      rw [hdocuments] at h
      cases h
  | ok documents =>
      rw [hdocuments] at h
      cases h
      exact ⟨documents, rfl, rfl⟩

theorem IsKeptAs.admits (h : IsKeptAs schema key document row) {property : Property}
    (hproperty : property ∈ schema.keyProperties) :
    property.type.admits (valueIn row property.name) = true := by
  obtain ⟨-, hall⟩ := ofRow_ok_iff.1 h.stored
  exact (memberOf_ok_iff.1 (hall property (Schema.mem_of_mem_keyProperties hproperty))).2.1

/-- Documents with equal identities are kept under the same key. -/
theorem IsKeptAs.key_eq {other : String} {second : Json} {row' : Row}
    (hplain : ∀ property ∈ schema.properties, property.type ≠ .any)
    (h : IsKeptAs schema key document row) (h' : IsKeptAs schema other second row')
    (hsame : SameIdentity schema document second) : key = other := by
  obtain ⟨left, right, hleft, hright, hequal⟩ := hsame
  cases h.read.symm.trans hleft
  cases h'.read.symm.trans hright
  obtain ⟨documents, hdocuments, rfl⟩ := keyText_ok h.key
  obtain ⟨documents', hdocuments', rfl⟩ := keyText_ok h'.key
  rw [keyRow, List.map_map] at hdocuments hdocuments'
  have helements : Value.equalElements ItemAccess.detached.equal
      (schema.keyProperties.map fun property => valueIn row property.name)
      (schema.keyProperties.map fun property => valueIn row' property.name) = .ok true := by
    rw [Value.equal, keyRow, keyRow, List.map_map, List.map_map] at hequal
    simpa [Function.comp_def] using hequal
  have htexts := printAll_eq_of_equal
    (fun property hproperty => hplain property (Schema.mem_of_mem_keyProperties hproperty))
    (fun property hproperty => ⟨h.admits hproperty, h.inForm property hproperty⟩)
    (fun property hproperty => ⟨h'.admits hproperty, h'.inForm property hproperty⟩)
    hdocuments hdocuments' helements
  rw [Json.print, Json.print, htexts]

end Document

end RecordAlgebra
