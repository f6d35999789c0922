import RecordAlgebra.Proofs.Datum.Shown
import RecordAlgebra.Proofs.Typing.Join
import RecordAlgebra.Proofs.Value.Outcomes

/-!
# Values of derived types

A value fits a type as far as the type says anything: null fits every type, and
everything fits `any`. What an item holds is not looked at here. Instead some items
are known, and a value has to be made of known items only.
-/

namespace RecordAlgebra

namespace Value

/-- All items in the value are known, and no record in it names a field twice. -/
inductive Known (known : ItemRef → Prop) : Value → Prop
  | single {v : Value} : v.isSingle = true → Known known v
  | list {vs : List Value} : (∀ v ∈ vs, Known known v) → Known known (.list vs)
  | record {fields : Fields Value} : (Fields.names fields).Nodup →
      (∀ field ∈ fields, Known known field.2) → Known known (.record fields)
  | item {ref : ItemRef} : known ref → Known known (.item ref)

/-- A known value that is of the type as far as it is null or the type says so. -/
inductive Fits (known : ItemRef → Prop) : Value → DataType → Prop
  | null (t : DataType) : Fits known .null t
  | any {v : Value} : v.Known known → Fits known v .any
  | scalar {v : Value} {s : FieldType} :
      v.isSingle = true → s.admits v = true → Fits known v (.scalar s)
  | list {vs : List Value} {t : DataType} :
      (∀ v ∈ vs, Fits known v t) → Fits known (.list vs) (.list t)
  | record {fields : Fields Value} {types : Fields DataType} {isOpen : Bool} :
      (Value.record fields).Known known → (Fields.names types).Nodup →
        (∀ name t, types.get? name = some t → ∃ v, fields.get? name = some v) →
          (∀ name t v, types.get? name = some t → fields.get? name = some v → Fits known v t) →
            (isOpen = false → ∀ name ∈ Fields.names fields, name ∈ Fields.names types) →
              Fits known (.record fields) (.record types isOpen)
  | item {ref : ItemRef} {schema : Schema} :
      ref.schema.same schema = true → known ref → Fits known (.item ref) (.item schema)

variable {known : ItemRef → Prop} {v u r : Value} {t : DataType}

section Known

theorem Known.elements {vs : List Value} (h : (Value.list vs).Known known) :
    ∀ v ∈ vs, v.Known known := by
  cases h with
  | single h => cases h
  | list h => exact h

theorem Known.fields {fields : Fields Value} (h : (Value.record fields).Known known) :
    (Fields.names fields).Nodup ∧ ∀ field ∈ fields, field.2.Known known := by
  cases h with
  | single h => cases h
  | record hnames h => exact ⟨hnames, h⟩

theorem Known.ref {ref : ItemRef} (h : (Value.item ref).Known known) : known ref := by
  cases h with
  | single h => cases h
  | item h => exact h

theorem Known.get? {fields : Fields Value} (h : (Value.record fields).Known known) {name : String}
    (hv : fields.get? name = some v) : v.Known known :=
  h.fields.2 _ (Fields.mem_of_get? hv)

theorem Fits.isKnown (h : v.Fits known t) : v.Known known := by
  induction h with
  | null => exact .single rfl
  | any h => exact h
  | scalar hsingle => exact .single hsingle
  | list _ ih => exact .list ih
  | record h => exact h
  | item _ h => exact .item h

/-- Arithmetic makes no new items. -/
theorem known_of_apply {view : ItemRef → String} {op : ArithmeticOp} (hv : v.Known known)
    (hu : u.Known known) (h : apply view op v u = .ok r) : r.Known known := by
  by_cases lists : ∃ as bs, op = .add ∧ v = .list as ∧ u = .list bs
  · obtain ⟨as, bs, rfl, rfl, rfl⟩ := lists
    cases h
    refine .list fun v hv' => ?_
    exact (List.mem_append.1 hv').elim (hv.elements v) (hu.elements v)
  · refine .single (isSingle_of_apply (fun as bs hlists => lists ⟨as, bs, hlists⟩) h)

end Known

section Types

theorem Fits.of_same {a b : DataType} (h : v.Fits known a) (hsame : a.same b = true) :
    v.Fits known b := by
  induction h generalizing b with
  | null => exact .null b
  | @any v h =>
      cases b with
      | scalar s =>
          simp only [DataType.same, beq_iff_eq] at hsame
          subst hsame
          exact .any h
      | _ => simp [DataType.same] at hsame
  | @scalar v s hsingle h =>
      cases b with
      | scalar s' =>
          simp only [DataType.same, beq_iff_eq] at hsame
          exact .scalar hsingle (hsame ▸ h)
      | _ => simp [DataType.same] at hsame
  | list h ih =>
      cases b with
      | list t' => exact .list fun d hd => ih d hd hsame
      | _ => simp [DataType.same] at hsame
  | @record fields types isOpen hknown hdistinct present fits closed ih =>
      cases b with
      | record types' isOpen' =>
          simp only [DataType.same, Bool.and_eq_true, beq_iff_eq] at hsame
          obtain ⟨hfields, rfl⟩ := hsame
          have hsameNames := DataType.names_of_sameFields hfields
          refine .record hknown (hsameNames ▸ hdistinct) (fun name t ht => ?_)
            (fun name t v ht hv => ?_) fun hopen name hname => ?_
          · obtain ⟨a, ha, -⟩ := DataType.get?_of_sameFields hfields ht
            exact present name a ha
          · obtain ⟨a, ha, hat⟩ := DataType.get?_of_sameFields hfields ht
            exact ih name a v ha hv hat
          · rw [← hsameNames]
            exact closed hopen name hname
      | _ => simp [DataType.same] at hsame
  | item hschema hknown =>
      cases b with
      | item schema' => exact .item (Schema.same_trans hschema hsame) hknown
      | _ => simp [DataType.same] at hsame

theorem Fits.elements {vs : List Value} (h : (Value.list vs).Fits known (.list t)) :
    ∀ v ∈ vs, v.Fits known t := by
  cases h with
  | list h => exact h

theorem fits_null (h : v.Fits known .null) : v = .null := by
  cases h with
  | null => rfl
  | scalar _ h => cases v <;> first | rfl | cases h

theorem fits_float_of_int (h : v.Fits known .int) : v.Fits known .float := by
  cases h with
  | null => exact .null _
  | scalar hsingle h => exact .scalar hsingle (admits_float_of_int h)

theorem list_or_null (h : v.Fits known (.list t)) : v = .null ∨ ∃ vs, v = .list vs := by
  cases h with
  | null => exact .inl rfl
  | list => exact .inr ⟨_, rfl⟩

end Types

end Value

namespace DataType

variable {a b : DataType} {known : ItemRef → Prop} {v : Value}

/-- Values respect the order of types. -/
theorem Within.fits (hab : a.Within b) (h : v.Fits known a) : v.Fits known b := by
  induction hab generalizing v with
  | same hsame => exact h.of_same hsame
  | null =>
      rw [Value.fits_null h]
      exact .null _
  | any => exact .any h.isKnown
  | number => exact Value.fits_float_of_int h
  | list _ ih =>
      obtain rfl | ⟨vs, rfl⟩ := Value.list_or_null h
      · exact .null _
      · exact .list fun v hv => ih (h.elements v hv)

end DataType

namespace Value

variable {known : ItemRef → Prop} {v : Value} {t : DataType}

/-- What fits one of two types fits the type that both fit in. -/
theorem fits_unify {a b : DataType} (h : v.Fits known a ∨ v.Fits known b) :
    v.Fits known (a.unify b) :=
  h.elim (DataType.within_unify a b).1.fits (DataType.within_unify a b).2.fits

/-- What fits one of some types fits the type that all fit in. -/
theorem fits_unifyAll {types : List DataType} (ht : t ∈ types) (h : v.Fits known t) :
    v.Fits known (DataType.unifyAll types) :=
  (DataType.within_unifyAll ht).fits h

theorem datatypes_eq_map (vs : List Value) : datatypes vs = vs.map datatype := by
  induction vs with
  | nil => rfl
  | cons v vs ih => rw [datatypes, ih, List.map_cons]

theorem mem_datatypes {vs : List Value} (hv : v ∈ vs) : v.datatype ∈ datatypes vs := by
  rw [datatypes_eq_map]
  exact List.mem_map_of_mem hv

theorem fieldTypes_eq_map (fields : Fields Value) :
    fieldTypes fields = fields.map fun field => (field.1, field.2.datatype) := by
  induction fields with
  | nil => rfl
  | cons field rest ih => rw [fieldTypes, ih, List.map_cons]

theorem names_fieldTypes (fields : Fields Value) :
    Fields.names (fieldTypes fields) = fields.names := by
  rw [fieldTypes_eq_map, Fields.names, List.map_map]
  rfl

theorem get?_fieldTypes (fields : Fields Value) (name : String) :
    Fields.get? (fieldTypes fields) name = (fields.get? name).map datatype := by
  rw [fieldTypes_eq_map, Fields.get?_map_snd]

/-- A value fits its own type. -/
theorem Known.fits_datatype (h : v.Known known) : v.Fits known v.datatype := by
  induction h with
  | @single v hsingle =>
      cases v <;> first | exact .null _ | exact .scalar rfl rfl | cases hsingle
  | @list vs _ ih => exact .list fun v hv => fits_unifyAll (mem_datatypes hv) (ih v hv)
  | @record fields hnames hfields ih =>
      have get {name : String} {t : DataType} (ht : Fields.get? (fieldTypes fields) name = some t) :
          ∃ v, fields.get? name = some v ∧ v.datatype = t := by
        rw [get?_fieldTypes] at ht
        exact Option.map_eq_some_iff.1 ht
      refine .record (.record hnames hfields) ?_ (fun name t ht => ?_) (fun name t v ht hv => ?_) ?_
      · rw [names_fieldTypes]
        exact hnames
      · obtain ⟨v, hv, -⟩ := get ht
        exact ⟨v, hv⟩
      · obtain ⟨u, hu, rfl⟩ := get ht
        rw [hu] at hv
        cases hv
        exact ih _ (Fields.mem_of_get? hu)
      · rw [names_fieldTypes]
        exact fun _ _ => id
  | item hknown => exact .item (Schema.same_refl _) hknown

end Value

end RecordAlgebra
