import RecordAlgebra.Proofs.Sequence.Sends
import RecordAlgebra.Proofs.Typing.FittingOperations

/-!
# Looking into fitting values

The laws of `ItemAccess.Reads` say that fields of known items have values of their
property types. From them it follows what can be relied on if fields of other values
are read or values are compared.
-/

namespace RecordAlgebra

namespace Value

/-- A value that a property of this name may have. -/
def FitsProperty (known : ItemRef → Prop) (schema : Schema) (name : String) (v : Value) : Prop :=
  v.Known known ∧ ∀ p, schema.property? name = some p → v.Fits known (.scalar p.type)

/-- All fields of an item with this schema. -/
def FitsSchema (known : ItemRef → Prop) (schema : Schema) (fields : Fields Value) : Prop :=
  Fields.names fields = schema.names ∧
    ∀ field ∈ fields, FitsProperty known schema field.1 field.2

variable {known : ItemRef → Prop} {schema : Schema} {fields : Fields Value}

theorem FitsSchema.isKnown (h : FitsSchema known schema fields) :
    (Value.record fields).Known known := by
  refine .record ?_ fun field hfield => (h.2 field hfield).1
  rw [h.1]
  exact schema.distinct

theorem FitsSchema.fieldsFit {other : Schema} (h : FitsSchema known schema fields)
    (hsame : schema.same other = true) :
    FieldsFit known fields { fields := DataType.properties other, isOpen := false } where
  isKnown := h.isKnown
  distinct := by
    rw [DataType.names_properties]
    exact other.distinct
  present name t ht := by
    obtain ⟨p, hp, rfl, rfl⟩ := DataType.get?_properties ht
    have hname : p.name ∈ Fields.names fields := by
      rw [h.1]
      exact List.mem_map.2 ⟨p, (Schema.mem_properties_of_same hsame).2 hp, rfl⟩
    obtain ⟨⟨_, v⟩, hv, hname⟩ := List.mem_map.1 hname
    cases hname
    exact ⟨v, Fields.get?_eq_some_of_mem h.isKnown.fields.1 hv⟩
  fits name t v ht hv := by
    obtain ⟨p, hp, rfl, rfl⟩ := DataType.get?_properties ht
    refine (h.2 _ (Fields.mem_of_get? hv)).2 p ?_
    exact Schema.property?_eq_some_iff.2 ⟨(Schema.mem_properties_of_same hsame).2 hp, rfl⟩
  closed _ name hname := by
    rw [h.1] at hname
    obtain ⟨p, hp, rfl⟩ := List.mem_map.1 hname
    rw [DataType.names_properties]
    exact List.mem_map.2 ⟨p, (Schema.mem_properties_of_same hsame).1 hp, rfl⟩

end Value

namespace ItemAccess

/-- What is found in known items fits their schemas. -/
structure Reads (access : ItemAccess EvalM) (known : ItemRef → Prop) (I : World → Prop) :
    Prop where
  field : ∀ ref name, known ref →
    Ensures I (Value.FitsProperty known ref.schema name) (access.field ref name)
  entries : ∀ ref, known ref → Ensures I (Value.FitsSchema known ref.schema) (access.entries ref)
  equal : ∀ a b, known a → known b → Ensures I (fun _ => True) (access.equal a b)
  digest : ∀ ref, known ref → Ensures I (fun _ => True) (access.digest ref)
  view : access.view = EvalM.view

end ItemAccess

section Comparing

variable {known : ItemRef → Prop} {I : World → Prop} {v u : Value}
  {items : ItemRef → ItemRef → EvalM Bool} {digests : ItemRef → EvalM Digest}

open Value (Known)

theorem equalElements_ensures {vs us : List Value}
    (h : ∀ v ∈ vs, ∀ u ∈ us, Ensures I (fun _ => True) (Value.equal items v u)) :
    Ensures I (fun _ => True) (Value.equalElements items vs us) := by
  induction vs generalizing us with
  | nil => cases us <;> exact .pure trivial
  | cons v vs ih =>
      cases us with
      | nil => exact .pure trivial
      | cons u us =>
          refine (h v (by simp) u (by simp)).bind fun equal _ => ?_
          cases equal with
          | true => exact ih fun v hv u hu => h v (by simp [hv]) u (by simp [hu])
          | false => exact .pure trivial

theorem equalFields_ensures {vs us : Fields Value}
    (h : ∀ v ∈ vs, ∀ name u, us.get? name = some u →
      Ensures I (fun _ => True) (Value.equal items v.2 u)) :
    Ensures I (fun _ => True) (Value.equalFields items vs us) := by
  induction vs with
  | nil => exact .pure trivial
  | cons field vs ih =>
      obtain ⟨name, v⟩ := field
      rw [Value.equalFields]
      split
      · exact .pure trivial
      · next u hu =>
          refine (h (name, v) (by simp) name u hu).bind fun equal _ => ?_
          cases equal with
          | true => exact ih fun v hv => h v (by simp [hv])
          | false => exact .pure trivial

theorem equalEntries_ensures {vs us : Fields Value}
    (h : ∀ v ∈ vs, ∀ u ∈ us, Ensures I (fun _ => True) (Value.equal items v.2 u.2)) :
    Ensures I (fun _ => True) (Value.equalEntries items vs us) := by
  induction vs generalizing us with
  | nil => cases us <;> exact .pure trivial
  | cons v vs ih =>
      cases us with
      | nil => exact .pure trivial
      | cons u us =>
          rw [Value.equalEntries]
          split
          · refine (h v (by simp) u (by simp)).bind fun equal _ => ?_
            cases equal with
            | true => exact ih fun v hv u hu => h v (by simp [hv]) u (by simp [hu])
            | false => exact .pure trivial
          · exact .pure trivial

/-- Known values can be compared if known items can. -/
theorem equal_ensures
    (hitems : ∀ a b, known a → known b → Ensures I (fun _ => True) (items a b))
    (hv : v.Known known) (hu : u.Known known) :
    Ensures I (fun _ => True) (Value.equal items v u) := by
  induction hv generalizing u with
  | @single v hsingle =>
      cases v <;> first | (cases hsingle; done) | (cases u <;> exact .pure trivial)
  | @list vs _ ih =>
      cases u with
      | list us =>
          rw [Value.equal]
          split
          · exact equalElements_ensures fun v hv u' hu' => ih v hv (hu.elements u' hu')
          · exact .pure trivial
      | _ => exact .pure trivial
  | @record fields _ _ ih =>
      cases u with
      | record others =>
          rw [Value.equal]
          split
          · exact equalFields_ensures fun v hv name u' hu' => ih v hv (hu.get? hu')
          · exact .pure trivial
      | _ => exact .pure trivial
  | item href =>
      cases u with
      | item other => exact hitems _ _ href hu.ref
      | _ => exact .pure trivial

theorem digestElements_ensures {vs : List Value}
    (h : ∀ v ∈ vs, Ensures I (fun _ => True) (Value.digest digests v)) :
    Ensures I (fun _ => True) (Value.digestElements digests vs) := by
  induction vs with
  | nil => exact .pure trivial
  | cons v vs ih =>
      obtain ⟨hv, hvs⟩ := List.forall_mem_cons.1 h
      exact hv.bind fun _ _ => (ih hvs).map fun _ _ => trivial

theorem digestEntries_ensures {vs : Fields Value}
    (h : ∀ v ∈ vs, Ensures I (fun _ => True) (Value.digest digests v.2)) :
    Ensures I (fun _ => True) (Value.digestEntries digests vs) := by
  induction vs with
  | nil => exact .pure trivial
  | cons v vs ih =>
      obtain ⟨hv, hvs⟩ := List.forall_mem_cons.1 h
      exact hv.bind fun _ _ => (ih hvs).map fun _ _ => trivial

theorem digest_ensures (hitems : ∀ ref, known ref → Ensures I (fun _ => True) (digests ref))
    (hv : v.Known known) : Ensures I (fun _ => True) (Value.digest digests v) := by
  induction hv with
  | @single v hsingle => cases v <;> first | (cases hsingle; done) | exact .pure trivial
  | list _ ih => exact (digestElements_ensures ih).map fun _ _ => trivial
  | record _ _ ih => exact (digestEntries_ensures ih).map fun _ _ => trivial
  | item href => exact hitems _ href

end Comparing

namespace ItemAccess.Reads

variable {access : ItemAccess EvalM} {known : ItemRef → Prop} {I : World → Prop} {v : Value}
  {t u : DataType} (reads : access.Reads known I)

include reads

theorem compares {P : Value → Prop} (hP : ∀ v, P v → v.Known known) : access.Compares I P where
  digest v hv := digest_ensures reads.digest (hP v hv)
  equal v u hv hu := equal_ensures reads.equal (hP v hv) (hP u hu)

/-- A field has the type that is derived for it. -/
theorem valueField {name : String} (hv : v.Fits known t) (h : t.fieldType name = .ok u) :
    Ensures I (fun v => v.Fits known u) (v.field access name) := by
  cases hv with
  | null => exact .throw _
  | @any v hv =>
      cases h
      cases v with
      | item ref => exact (reads.field ref name hv.ref).mono fun v hv => .any hv.1
      | record fields =>
          rw [Value.field]
          split
          · next v hget => exact .pure (.any (hv.get? hget))
          · exact .throw _
      | _ => exact .throw _
  | @scalar v s hsingle =>
      cases v <;> first | (cases hsingle; done) | exact .throw _
  | list => exact .throw _
  | @record fields types isOpen hknown hdistinct present fits closed =>
      rw [Value.field]
      split
      · next v hget =>
          refine .pure ?_
          rw [DataType.fieldType] at h
          cases htype : Fields.get? types name with
          | some u' =>
              rw [htype] at h
              cases h
              exact fits name u v htype hget
          | none =>
              rw [htype] at h
              cases isOpen with
              | true =>
                  cases h
                  exact .any (hknown.get? hget)
              | false => cases h
      · exact .throw _
  | @item ref schema hsame href =>
      rw [DataType.fieldType] at h
      split at h
      · next p hp =>
          cases h
          rw [← Schema.property?_of_same hsame] at hp
          exact (reads.field ref name href).mono fun v hv => hv.2 p hp
      · cases h

/-- The fields of a mapping have the types that are known of it. -/
theorem valueEntries {a : RecordType} (hv : v.Fits known t) (h : t.recordType? = some a) :
    Ensures I (fun fields => Value.FieldsFit known fields a) (v.entries access) := by
  have failing (v : Value) : Ensures I (fun fields => Value.FieldsFit known fields a)
      (do throwThe Error (Value.unexpected (← access.view) "mapping" v)) := by
    rw [reads.view]
    exact .view fun _ => .throw _
  cases hv with
  | null => exact failing .null
  | @any v hv =>
      cases h
      cases v with
      | item ref =>
          exact (reads.entries ref hv.ref).mono fun fields hfields =>
            Value.fieldsFit_any hfields.isKnown
      | record fields => exact .pure (Value.fieldsFit_any hv)
      | _ => exact failing _
  | @scalar v s hsingle => cases v <;> first | (cases hsingle; done) | exact failing _
  | list => exact failing _
  | record hknown hdistinct present fits closed =>
      cases h
      exact .pure ⟨hknown, hdistinct, present, fits, closed⟩
  | @item ref schema hsame href =>
      cases h
      exact (reads.entries ref href).mono fun fields hfields => hfields.fieldsFit hsame

end ItemAccess.Reads

end RecordAlgebra
