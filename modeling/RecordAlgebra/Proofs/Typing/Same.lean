import Mathlib.Data.List.Perm.Subperm
import Mathlib.Data.List.Nodup
import RecordAlgebra.DataType
import RecordAlgebra.Proofs.Fields

/-!
# Types that are the same

Schemas that are the same declare the same properties, and records of the same
type have the same types for their fields. Items have their properties as fields.
-/

namespace RecordAlgebra

namespace Schema

variable {a b c : Schema}

theorem find?_eq_some_of_mem {properties : List Property}
    (distinct : (properties.map Property.name).Nodup) {p : Property} (hp : p ∈ properties) :
    properties.find? (fun property => property.name == p.name) = some p := by
  induction properties with
  | nil => cases hp
  | cons first rest ih =>
      rw [List.map_cons, List.nodup_cons] at distinct
      rcases List.mem_cons.1 hp with rfl | hrest
      · simp
      · have hne : (first.name == p.name) = false := by
          rw [beq_eq_false_iff_ne]
          intro h
          exact distinct.1 (h ▸ List.mem_map.2 ⟨p, hrest, rfl⟩)
        rw [List.find?_cons, hne]
        exact ih distinct.2 hrest

theorem property?_eq_some_iff {schema : Schema} {name : String} {p : Property} :
    schema.property? name = some p ↔ p ∈ schema.properties ∧ p.name = name := by
  constructor
  · intro h
    refine ⟨List.mem_of_find?_eq_some h, ?_⟩
    simpa using List.find?_some h
  · rintro ⟨hp, rfl⟩
    exact find?_eq_some_of_mem schema.distinct hp

theorem nodup_properties (schema : Schema) : schema.properties.Nodup :=
  .of_map _ schema.distinct

theorem mem_properties_of_same (h : a.same b = true) {p : Property} :
    p ∈ a.properties ↔ p ∈ b.properties := by
  simp only [same, Bool.and_eq_true, beq_iff_eq, List.all_eq_true] at h
  obtain ⟨⟨-, hsize⟩, hall⟩ := h
  have hsubset : a.properties ⊆ b.properties := by
    intro p hp
    exact (property?_eq_some_iff.1 (hall p hp)).1
  have hperm : a.properties.Perm b.properties :=
    (a.nodup_properties.subperm hsubset).perm_of_length_le (Nat.le_of_eq hsize.symm)
  exact hperm.mem_iff

theorem property?_of_same (h : a.same b = true) (name : String) :
    a.property? name = b.property? name := by
  cases hb : b.property? name with
  | some p =>
      obtain ⟨hp, hname⟩ := property?_eq_some_iff.1 hb
      exact property?_eq_some_iff.2 ⟨(mem_properties_of_same h).2 hp, hname⟩
  | none =>
      cases ha : a.property? name with
      | none => rfl
      | some p =>
          obtain ⟨hp, hname⟩ := property?_eq_some_iff.1 ha
          rw [property?_eq_some_iff.2 ⟨(mem_properties_of_same h).1 hp, hname⟩] at hb
          cases hb

theorem same_trans (hab : a.same b = true) (hbc : b.same c = true) : a.same c = true := by
  have hmem {p : Property} := (mem_properties_of_same hab (p := p)).trans
    (mem_properties_of_same hbc)
  simp only [same, Bool.and_eq_true, beq_iff_eq, List.all_eq_true] at hab hbc ⊢
  refine ⟨⟨hab.1.1.trans hbc.1.1, hab.1.2.trans hbc.1.2⟩, fun p hp => ?_⟩
  exact property?_eq_some_iff.2 ⟨hmem.1 hp, rfl⟩

theorem same_refl (a : Schema) : a.same a = true := by
  simp only [same, Bool.and_eq_true, beq_iff_eq, List.all_eq_true]
  exact ⟨⟨trivial, trivial⟩, fun p hp => property?_eq_some_iff.2 ⟨hp, rfl⟩⟩

theorem same_symm (h : a.same b = true) : b.same a = true := by
  have hmem {p : Property} := mem_properties_of_same h (p := p)
  simp only [same, Bool.and_eq_true, beq_iff_eq, List.all_eq_true] at h ⊢
  refine ⟨⟨h.1.1.symm, h.1.2.symm⟩, fun p hp => ?_⟩
  exact property?_eq_some_iff.2 ⟨hmem.2 hp, rfl⟩

end Schema

namespace DataType

theorem same_symm : ∀ {a b : DataType}, a.same b = true → b.same a = true
  | .scalar s, .scalar t, h => by
      simp only [same, beq_iff_eq] at h ⊢
      exact h.symm
  | .list a, .list b, h => by
      simp only [same] at h ⊢
      exact same_symm h
  | .record as openA, .record bs openB, h => by
      simp only [same, Bool.and_eq_true, beq_iff_eq] at h ⊢
      exact ⟨sameFields_symm h.1, h.2.symm⟩
  | .item a, .item b, h => by
      simp only [same] at h ⊢
      exact Schema.same_symm h
where
  sameFields_symm : ∀ {as bs : List (String × DataType)}, sameFields as bs = true →
      sameFields bs as = true
    | [], [], _ => rfl
    | (name, a) :: as, (other, b) :: bs, h => by
        simp only [sameFields, Bool.and_eq_true, beq_iff_eq] at h ⊢
        exact ⟨⟨h.1.1.symm, same_symm h.1.2⟩, sameFields_symm h.2⟩

theorem same_refl : ∀ a : DataType, a.same a = true
  | .scalar s => by simp only [same, beq_self_eq_true]
  | .list a => by simpa only [same] using same_refl a
  | .record fields isOpen => by
      simp only [same, Bool.and_eq_true, beq_self_eq_true, and_true]
      exact sameFields_refl fields
  | .item schema => by simpa only [same] using Schema.same_refl schema
where
  sameFields_refl : ∀ fields : List (String × DataType), sameFields fields fields = true
    | [] => rfl
    | (name, a) :: fields => by
        simp only [sameFields, Bool.and_eq_true, beq_self_eq_true, true_and]
        exact ⟨same_refl a, sameFields_refl fields⟩

theorem same_trans : ∀ {a b c : DataType}, a.same b = true → b.same c = true → a.same c = true
  | .scalar _, .scalar _, .scalar _, hab, hbc => by
      simp only [same, beq_iff_eq] at hab hbc ⊢
      exact hab.trans hbc
  | .list _, .list _, .list _, hab, hbc => by
      simp only [same] at hab hbc ⊢
      exact same_trans hab hbc
  | .record _ _, .record _ _, .record _ _, hab, hbc => by
      simp only [same, Bool.and_eq_true, beq_iff_eq] at hab hbc ⊢
      exact ⟨sameFields_trans hab.1 hbc.1, hab.2.trans hbc.2⟩
  | .item _, .item _, .item _, hab, hbc => by
      simp only [same] at hab hbc ⊢
      exact Schema.same_trans hab hbc
where
  sameFields_trans : ∀ {as bs cs : List (String × DataType)}, sameFields as bs = true →
      sameFields bs cs = true → sameFields as cs = true
    | [], [], [], _, _ => rfl
    | _ :: _, _ :: _, _ :: _, hab, hbc => by
        simp only [sameFields, Bool.and_eq_true, beq_iff_eq] at hab hbc ⊢
        exact ⟨⟨hab.1.1.trans hbc.1.1, same_trans hab.1.2 hbc.1.2⟩,
          sameFields_trans hab.2 hbc.2⟩

theorem eq_scalar_of_same {a : DataType} {s : FieldType} (h : a.same (.scalar s) = true) :
    a = .scalar s := by
  cases a <;> simp_all [same]

theorem eq_list_of_same {a b : DataType} (h : a.same (.list b) = true) :
    ∃ a', a = .list a' ∧ a'.same b = true := by
  cases a <;> simp_all [same]

theorem sameFields_iff_forall₂ {as bs : Fields DataType} : sameFields as bs = true ↔
    List.Forall₂ (fun a b => a.1 = b.1 ∧ a.2.same b.2 = true) as bs := by
  induction as generalizing bs with
  | nil => cases bs <;> simp [sameFields]
  | cons a as ih => cases bs <;> simp [sameFields, ih]

theorem names_of_sameFields {as bs : Fields DataType} (h : sameFields as bs = true) :
    as.names = bs.names :=
  Fields.names_eq_of_forall₂ (R := fun a b : DataType => a.same b = true)
    (sameFields_iff_forall₂.1 h)

theorem get?_of_sameFields {as bs : Fields DataType} (h : sameFields as bs = true)
    {name : String} {b : DataType} (hb : bs.get? name = some b) :
    ∃ a, as.get? name = some a ∧ a.same b = true :=
  Fields.exists_get?_left (R := fun a b : DataType => a.same b = true)
    (sameFields_iff_forall₂.1 h) hb

theorem names_properties (schema : Schema) :
    Fields.names (properties schema) = schema.names := by
  rw [Fields.names, properties, List.map_map]
  rfl

theorem get?_properties {schema : Schema} {name : String} {t : DataType}
    (h : (properties schema).get? name = some t) :
    ∃ p ∈ schema.properties, p.name = name ∧ t = .scalar p.type := by
  obtain ⟨p, hp, hentry⟩ := List.mem_map.1 (Fields.mem_of_get? h)
  cases hentry
  exact ⟨p, hp, rfl, rfl⟩

end DataType

end RecordAlgebra
