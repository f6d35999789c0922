import RecordAlgebra.Proofs.Typing.Fitting

/-!
# Unification as a join

The laws of unification are those of the least type that two types are within. Values
respect the order of types, and it does not matter in which order the types of some
elements are unified.
-/

namespace RecordAlgebra

namespace Value

/-- The type of a list is that of any list with the same elements. -/
theorem datatype_of_mem_iff {vs us : List Value} (h : ∀ v, v ∈ vs ↔ v ∈ us) :
    (Value.list vs).datatype.same (Value.list us).datatype = true := by
  rw [datatype, datatype, DataType.same]
  refine DataType.unifyAll_of_mem_iff fun t => ?_
  rw [datatypes_eq_map, datatypes_eq_map, List.mem_map, List.mem_map]
  simp only [h]

end Value

namespace DataType

/-- `unify` is the join of types, so the type of a list only depends on its elements. -/
theorem unify_laws (a b c : DataType) :
    a.unify a = a ∧
    (a.unify b).same (b.unify a) = true ∧
    ((a.unify b).unify c).same (a.unify (b.unify c)) = true ∧
    (DataType.unify .null a = a ∧ a.unify .null = a) ∧
    (DataType.unify .any a = .any ∧ a.unify .any = .any) ∧
    ((a.unify b).Within c ↔ a.Within c ∧ b.Within c) ∧
    (∀ (known : ItemRef → Prop) (v : Value), v.Fits known a ∨ v.Fits known b →
      v.Fits known (a.unify b)) ∧
    (∀ vs us : List Value, vs.Perm us →
      (Value.list vs).datatype.same (Value.list us).datatype = true) ∧
    ∀ (known : ItemRef → Prop) (vs : List Value), (Value.list vs).Known known →
      ∃ t, (Value.list vs).datatype = .list t ∧ ∀ v ∈ vs, v.Fits known t := by
  refine ⟨unify_self a, unify_comm a b, unify_assoc a b c, ⟨null_unify a, unify_null a⟩,
    ⟨any_unify a, unify_any a⟩, unify_within_iff, fun known v h => ?_, fun vs us h => ?_,
    fun known vs h => ⟨_, rfl, fun v hv => ?_⟩⟩
  · exact h.elim (within_unify a b).1.fits (within_unify a b).2.fits
  · exact Value.datatype_of_mem_iff fun v => h.mem_iff
  · exact Value.fits_unifyAll (Value.mem_datatypes hv) (h.elements v hv).fits_datatype

theorem unify_laws_numbers :
    (Value.int 1).Fits (fun _ => False) (DataType.unify .int .float) ∧
    (Value.list [.int 1, .float 0]).datatype.same (Value.list [.float 0, .int 1]).datatype = true ∧
    ∃ t, (Value.list [.int 1, .float 0]).datatype = .list t ∧
      ∀ v ∈ [Value.int 1, .float 0], v.Fits (fun _ => False) t := by
  obtain ⟨-, -, -, -, -, -, hfits, hperm, helements⟩ := unify_laws .int .float .null
  refine ⟨hfits _ _ (.inl (.scalar rfl rfl)), hperm _ _ (.swap _ _ _),
    helements _ _ (.list fun v hv => ?_)⟩
  rcases List.mem_pair.1 hv with rfl | rfl <;> exact .single rfl

end DataType

end RecordAlgebra
