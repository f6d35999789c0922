import RecordAlgebra.Proofs.Typing.Same

/-!
# The join of two types

One type is within another if it shows from the two that whatever fits the first
fits the second. Up to types that are the same this is a partial order with null at
its bottom and `any` at its top, and `unify` gives the least type that two types are
within. All laws of `unify` follow from that.
-/

namespace RecordAlgebra

namespace DataType

/-- Whatever fits the first type fits the second, as far as it shows from the types. -/
inductive Within : DataType → DataType → Prop
  | same {a b : DataType} : a.same b = true → Within a b
  | null (b : DataType) : Within .null b
  | any (a : DataType) : Within a .any
  | number : Within .int .float
  | list {a b : DataType} : Within a b → Within (.list a) (.list b)

variable {a b c : DataType}

section Order

theorem Within.refl (a : DataType) : a.Within a := .same (same_refl a)

theorem eq_null_of_within (h : a.Within .null) : a = .null := by
  cases h with
  | same h => exact eq_scalar_of_same h
  | null => rfl

theorem eq_any_of_within (h : Within .any b) : b = .any := by
  cases h with
  | same h => exact eq_scalar_of_same (same_symm h)
  | any => rfl

theorem float_within (h : Within .float b) : b = .float ∨ b = .any := by
  cases h with
  | same h => exact .inl (eq_scalar_of_same (same_symm h))
  | any => exact .inr rfl

theorem list_within (h : Within (.list a) b) : b = .any ∨ ∃ b', b = .list b' ∧ a.Within b' := by
  cases h with
  | same h =>
      obtain ⟨b', rfl, hsame⟩ := eq_list_of_same (same_symm h)
      exact .inr ⟨b', rfl, .same (same_symm hsame)⟩
  | any => exact .inl rfl
  | list h => exact .inr ⟨_, rfl, h⟩

theorem Within.of_same (hbc : b.Within c) (hsame : a.same b = true) : a.Within c := by
  induction hbc generalizing a with
  | same h => exact .same (same_trans hsame h)
  | null c =>
      rw [eq_scalar_of_same hsame]
      exact .null c
  | any => exact .any a
  | number =>
      rw [eq_scalar_of_same hsame]
      exact .number
  | list _ ih =>
      obtain ⟨a', rfl, h⟩ := eq_list_of_same hsame
      exact .list (ih h)

theorem Within.trans (hab : a.Within b) (hbc : b.Within c) : a.Within c := by
  induction hab generalizing c with
  | same h => exact hbc.of_same h
  | null => exact .null c
  | any a =>
      rw [eq_any_of_within hbc]
      exact .any a
  | number =>
      obtain rfl | rfl := float_within hbc
      · exact .number
      · exact .any _
  | list _ ih =>
      obtain rfl | ⟨c', rfl, h⟩ := list_within hbc
      · exact .any _
      · exact .list (ih h)

theorem Within.antisymm (hab : a.Within b) (hba : b.Within a) : a.same b = true := by
  induction hab with
  | same h => exact h
  | null => rw [eq_null_of_within hba, same_refl]
  | any => rw [eq_any_of_within hba, same_refl]
  | number => obtain h | h := float_within hba <;> cases h
  | list _ ih =>
      obtain h | ⟨a', ha', h⟩ := list_within hba
      · cases h
      · cases ha'
        exact ih h

end Order

section Unify

theorem unify_of_same (h : a.same b = true) : a.unify b = a := by
  unfold unify
  exact if_pos h

theorem unify_self (a : DataType) : a.unify a = a := unify_of_same (same_refl a)

theorem null_unify (b : DataType) : DataType.unify .null b = b := by
  by_cases h : (DataType.null == b) = true
  · rw [unify_of_same h, eq_scalar_of_same (same_symm h)]
  · unfold unify
    rw [if_neg h]

theorem unify_null (a : DataType) : a.unify .null = a := by
  by_cases h : (a == .null) = true
  · exact unify_of_same h
  · unfold unify
    rw [if_neg h]
    split <;> simp_all

theorem list_unify_list (a b : DataType) :
    (DataType.list a).unify (.list b) = .list (a.unify b) := by
  by_cases h : (DataType.list a == .list b) = true
  · have hsame : a.same b = true := by
      simpa only [BEq.beq, same] using h
    rw [unify_of_same h, unify_of_same hsame]
  · rw [unify, if_neg h]

/-- No rule for two types is about these, other than that `any` is above both. -/
structure Apart (a b : DataType) : Prop where
  notSame : ¬a.same b = true
  left : a ≠ .null
  right : b ≠ .null
  notWidened : a = .int → b ≠ .float
  notWidening : a = .float → b ≠ .int
  notLists : ∀ a' b', a = .list a' → b ≠ .list b'

theorem Apart.unify_eq_any (h : a.Apart b) : a.unify b = .any := by
  obtain ⟨hsame, ha, hb, hint, hfloat, hlists⟩ := h
  unfold unify
  rw [if_neg (show ¬(a == b) = true from hsame)]
  split <;> simp_all

theorem Apart.eq_any (h : a.Apart b) (hac : a.Within c) (hbc : b.Within c) : c = .any := by
  cases hac with
  | any => rfl
  | null => exact absurd rfl h.left
  | same hac =>
      cases hbc with
      | any => rfl
      | null => exact absurd rfl h.right
      | same hbc => exact absurd (same_trans hac (same_symm hbc)) h.notSame
      | number => exact absurd rfl (h.notWidening (eq_scalar_of_same hac))
      | list =>
          obtain ⟨a', rfl, -⟩ := eq_list_of_same hac
          exact absurd rfl (h.notLists a' _ rfl)
  | number =>
      cases hbc with
      | null => exact absurd rfl h.right
      | same hbc => exact absurd (eq_scalar_of_same hbc) (h.notWidened rfl)
      | number => exact absurd (same_refl _) h.notSame
  | list _ =>
      cases hbc with
      | null => exact absurd rfl h.right
      | same hbc =>
          obtain ⟨b', rfl, -⟩ := eq_list_of_same hbc
          exact absurd rfl (h.notLists _ b' rfl)
      | list => exact absurd rfl (h.notLists _ _ rfl)

theorem within_unify (a b : DataType) : a.Within (a.unify b) ∧ b.Within (a.unify b) := by
  induction a, b using unify.induct with
  | case1 a b hsame =>
      rw [unify_of_same hsame]
      exact ⟨.refl a, .same (same_symm hsame)⟩
  | case2 b =>
      rw [null_unify]
      exact ⟨.null b, .refl b⟩
  | case3 a =>
      rw [unify_null]
      exact ⟨.refl a, .null a⟩
  | case4 => exact ⟨.number, .refl .float⟩
  | case5 => exact ⟨.refl .float, .number⟩
  | case6 a b _ ih =>
      rw [list_unify_list]
      exact ⟨.list ih.1, .list ih.2⟩
  | case7 a b hsame ha hb hint hfloat hlists =>
      rw [Apart.unify_eq_any ⟨hsame, ha, hb, hint, hfloat, hlists⟩]
      exact ⟨.any a, .any b⟩

theorem Within.unify (hac : a.Within c) (hbc : b.Within c) : (a.unify b).Within c := by
  -- The bound is generalized for two lists, where it is taken apart as well.
  induction a, b using DataType.unify.induct generalizing c with
  | case1 a b hsame => rwa [unify_of_same hsame]
  | case2 b => rwa [null_unify]
  | case3 a => rwa [unify_null]
  | case4 => exact hbc
  | case5 => exact hac
  | case6 a b _ ih =>
      rw [list_unify_list]
      obtain rfl | ⟨c', rfl, ha⟩ := list_within hac
      · exact .any _
      · obtain h | ⟨_, hc, hb⟩ := list_within hbc
        · cases h
        · cases hc
          exact .list (ih ha hb)
  | case7 a b hsame ha hb hint hfloat hlists =>
      have apart : a.Apart b := ⟨hsame, ha, hb, hint, hfloat, hlists⟩
      rw [apart.eq_any hac hbc]
      exact .any _

/-- The join is the least type that both are within. -/
theorem unify_within_iff : (a.unify b).Within c ↔ a.Within c ∧ b.Within c :=
  ⟨fun h => ⟨(within_unify a b).1.trans h, (within_unify a b).2.trans h⟩, fun h => h.1.unify h.2⟩

/-- Types are the same if they are within the same types. -/
theorem same_of_within_iff (h : ∀ c, a.Within c ↔ b.Within c) : a.same b = true :=
  ((h b).2 (.refl b)).antisymm ((h a).1 (.refl a))

theorem unify_comm (a b : DataType) : (a.unify b).same (b.unify a) = true :=
  same_of_within_iff fun c => by
    rw [unify_within_iff, unify_within_iff, and_comm]

theorem unify_assoc (a b c : DataType) :
    ((a.unify b).unify c).same (a.unify (b.unify c)) = true :=
  same_of_within_iff fun d => by
    rw [unify_within_iff, unify_within_iff, unify_within_iff, unify_within_iff, and_assoc]

theorem unify_any (a : DataType) : a.unify .any = .any :=
  eq_any_of_within (within_unify a .any).2

theorem any_unify (b : DataType) : DataType.unify .any b = .any :=
  eq_any_of_within (within_unify .any b).1

end Unify

section Elements

theorem foldl_unify_within_iff {types : List DataType} :
    (types.foldl DataType.unify a).Within c ↔ a.Within c ∧ ∀ t ∈ types, t.Within c := by
  induction types generalizing a with
  | nil => simp
  | cons t types ih =>
      rw [List.foldl_cons, ih, unify_within_iff, List.forall_mem_cons, and_assoc]

/-- Some types have a join as two types have. -/
theorem unifyAll_within_iff {types : List DataType} :
    (unifyAll types).Within c ↔ ∀ t ∈ types, t.Within c := by
  cases types with
  | nil =>
      have hnull : (unifyAll []).Within c := .null c
      simp [hnull]
  | cons t types =>
      rw [unifyAll, foldl_unify_within_iff, List.forall_mem_cons]

theorem unifyAll_of_mem_iff {types others : List DataType} (h : ∀ t, t ∈ types ↔ t ∈ others) :
    (unifyAll types).same (unifyAll others) = true :=
  same_of_within_iff fun c => by
    simp only [unifyAll_within_iff, h]

theorem within_unifyAll {types : List DataType} (h : a ∈ types) : a.Within (unifyAll types) :=
  unifyAll_within_iff.1 (.refl _) a h

end Elements

end DataType

end RecordAlgebra
