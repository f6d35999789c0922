import RecordAlgebra.Expr.Typing
import RecordAlgebra.Value.Aggregate

/-!
# Outcomes of operations on single values

Where the types of the operands are known, an operation on single values gives
a value of the type that is derived for it. It fails only with arithmetic.
-/

namespace RecordAlgebra.Value

/-- A value of the type, or a failure of arithmetic. -/
def Tolerates (t : FieldType) : Except Error Value → Prop
  | .ok v => t.admits v = true
  | .error e => e.kind = .arithmetic

variable {view : ItemRef → String} {v u : Value}

theorem admits_float_of_int (h : FieldType.int.admits v = true) :
    FieldType.float.admits v = true := by
  cases v <;> first | rfl | cases h

section Numbers

variable {op : ArithmeticOp} {onInts : Int64 → Int64 → Option Int64}
  {onFloats : Float → Float → Float}

theorem numeric_tolerates_int (hv : FieldType.int.admits v = true)
    (hu : FieldType.int.admits u = true) :
    Tolerates .int (numeric view op onInts onFloats v u) := by
  cases v <;> cases hv <;> cases u <;> cases hu <;> unfold numeric
  · rfl
  · rfl
  · rfl
  · simp only
    split <;> rfl

theorem numeric_tolerates_float (hv : FieldType.float.admits v = true)
    (hu : FieldType.float.admits u = true) :
    Tolerates .float (numeric view op onInts onFloats v u) := by
  cases v <;> cases hv <;> cases u <;> cases hu <;> unfold numeric <;> simp only <;>
    first | rfl | (split <;> rfl)

theorem add_eq_numeric (hv : FieldType.float.admits v = true) :
    add view v u = numeric view .add (exactly (· + ·)) (· + ·) v u := by
  cases v <;> first | rfl | cases hv

theorem divide_tolerates (hv : FieldType.float.admits v = true)
    (hu : FieldType.float.admits u = true) : Tolerates .float (divide view v u) := by
  unfold divide
  split
  · rfl
  · split
    · rfl
    · cases v <;> cases hv <;> cases u <;> cases hu <;> first | rfl | simp_all [isNull]

theorem remainder_tolerates {t : FieldType}
    (h : Tolerates t (numeric view .remainder wordRemainder? Binary64.remainder v u)) :
    Tolerates t (remainder view v u) := by
  unfold remainder
  split
  · cases t <;> rfl
  · split
    · rfl
    · exact h

theorem apply_tolerates_int (hop : op ≠ .divide) (hv : FieldType.int.admits v = true)
    (hu : FieldType.int.admits u = true) : Tolerates .int (apply view op v u) := by
  cases op with
  | add =>
      rw [apply, add_eq_numeric (admits_float_of_int hv)]
      exact numeric_tolerates_int hv hu
  | subtract => exact numeric_tolerates_int hv hu
  | multiply => exact numeric_tolerates_int hv hu
  | divide => exact absurd rfl hop
  | remainder => exact remainder_tolerates (numeric_tolerates_int hv hu)

theorem apply_tolerates_float (op : ArithmeticOp) (hv : FieldType.float.admits v = true)
    (hu : FieldType.float.admits u = true) : Tolerates .float (apply view op v u) := by
  cases op with
  | add =>
      rw [apply, add_eq_numeric hv]
      exact numeric_tolerates_float hv hu
  | subtract => exact numeric_tolerates_float hv hu
  | multiply => exact numeric_tolerates_float hv hu
  | divide => exact divide_tolerates hv hu
  | remainder => exact remainder_tolerates (numeric_tolerates_float hv hu)

end Numbers

theorem add_tolerates_text (hv : FieldType.text.admits v = true)
    (hu : FieldType.text.admits u = true) : Tolerates .text (add view v u) := by
  cases v <;> cases hv <;> cases u <;> cases hu <;> rfl

theorem apply_null_tolerates (op : ArithmeticOp) : Tolerates .null (apply view op .null .null) := by
  cases op <;> rfl

/-- The types for which arithmetic on single values is derived a type. -/
theorem resultType_scalar {op : ArithmeticOp} {s t : FieldType} {type : DataType}
    (hs : s ≠ .any) (ht : t ≠ .any) (h : op.resultType (.scalar s) (.scalar t) = .ok type) :
    (s = .null ∧ t = .null ∧ type = .null) ∨
      (op = .add ∧ (s = .text ∨ s = .null) ∧ (t = .text ∨ t = .null) ∧ type = .text) ∨
      (op ≠ .divide ∧ (s = .int ∨ s = .null) ∧ (t = .int ∨ t = .null) ∧ type = .int) ∨
      ((s = .int ∨ s = .float ∨ s = .null) ∧ (t = .int ∨ t = .float ∨ t = .null) ∧
        type = .float) := by
  cases s <;> cases t <;> first
    | exact absurd rfl hs
    | exact absurd rfl ht
    | (cases op <;> cases h <;> simp)

theorem admits_of_null {t : FieldType} (h : FieldType.null.admits v = true) :
    t.admits v = true := by
  cases v <;> first | (cases t <;> rfl) | cases h

theorem admits_text (s : FieldType) (hs : s = .text ∨ s = .null) (h : s.admits v = true) :
    FieldType.text.admits v = true := by
  rcases hs with rfl | rfl
  · exact h
  · exact admits_of_null h

theorem admits_int (s : FieldType) (hs : s = .int ∨ s = .null) (h : s.admits v = true) :
    FieldType.int.admits v = true := by
  rcases hs with rfl | rfl
  · exact h
  · exact admits_of_null h

theorem admits_float (s : FieldType) (hs : s = .int ∨ s = .float ∨ s = .null)
    (h : s.admits v = true) : FieldType.float.admits v = true := by
  rcases hs with rfl | rfl | rfl
  · exact admits_float_of_int h
  · exact h
  · exact admits_of_null h

/-- Arithmetic gives the type that is derived for it. -/
theorem apply_tolerates {op : ArithmeticOp} {s t : FieldType} {type : DataType}
    (hs : s ≠ .any) (ht : t ≠ .any) (h : op.resultType (.scalar s) (.scalar t) = .ok type)
    (hv : s.admits v = true) (hu : t.admits u = true) :
    ∃ k, type = .scalar k ∧ Tolerates k (apply view op v u) := by
  rcases resultType_scalar hs ht h with ⟨rfl, rfl, rfl⟩ | ⟨rfl, hs, ht, rfl⟩ |
    ⟨hop, hs, ht, rfl⟩ | ⟨hs, ht, rfl⟩
  · refine ⟨.null, rfl, ?_⟩
    cases v <;> cases hv
    cases u <;> cases hu
    exact apply_null_tolerates op
  · exact ⟨.text, rfl, add_tolerates_text (admits_text s hs hv) (admits_text t ht hu)⟩
  · exact ⟨.int, rfl, apply_tolerates_int hop (admits_int s hs hv) (admits_int t ht hu)⟩
  · exact ⟨.float, rfl, apply_tolerates_float op (admits_float s hs hv) (admits_float t ht hu)⟩

theorem negate_tolerates {t : FieldType} (ht : t = .int ∨ t = .float ∨ t = .null)
    (hv : t.admits v = true) : Tolerates t v.negate := by
  rcases ht with rfl | rfl | rfl
  all_goals
    cases v <;> cases hv <;> unfold negate <;> simp only <;> first | rfl | (split <;> rfl)

end RecordAlgebra.Value
