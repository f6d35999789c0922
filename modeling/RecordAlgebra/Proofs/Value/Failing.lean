import RecordAlgebra.Proofs.Value.Sorting
import RecordAlgebra.Value.Aggregate

/-!
# How operations on values fail

Whatever the operands are, an operation on values that fails does so because of
their types or because of arithmetic.
-/

namespace RecordAlgebra.Value

/-- If the outcome is an error, it is one about types or arithmetic. -/
def FailsByValue {α : Type} (r : Except Error α) : Prop :=
  ∀ e, r = .error e → e.kind = .typeMismatch ∨ e.kind = .arithmetic

theorem failsByValue_ok {α : Type} (a : α) : FailsByValue (.ok a) := nofun

theorem failsByValue_mismatch {α : Type} {e : Error} (h : e.kind = .typeMismatch) :
    FailsByValue (.error e : Except Error α) := by
  rintro _ ⟨⟩
  exact .inl h

theorem failsByValue_arithmetic {α : Type} {e : Error} (h : e.kind = .arithmetic) :
    FailsByValue (.error e : Except Error α) := by
  rintro _ ⟨⟩
  exact .inr h

variable (view : ItemRef → String) (v u : Value)

theorem toBool_fails : FailsByValue (toBool view v) := by
  unfold toBool
  split
  · exact failsByValue_ok _
  · exact failsByValue_mismatch rfl

theorem toPredicate_fails : FailsByValue (toPredicate view v) := by
  unfold toPredicate
  split
  · exact failsByValue_ok _
  · exact failsByValue_ok _
  · exact failsByValue_mismatch rfl

theorem negate_fails : FailsByValue (negate v) := by
  unfold negate
  split
  · exact failsByValue_ok _
  · split
    · exact failsByValue_ok _
    · exact failsByValue_arithmetic rfl
  · exact failsByValue_ok _
  · exact failsByValue_mismatch rfl

theorem function_fails (f : ScalarFunction) : FailsByValue (f.apply v) := by
  unfold ScalarFunction.apply
  split
  case h_7 => exact failsByValue_mismatch rfl
  all_goals exact failsByValue_ok _

section Arithmetic

variable (op : ArithmeticOp) (onInts : Int64 → Int64 → Option Int64)
  (onFloats : Float → Float → Float)

theorem numeric_fails : FailsByValue (numeric view op onInts onFloats v u) := by
  unfold numeric
  split
  · exact failsByValue_ok _
  · exact failsByValue_ok _
  · split
    · exact failsByValue_ok _
    · exact failsByValue_arithmetic rfl
  · exact failsByValue_ok _
  · exact failsByValue_ok _
  · exact failsByValue_ok _
  · exact failsByValue_mismatch rfl

theorem add_fails : FailsByValue (add view v u) := by
  unfold add
  split
  · exact failsByValue_ok _
  · exact failsByValue_ok _
  · exact numeric_fails view v u _ _ _

theorem divide_fails : FailsByValue (divide view v u) := by
  unfold divide
  split
  · exact failsByValue_ok _
  · split
    · exact failsByValue_arithmetic rfl
    · split
      case h_5 => exact failsByValue_mismatch rfl
      all_goals exact failsByValue_ok _

theorem remainder_fails : FailsByValue (remainder view v u) := by
  unfold remainder
  split
  · exact failsByValue_ok _
  · split
    · exact failsByValue_arithmetic rfl
    · exact numeric_fails view v u _ _ _

theorem apply_fails : FailsByValue (apply view op v u) := by
  cases op with
  | add => exact add_fails view v u
  | subtract => exact numeric_fails view v u _ _ _
  | multiply => exact numeric_fails view v u _ _ _
  | divide => exact divide_fails view v u
  | remainder => exact remainder_fails view v u

end Arithmetic

theorem order_fails : FailsByValue (order v u) :=
  fun _ h => .inl (kind_of_order_error h)

theorem sortKeyed_fails {α : Type} (directions : List Direction) (rows : List (Keyed α)) :
    FailsByValue (sortKeyed directions rows) := by
  intro e h
  rw [sortKeyed] at h
  cases hcheck : checkNeighbours directions
      (insertionSort (fun a b => totalOrderKeys directions a.keys b.keys == .lt) rows) with
  | ok _ => rw [hcheck] at h; cases h
  | error e' =>
      rw [hcheck] at h
      cases h
      exact .inl (kind_of_checkNeighbours_error hcheck)

section Aggregates

theorem addToSum_fails (name : String) (sum : Value) : FailsByValue (addToSum view name sum v) := by
  unfold addToSum
  split
  · exact failsByValue_ok _
  · exact add_fails view _ _
  · exact add_fails view _ _
  · exact failsByValue_mismatch rfl

theorem mean_fails (name : String) (mean : Mean) : FailsByValue (Mean.add name mean v) := by
  unfold Mean.add
  split
  · exact failsByValue_ok _
  · exact failsByValue_ok _
  · exact failsByValue_ok _
  · exact failsByValue_mismatch rfl

theorem better_fails (wanted : Ordering) (best : Option Value) :
    FailsByValue (better wanted best v) := by
  unfold better
  split
  · exact failsByValue_ok _
  · cases best with
    | none => exact failsByValue_ok _
    | some current =>
        intro e h
        cases horder : order v current with
        | error e' =>
            simp only [bind, Except.bind, horder] at h
            cases h
            exact .inl (kind_of_order_error horder)
        | ok o =>
            simp only [bind, Except.bind, horder] at h
            split at h <;> cases h

end Aggregates

end RecordAlgebra.Value
