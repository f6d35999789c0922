import RecordAlgebra.Proofs.Binary64.Zeros
import RecordAlgebra.Proofs.Value.Bare

/-!
# Outlines of values

The outline of a value has no fields in its records and one zero only. The operations that do
not look into mappings cannot tell a value from its outline, apart from the text of their errors
and the outline of their results.
-/

namespace RecordAlgebra.Value

open Binary64 (oneZero orderKey)
open Datum (ofResult unseen)

mutual

def outline : Value → Value
  | .float x => .float (oneZero x)
  | .list elements => .list (outlines elements)
  | .record _ => .record []
  | v => v

def outlines : List Value → List Value
  | [] => []
  | v :: rest => outline v :: outlines rest

end

theorem outlines_eq_map (elements : List Value) : outlines elements = elements.map outline := by
  induction elements with
  | nil => rfl
  | cons v rest ih => rw [outlines, ih, List.map_cons]

@[simp] theorem length_outlines (elements : List Value) :
    (outlines elements).length = elements.length := by
  rw [outlines_eq_map, List.length_map]

theorem outlines_append (as bs : List Value) : outlines (as ++ bs) = outlines as ++ outlines bs := by
  simp only [outlines_eq_map, List.map_append]

mutual

@[simp] theorem outline_outline : ∀ v : Value, v.outline.outline = v.outline
  | .float x => by rw [outline, outline, Binary64.oneZero_oneZero]
  | .list elements => by rw [outline, outline, outlines_outlines elements]
  | .null | .bool _ | .int _ | .text _ | .bytes _ | .timestamp _ | .record _ | .item _ => rfl

@[simp] theorem outlines_outlines : ∀ elements : List Value,
    outlines (outlines elements) = outlines elements
  | [] => rfl
  | v :: rest => by rw [outlines, outlines, outline_outline v, outlines_outlines rest]

end

@[simp] theorem kind_outline (v : Value) : v.outline.kind = v.kind := by
  cases v <;> rfl

@[simp] theorem isNull_outline (v : Value) : v.outline.isNull = v.isNull := by
  cases v <;> rfl

@[simp] theorem isNumber_outline (v : Value) : v.outline.isNumber = v.isNumber := by
  cases v <;> rfl

@[simp] theorem isZero_outline (v : Value) : v.outline.isZero = v.isZero := by
  cases v with
  | float x => exact Binary64.isZero_oneZero x
  | _ => rfl

@[simp] theorem order_oneZero_left (x y : Float) :
    Binary64.order (oneZero x) y = Binary64.order x y := by
  simp [Binary64.order]

@[simp] theorem order_oneZero_right (x y : Float) :
    Binary64.order x (oneZero y) = Binary64.order x y := by
  simp [Binary64.order]

theorem keepsOrder_outline : KeepsOrder outline where
  list vs := by rw [outline, outlines_eq_map]
  order v u h := by
    cases v <;> cases u <;> first | rfl | exact absurd rfl (h _ _ rfl) | simp [outline, order]
  totalOrder v u h := by
    cases v <;> cases u <;>
      first | rfl | exact absurd rfl (h _ _ rfl) | simp [outline, totalOrder, order]

theorem order_outline (v u : Value) : order v.outline u.outline = order v u :=
  keepsOrder_outline.order_eq v u

theorem totalOrderKeys_outline (directions : List Direction) (as bs : List Value) :
    totalOrderKeys directions (outlines as) (outlines bs) = totalOrderKeys directions as bs := by
  rw [outlines_eq_map, outlines_eq_map]
  exact keepsOrder_outline.totalOrderKeys_eq directions as bs

theorem orderKeys_outline (directions : List Direction) (as bs : List Value) :
    orderKeys directions (outlines as) (outlines bs) = orderKeys directions as bs := by
  rw [outlines_eq_map, outlines_eq_map]
  exact keepsOrder_outline.orderKeys_eq directions as bs

section Outcomes

/-- The outline of the outcome. -/
def outlined (result : Except Error Value) : Except ErrorKind Value :=
  (ofResult result).map outline

theorem outlined_float {x y : Float} (h : oneZero x = oneZero y) :
    outlined (.ok (.float x)) = outlined (.ok (.float y)) :=
  congrArg (fun z => Except.ok (Value.float z)) h

theorem numeric_outline (op : ArithmeticOp) (onInts : Int64 → Int64 → Option Int64)
    {onFloats : Float → Float → Float} (v : Value) {u : Value}
    (left : ∀ x y, oneZero (onFloats (oneZero x) y) = oneZero (onFloats x y))
    (right : ∀ x y, u = .float y → oneZero (onFloats x (oneZero y)) = oneZero (onFloats x y)) :
    outlined (numeric unseen op onInts onFloats v.outline u.outline) =
      outlined (numeric unseen op onInts onFloats v u) := by
  cases v with
  | int a =>
      cases u with
      | float y => exact outlined_float (right _ y rfl)
      | _ => rfl
  | float x =>
      cases u with
      | int b => exact outlined_float (left x _)
      | float y => exact outlined_float ((left x _).trans (right x y rfl))
      | _ => rfl
  | _ => cases u <;> rfl

theorem add_outline (v u : Value) :
    outlined (add unseen v.outline u.outline) = outlined (add unseen v u) := by
  have numbers : outlined (numeric unseen .add (exactly (· + ·)) (· + ·) v.outline u.outline) =
      outlined (numeric unseen .add (exactly (· + ·)) (· + ·) v u) := by
    refine numeric_outline .add _ v (fun x y => ?_) fun x y _ => ?_
    · exact Binary64.oneZero_eq_iff.2 (Binary64.orderKey_add (Binary64.orderKey_oneZero x) rfl)
    · exact Binary64.oneZero_eq_iff.2 (Binary64.orderKey_add rfl (Binary64.orderKey_oneZero y))
  cases v with
  | text s =>
      cases u with
      | text t => rfl
      | _ => exact numbers
  | list as =>
      cases u with
      | list bs =>
          show Except.ok (Value.list (outlines (outlines as ++ outlines bs))) =
            Except.ok (Value.list (outlines (as ++ bs)))
          simp only [outlines_append, outlines_outlines]
      | _ => exact numbers
  | _ => exact numbers

theorem subtract_outline (v u : Value) :
    outlined (subtract unseen v.outline u.outline) = outlined (subtract unseen v u) := by
  refine numeric_outline .subtract _ v (fun x y => ?_) fun x y _ => ?_
  · exact Binary64.oneZero_eq_iff.2 (Binary64.orderKey_sub (Binary64.orderKey_oneZero x) rfl)
  · exact Binary64.oneZero_eq_iff.2 (Binary64.orderKey_sub rfl (Binary64.orderKey_oneZero y))

theorem multiply_outline (v u : Value) :
    outlined (multiply unseen v.outline u.outline) = outlined (multiply unseen v u) := by
  refine numeric_outline .multiply _ v (fun x y => ?_) fun x y _ => ?_
  · exact Binary64.oneZero_eq_iff.2 (Binary64.orderKey_mul (Binary64.orderKey_oneZero x) rfl)
  · exact Binary64.oneZero_eq_iff.2 (Binary64.orderKey_mul rfl (Binary64.orderKey_oneZero y))

/-- A divisor that is not zero is its own outline. -/
theorem oneZero_of_divisor {u : Value} {y : Float} (hzero : ¬u.isZero = true) (hu : u = .float y) :
    oneZero y = y := by
  subst hu
  exact Binary64.oneZero_of_not_isZero (Bool.eq_false_iff.2 hzero)

theorem divide_outline (v u : Value) :
    outlined (divide unseen v.outline u.outline) = outlined (divide unseen v u) := by
  have left (x y : Float) : oneZero (oneZero x / y) = oneZero (x / y) :=
    Binary64.oneZero_eq_iff.2 (Binary64.orderKey_div (Binary64.orderKey_oneZero x) y)
  simp only [divide, isNull_outline, isNumber_outline, isZero_outline, kind_outline]
  split
  · rfl
  · split
    · rfl
    · next hzero =>
        cases v with
        | int a =>
            cases u with
            | float y => exact outlined_float (by rw [oneZero_of_divisor (u := .float y) hzero rfl])
            | _ => rfl
        | float x =>
            cases u with
            | int b => exact outlined_float (left x _)
            | float y => exact outlined_float (by rw [oneZero_of_divisor (u := .float y) hzero rfl, left])
            | _ => rfl
        | _ => cases u <;> rfl

theorem remainder_outline (v u : Value) :
    outlined (remainder unseen v.outline u.outline) = outlined (remainder unseen v u) := by
  simp only [remainder, isNull_outline, isZero_outline]
  split
  · rfl
  · split
    · rfl
    · next hzero =>
        refine numeric_outline .remainder _ v (fun x y => ?_) fun x y hy => ?_
        · exact Binary64.oneZero_eq_iff.2
            (Binary64.orderKey_remainder (Binary64.orderKey_oneZero x) y)
        · rw [oneZero_of_divisor hzero hy]

theorem apply_outline (op : ArithmeticOp) (v u : Value) :
    outlined (apply unseen op v.outline u.outline) = outlined (apply unseen op v u) := by
  cases op with
  | add => exact add_outline v u
  | subtract => exact subtract_outline v u
  | multiply => exact multiply_outline v u
  | divide => exact divide_outline v u
  | remainder => exact remainder_outline v u

theorem negate_outline (v : Value) : outlined v.outline.negate = outlined v.negate := by
  cases v with
  | float x =>
      refine outlined_float (Binary64.oneZero_eq_iff.2 ?_)
      exact Binary64.orderKey_neg (Binary64.orderKey_oneZero x)
  | _ => rfl

theorem toBool_outline (v : Value) :
    ofResult (v.outline.toBool unseen) = ofResult (v.toBool unseen) := by
  cases v <;> rfl

theorem toPredicate_outline (v : Value) :
    ofResult (v.outline.toPredicate unseen) = ofResult (v.toPredicate unseen) := by
  cases v <;> rfl

theorem function_outline (f : ScalarFunction) (v : Value) :
    ofResult (f.apply v.outline) = ofResult (f.apply v) := by
  cases f with
  | length =>
      cases v with
      | list elements => simp only [outline, ScalarFunction.apply, length_outlines]
      | _ => rfl
  | _ => cases v <;> rfl

theorem addToCount_outline (skipNulls : Bool) (n : Nat) (v : Value) :
    addToCount skipNulls n v.outline = addToCount skipNulls n v := by
  simp only [addToCount, isNull_outline]

end Outcomes

end RecordAlgebra.Value
