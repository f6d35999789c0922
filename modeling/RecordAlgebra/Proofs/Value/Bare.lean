import RecordAlgebra.Proofs.Datum.Basic

/-!
# Bare values

A bare value has no handles but those that stand for any item of a source. The
operations that do not look into items cannot tell a value from its bare form,
apart from the text of their errors.
-/

namespace RecordAlgebra.Value

open Datum (ofResult unseen)

mutual

def bare : Value → Value
  | .list elements => .list (bares elements)
  | .record fields => .record (bareFields fields)
  | .item ref => .item (Datum.handle ref.source)
  | v => v

def bares : List Value → List Value
  | [] => []
  | v :: rest => bare v :: bares rest

def bareFields : List (String × Value) → List (String × Value)
  | [] => []
  | (name, v) :: rest => (name, bare v) :: bareFields rest

end

theorem bares_eq_map (elements : List Value) : bares elements = elements.map bare := by
  induction elements with
  | nil => rfl
  | cons v rest ih => rw [bares, ih, List.map_cons]

theorem bareFields_eq_map (fields : List (String × Value)) :
    bareFields fields = fields.map fun field => (field.1, field.2.bare) := by
  induction fields with
  | nil => rfl
  | cons field rest ih => rw [bareFields, ih, List.map_cons]

@[simp] theorem length_bares (elements : List Value) : (bares elements).length = elements.length := by
  rw [bares_eq_map, List.length_map]

@[simp] theorem kind_bare (v : Value) : v.bare.kind = v.kind := by
  cases v <;> rfl

@[simp] theorem isNull_bare (v : Value) : v.bare.isNull = v.isNull := by
  cases v <;> rfl

@[simp] theorem isNumber_bare (v : Value) : v.bare.isNumber = v.isNumber := by
  cases v <;> rfl

@[simp] theorem isZero_bare (v : Value) : v.bare.isZero = v.isZero := by
  cases v <;> rfl

/-- A function that maps lists, and keeps how values compare that are not both lists. -/
structure KeepsOrder (f : Value → Value) : Prop where
  list (vs : List Value) : f (.list vs) = .list (vs.map f)
  order (v u : Value) (h : ∀ as bs, v = .list as → u ≠ .list bs) :
    Value.order (f v) (f u) = Value.order v u
  totalOrder (v u : Value) (h : ∀ as bs, v = .list as → u ≠ .list bs) :
    Value.totalOrder (f v) (f u) = Value.totalOrder v u

namespace KeepsOrder

variable {f : Value → Value}

mutual

theorem order_eq (h : KeepsOrder f) (v u : Value) : Value.order (f v) (f u) = Value.order v u := by
  cases v with
  | list as =>
      cases u with
      | list bs =>
          rw [h.list, h.list, Value.order, Value.order]
          exact orderLists_eq h as bs
      | _ => exact h.order _ _ nofun
  | _ => exact h.order _ _ nofun

theorem orderLists_eq (h : KeepsOrder f) : ∀ as bs : List Value,
    orderLists (as.map f) (bs.map f) = orderLists as bs
  | [], [] | [], _ :: _ | _ :: _, [] => rfl
  | a :: as, b :: bs => by
      simp only [List.map_cons, orderLists, order_eq h a b, orderLists_eq h as bs]

end

mutual

theorem totalOrder_eq (h : KeepsOrder f) (v u : Value) :
    Value.totalOrder (f v) (f u) = Value.totalOrder v u := by
  cases v with
  | list as =>
      cases u with
      | list bs =>
          rw [h.list, h.list, Value.totalOrder, Value.totalOrder]
          exact totalOrderLists_eq h as bs
      | _ => exact h.totalOrder _ _ nofun
  | _ => exact h.totalOrder _ _ nofun

theorem totalOrderLists_eq (h : KeepsOrder f) : ∀ as bs : List Value,
    totalOrderLists (as.map f) (bs.map f) = totalOrderLists as bs
  | [], [] | [], _ :: _ | _ :: _, [] => rfl
  | a :: as, b :: bs => by
      simp only [List.map_cons, totalOrderLists, totalOrder_eq h a b,
        totalOrderLists_eq h as bs]

end

theorem totalOrderKeys_eq (h : KeepsOrder f) (directions : List Direction)
    (as bs : List Value) :
    totalOrderKeys directions (as.map f) (bs.map f) = totalOrderKeys directions as bs := by
  induction directions generalizing as bs with
  | nil => rfl
  | cons direction directions ih =>
      cases as with
      | nil => rfl
      | cons a as =>
          cases bs with
          | nil => rfl
          | cons b bs => simp only [List.map_cons, totalOrderKeys, h.totalOrder_eq, ih]

theorem orderKeys_eq (h : KeepsOrder f) (directions : List Direction) (as bs : List Value) :
    orderKeys directions (as.map f) (bs.map f) = orderKeys directions as bs := by
  induction directions generalizing as bs with
  | nil => rfl
  | cons direction directions ih =>
      cases as with
      | nil => rfl
      | cons a as =>
          cases bs with
          | nil => rfl
          | cons b bs => simp only [List.map_cons, orderKeys, h.order_eq, ih]

end KeepsOrder

theorem keepsOrder_bare : KeepsOrder bare where
  list vs := by rw [bare, bares_eq_map]
  order v u h := by
    cases v <;> cases u <;> first | rfl | exact absurd rfl (h _ _ rfl)
  totalOrder v u h := by
    cases v <;> cases u <;> first | rfl | exact absurd rfl (h _ _ rfl)

theorem order_bare (v u : Value) : order v.bare u.bare = order v u := keepsOrder_bare.order_eq v u

theorem totalOrderKeys_bare (directions : List Direction) (as bs : List Value) :
    totalOrderKeys directions (bares as) (bares bs) = totalOrderKeys directions as bs := by
  rw [bares_eq_map, bares_eq_map]
  exact keepsOrder_bare.totalOrderKeys_eq directions as bs

theorem orderKeys_bare (directions : List Direction) (as bs : List Value) :
    orderKeys directions (bares as) (bares bs) = orderKeys directions as bs := by
  rw [bares_eq_map, bares_eq_map]
  exact keepsOrder_bare.orderKeys_eq directions as bs

section Outcomes

variable (view : ItemRef → String)

theorem numeric_bare (op : ArithmeticOp) (onInts : Int64 → Int64 → Option Int64)
    (onFloats : Float → Float → Float) (v u : Value) :
    ofResult (numeric view op onInts onFloats v u) =
      ofResult (numeric unseen op onInts onFloats v.bare u.bare) := by
  cases v with
  | int a =>
      cases u with
      | int b =>
          simp only [bare, numeric]
          cases onInts a b <;> rfl
      | _ => rfl
  | _ => cases u <;> rfl

theorem add_bare {v u : Value} (h : ∀ as bs, ¬(v = .list as ∧ u = .list bs)) :
    ofResult (add view v u) = ofResult (add unseen v.bare u.bare) := by
  cases v with
  | list as =>
      cases u with
      | list bs => exact absurd ⟨rfl, rfl⟩ (h as bs)
      | _ => rfl
  | int a =>
      cases u with
      | int b => exact numeric_bare view .add (exactly (· + ·)) (· + ·) (.int a) (.int b)
      | _ => rfl
  | _ => cases u <;> rfl

theorem divide_bare (v u : Value) :
    ofResult (divide view v u) = ofResult (divide unseen v.bare u.bare) := by
  simp only [divide, isNull_bare, isNumber_bare, isZero_bare, kind_bare]
  split
  · rfl
  · split
    · rfl
    · cases v <;> cases u <;> rfl

theorem remainder_bare (v u : Value) :
    ofResult (remainder view v u) = ofResult (remainder unseen v.bare u.bare) := by
  simp only [remainder, isNull_bare, isZero_bare]
  split
  · rfl
  · split
    · rfl
    · exact numeric_bare view _ _ _ _ _

/-- Only lists that are put together are more than their bare form. -/
theorem apply_bare {op : ArithmeticOp} {v u : Value}
    (h : ∀ as bs, ¬(op = .add ∧ v = .list as ∧ u = .list bs)) :
    ofResult (apply view op v u) = ofResult (apply unseen op v.bare u.bare) := by
  cases op with
  | add => exact add_bare view fun as bs hlists => h as bs ⟨rfl, hlists⟩
  | subtract => exact numeric_bare view _ _ _ _ _
  | multiply => exact numeric_bare view _ _ _ _ _
  | divide => exact divide_bare view v u
  | remainder => exact remainder_bare view v u

theorem negate_bare (v : Value) : ofResult (negate v) = ofResult (negate v.bare) := by
  cases v <;> rfl

@[simp] theorem kind_unexpected (wanted : String) (v : Value) :
    (unexpected view wanted v).kind = .typeMismatch := by
  rw [unexpected, Error.kind_attach]
  rfl

theorem toBool_bare (v : Value) : ofResult (v.toBool view) = ofResult (v.bare.toBool unseen) := by
  cases v <;> simp [toBool, bare]

theorem toPredicate_bare (v : Value) :
    ofResult (v.toPredicate view) = ofResult (v.bare.toPredicate unseen) := by
  cases v <;> simp [toPredicate, bare]

theorem function_bare (f : ScalarFunction) (v : Value) :
    ofResult (f.apply v) = ofResult (f.apply v.bare) := by
  cases f with
  | length =>
      cases v with
      | list elements => simp only [bare, ScalarFunction.apply, length_bares]
      | _ => rfl
  | _ => cases v <;> rfl

theorem mean_bare (name : String) (mean : Mean) (v : Value) :
    ofResult (mean.add name v) = ofResult (mean.add name v.bare) := by
  cases v <;> rfl

theorem addToCount_bare (skipNulls : Bool) (n : Nat) (v : Value) :
    addToCount skipNulls n v = addToCount skipNulls n v.bare := by
  simp only [addToCount, isNull_bare]

end Outcomes

/-- Whether the value is no list, record or item. -/
def isSingle : Value → Bool
  | .list _ | .record _ | .item _ => false
  | _ => true

section Results

variable {view : ItemRef → String} {v u r : Value}

theorem isSingle_of_numeric {op : ArithmeticOp} {onInts : Int64 → Int64 → Option Int64}
    {onFloats : Float → Float → Float} (h : numeric view op onInts onFloats v u = .ok r) :
    r.isSingle = true := by
  unfold numeric at h
  split at h
  · cases h; rfl
  · cases h; rfl
  · split at h
    · cases h; rfl
    · cases h
  · cases h; rfl
  · cases h; rfl
  · cases h; rfl
  · cases h

theorem isSingle_of_add (lists : ∀ as bs, ¬(v = .list as ∧ u = .list bs))
    (h : add view v u = .ok r) : r.isSingle = true := by
  unfold add at h
  split at h
  · cases h; rfl
  · exact absurd ⟨rfl, rfl⟩ (lists _ _)
  · exact isSingle_of_numeric h

theorem isSingle_of_divide (h : divide view v u = .ok r) : r.isSingle = true := by
  unfold divide at h
  split at h
  · cases h; rfl
  · split at h
    · cases h
    · split at h
      · cases h; rfl
      · cases h; rfl
      · cases h; rfl
      · cases h; rfl
      · cases h

theorem isSingle_of_remainder (h : remainder view v u = .ok r) : r.isSingle = true := by
  unfold remainder at h
  split at h
  · cases h; rfl
  · split at h
    · cases h
    · exact isSingle_of_numeric h

theorem isSingle_of_apply {op : ArithmeticOp}
    (lists : ∀ as bs, ¬(op = .add ∧ v = .list as ∧ u = .list bs))
    (h : apply view op v u = .ok r) : r.isSingle = true := by
  cases op with
  | add => exact isSingle_of_add (fun as bs hlists => lists as bs ⟨rfl, hlists⟩) h
  | subtract => exact isSingle_of_numeric h
  | multiply => exact isSingle_of_numeric h
  | divide => exact isSingle_of_divide h
  | remainder => exact isSingle_of_remainder h

theorem isSingle_of_negate (h : v.negate = .ok r) : r.isSingle = true := by
  unfold negate at h
  split at h
  · cases h; rfl
  · split at h
    · cases h; rfl
    · cases h
  · cases h; rfl
  · cases h

theorem isSingle_of_function {f : ScalarFunction} (h : f.apply v = .ok r) :
    r.isSingle = true := by
  unfold ScalarFunction.apply at h
  split at h <;> cases h <;> rfl

end Results

end RecordAlgebra.Value
