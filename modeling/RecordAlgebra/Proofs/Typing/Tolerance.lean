import RecordAlgebra.Proofs.Datum.Elements
import RecordAlgebra.Proofs.Typing.Strict
import RecordAlgebra.Proofs.Value.Outcomes

/-!
# Tolerated failures

An operation on data of settled types gives a datum of the type that is derived
for it, or fails with arithmetic, an empty aggregate or the wrong number of
elements.
-/

namespace RecordAlgebra

/-- The kinds of errors that no type rules out. -/
def ErrorKind.IsTolerated (kind : ErrorKind) : Prop :=
  kind = .arithmetic ∨ kind = .emptyAggregation ∨ kind = .cardinality

/-- The outcome is a result with the property, or a tolerated error. -/
def Progresses {α : Type} (P : α → Prop) : Except ErrorKind α → Prop
  | .ok a => P a
  | .error kind => kind.IsTolerated

section

variable {α β : Type} {P : α → Prop} {Q : β → Prop} {r : Except ErrorKind α}

theorem Progresses.bind {f : α → Except ErrorKind β} (h : Progresses P r)
    (step : ∀ a, P a → Progresses Q (f a)) : Progresses Q (r >>= f) := by
  cases r with
  | ok a => exact step a h
  | error kind => exact h

theorem Progresses.map {f : α → β} (h : Progresses P r) (step : ∀ a, P a → Q (f a)) :
    Progresses Q (r.map f) := by
  cases r with
  | ok a => exact step a h
  | error kind => exact h

end

namespace Datum

variable {d e : Datum} {l r t : DataType}

section Scalars

theorem fits_boolean (h : d.Fits .boolean) : d = .null ∨ ∃ b, d = .bool b := by
  have hadmits := fits_scalar h
  cases d <;> first | exact .inl rfl | exact .inr ⟨_, rfl⟩ | cases hadmits

theorem fits_text (h : d.Fits .text) : d = .null ∨ ∃ s, d = .text s := by
  have hadmits := fits_scalar h
  cases d <;> first | exact .inl rfl | exact .inr ⟨_, rfl⟩ | cases hadmits

theorem fits_int (h : d.Fits .int) : d = .null ∨ ∃ n, d = .int n := by
  have hadmits := fits_scalar h
  cases d <;> first | exact .inl rfl | exact .inr ⟨_, rfl⟩ | cases hadmits

theorem fits_float (h : d.Fits .float) : d = .null ∨ (∃ n, d = .int n) ∨ ∃ x, d = .float x := by
  have hadmits := fits_scalar h
  cases d <;>
    first
    | exact .inl rfl
    | exact .inr (.inl ⟨_, rfl⟩)
    | exact .inr (.inr ⟨_, rfl⟩)
    | cases hadmits

theorem boolean_of_isBooleanLike (h : t.isBooleanLike = true) (ht : t.isSettled = true) :
    t = .boolean := by
  unfold DataType.isBooleanLike at h
  split at h <;> first | rfl | cases ht | cases h

theorem numeric_of_isNumericLike (h : t.isNumericLike = true) (ht : t.isSettled = true) :
    t = .int ∨ t = .float := by
  rcases t with s | _ | _ | _
  · cases s <;> cases ht <;> first | exact .inl rfl | exact .inr rfl | cases h
  · cases h
  · cases h
  · cases h

end Scalars

section Order

theorem comparable_scalar_list {s : FieldType} (hs : (DataType.scalar s).isSettled = true) :
    (DataType.scalar s).isComparable (.list t) = false := by
  rw [DataType.isComparable]
  · cases s <;> simp [DataType.isAny, DataType.isNull, DataType.isNumeric, BEq.beq,
      DataType.same] <;> cases hs
  · rintro _ _ ⟨⟩

theorem isComparable_self (h : t.isOrderable = true) : t.isComparable t = true := by
  induction t using DataType.isOrderable.induct with
  | case1 s => cases s <;> rfl
  | case2 element ih =>
      rw [DataType.isOrderable] at h
      rw [DataType.isComparable, h, ih h]
      rfl
  | _ => cases h

/-- Values of single types that may be compared have an order. -/
theorem order_ok_scalar {s t : FieldType} (hs : (DataType.scalar s).isSettled = true)
    (ht : (DataType.scalar t).isSettled = true)
    (hcomparable : (DataType.scalar s).isComparable (.scalar t) = true) {v u : Value}
    (hv : s.admits v = true) (hu : t.admits u = true) : ∃ o, Value.order v u = .ok o := by
  cases s <;> cases hs <;> cases t <;> cases ht <;> cases hcomparable <;> cases v <;>
    cases hv <;> cases u <;> cases hu <;> exact ⟨_, rfl⟩

theorem orderLists_ok {ds es : List Datum}
    (step : ∀ d ∈ ds, ∀ e ∈ es, ∃ o, Value.order d.bare e.bare = .ok o) :
    ∃ o, Value.orderLists (bares ds) (bares es) = .ok o := by
  induction ds generalizing es with
  | nil => cases es <;> exact ⟨_, rfl⟩
  | cons d ds ih =>
      cases es with
      | nil => exact ⟨_, rfl⟩
      | cons e es =>
          obtain ⟨o, ho⟩ := step d (by simp) e (by simp)
          rw [bares, bares, Value.orderLists, ho]
          cases o with
          | eq => exact ih fun d hd e he => step d (by simp [hd]) e (by simp [he])
          | lt => exact ⟨_, rfl⟩
          | gt => exact ⟨_, rfl⟩

/-- Data of comparable types have an order. -/
theorem order_ok (hl : l.isSettled = true) (hr : r.isSettled = true)
    (hcomparable : l.isComparable r = true) (hd : d.Fits l) (he : e.Fits r) :
    ∃ o, Value.order d.bare e.bare = .ok o := by
  induction l using DataType.isOrderable.induct generalizing r d e with
  | case1 s =>
      cases r with
      | scalar t => exact order_ok_scalar hl hr hcomparable (fits_scalar hd) (fits_scalar he)
      | list t =>
          rw [comparable_scalar_list hl] at hcomparable
          cases hcomparable
      | record fields isOpen => simp [DataType.isComparable, DataType.isOrderable] at hcomparable
      | item schema => simp [DataType.isComparable, DataType.isOrderable] at hcomparable
  | case2 element ih =>
      cases r with
      | scalar t => cases t <;> cases hr <;> simp [DataType.isComparable, DataType.isAny,
          DataType.isNull, DataType.isNumeric, BEq.beq, DataType.same] at hcomparable
      | list t =>
          simp only [DataType.isComparable, Bool.and_eq_true] at hcomparable
          obtain ⟨ds, rfl, hds⟩ := fits_list hd
          obtain ⟨es, rfl, hes⟩ := fits_list he
          have ht : t.isSettled = true := hr
          exact orderLists_ok fun d hd e he => ih hl ht hcomparable.2 (hds d hd) (hes e he)
      | record fields isOpen => simp [DataType.isComparable, DataType.isOrderable] at hcomparable
      | item schema => simp [DataType.isComparable, DataType.isOrderable] at hcomparable
  | _ => simp [DataType.isComparable, DataType.isOrderable] at hcomparable

end Order

section Operations

theorem ofTolerates {t : FieldType} {r : Except Error Value} (h : Value.Tolerates t r) :
    Progresses (·.Fits (.scalar t)) ((ofResult r).map ofValue) := by
  cases r with
  | error e => exact .inl h
  | ok v =>
      refine .scalar ?_
      cases t <;> cases v <;> first | rfl | cases h

theorem field_progresses (ht : t.isSettled = true) (hd : d.Fits t) {name : String}
    {u : DataType} (h : t.fieldType name = .ok u) : Progresses (·.Fits u) (d.field name) := by
  cases hd with
  | @scalar d s hadmits => cases s <;> cases ht <;> cases h
  | list => cases h
  | @record ds fields isOpen hnames hdistinct present fits closed =>
      rw [DataType.fieldType] at h
      cases hget : Fields.get? fields name with
      | none =>
          rw [DataType.isSettled, Bool.and_eq_true, Bool.not_eq_true'] at ht
          rw [hget, ht.1] at h
          cases h
      | some u' =>
          rw [hget] at h
          cases h
          obtain ⟨e, he⟩ := present name u hget
          rw [field, he]
          exact fits name u e hget he
  | @item source ds schema hsame hnames fits =>
      rw [DataType.fieldType] at h
      cases hget : schema.property? name with
      | none =>
          rw [hget] at h
          cases h
      | some p =>
          rw [hget] at h
          cases h
          rw [← Schema.property?_of_same hsame, Schema.property?_eq_some_iff] at hget
          obtain ⟨hp, rfl⟩ := hget
          obtain ⟨e, he, hadmits⟩ := fits p hp
          rw [field, he]
          exact .scalar hadmits

theorem fits_bool (b : Bool) : (Datum.bool b).Fits .boolean := .scalar rfl

theorem compare_progresses {op : ComparisonOp} (hl : l.isSettled = true) (hr : r.isSettled = true)
    (hcomparable : op.isOrdering = true → l.isComparable r = true) (hd : d.Fits l)
    (he : e.Fits r) : Progresses (·.Fits .boolean) (compare op d e) := by
  have ordered (hop : op.isOrdering = true) : Progresses (·.Fits .boolean)
      (if d.isNull || e.isNull then (.ok .null : Except ErrorKind Datum)
      else (order d e).map fun o => .bool (op.holds o)) := by
    split
    · exact .scalar rfl
    · obtain ⟨o, ho⟩ := order_ok hl hr (hcomparable hop) hd he
      rw [order, ho]
      exact fits_bool _
  cases op with
  | equal => exact fits_bool _
  | notEqual => exact fits_bool _
  | less => exact ordered rfl
  | lessOrEqual => exact ordered rfl
  | greater => exact ordered rfl
  | greaterOrEqual => exact ordered rfl

theorem not_progresses (hd : d.Fits .boolean) : Progresses (·.Fits .boolean) (d.negated .not) := by
  rcases fits_boolean hd with rfl | ⟨b, rfl⟩
  · exact .scalar rfl
  · exact fits_bool _

theorem minus_progresses (ht : t = .int ∨ t = .float) (hd : d.Fits t) :
    Progresses (·.Fits t) (d.negated .minus) := by
  rcases ht with rfl | rfl
  · exact ofTolerates (Value.negate_tolerates (.inl rfl) (fits_scalar hd))
  · exact ofTolerates (Value.negate_tolerates (.inr (.inl rfl)) (fits_scalar hd))

theorem predicate_progresses (hd : d.Fits .boolean) :
    Progresses (fun _ => True) d.predicate := by
  rcases fits_boolean hd with rfl | ⟨b, rfl⟩ <;> exact trivial

theorem function_progresses {f : ScalarFunction} (ht : t.isSettled = true)
    (h : f.accepts t = true) (hd : d.Fits t) : Progresses (·.Fits f.returnType) (d.function f) := by
  cases hd with
  | @scalar d s hadmits =>
      have htext : s = .text := by
        cases s <;> cases ht <;> first | rfl | (cases f <;> cases h)
      subst htext
      rcases fits_text (.scalar hadmits) with rfl | ⟨s, rfl⟩ <;>
        cases f <;> exact .scalar rfl
  | list =>
      cases f with
      | length => exact .scalar rfl
      | _ => cases h
  | record => cases f <;> cases h
  | item => cases f <;> cases h

theorem apply_eq (op : ArithmeticOp) (hd : ∀ ds, d ≠ .list ds) :
    apply op d e = (ofResult (Value.apply unseen op d.bare e.bare)).map ofValue := by
  unfold apply
  split
  · exact absurd rfl (hd _)
  · rfl

theorem append_progresses (hl : l.isSettled = true) (hr : r.isSettled = true)
    (ht : (l.unify r).isSettled = true) {ds es : List Datum} (hd : (Datum.list ds).Fits l)
    (he : (Datum.list es).Fits r) : (Datum.list (ds ++ es)).Fits (l.unify r) := by
  have hds := fits_unify hl hr ht (.inl hd)
  have hes := fits_unify hl hr ht (.inr he)
  generalize l.unify r = t at ht hds hes
  cases hds with
  | scalar h =>
      rename_i s
      cases s <;> cases ht <;> cases h
  | list hds =>
      obtain ⟨_, heq, hes⟩ := fits_list hes
      cases heq
      exact .list fun d hd => (List.mem_append.1 hd).elim (hds d) (hes d)

/-- Arithmetic on data of settled types gives the type that is derived for it. -/
theorem apply_progresses {op : ArithmeticOp} (hl : l.isSettled = true) (hr : r.isSettled = true)
    (ht : t.isSettled = true) (h : op.resultType l r = .ok t) (hd : d.Fits l) (he : e.Fits r) :
    Progresses (·.Fits t) (apply op d e) := by
  rcases l with s | l | ⟨fields, isOpen⟩ | schema
  · rcases r with s' | r | ⟨fields, isOpen⟩ | schema
    · have hs : s ≠ .any := by rintro rfl; cases hl
      have hs' : s' ≠ .any := by rintro rfl; cases hr
      obtain ⟨k, rfl, htolerates⟩ : ∃ k, t = .scalar k ∧
          Value.Tolerates k (Value.apply unseen op d.bare e.bare) :=
        Value.apply_tolerates hs hs' h (fits_scalar hd) (fits_scalar he)
      rw [apply_eq op]
      · exact ofTolerates htolerates
      · rintro ds rfl
        have hadmits := fits_scalar hd
        cases s <;> cases hl <;> cases hadmits
    · cases s <;> cases hl <;> cases h
    · cases s <;> cases h
    · cases s <;> cases h
  · rcases r with s' | r | ⟨fields, isOpen⟩ | schema
    · cases s' <;> cases hr <;> cases h
    · obtain ⟨ds, rfl, -⟩ := fits_list hd
      obtain ⟨es, rfl, -⟩ := fits_list he
      cases op <;> cases h
      exact append_progresses hl hr ht hd he
    · cases h
    · cases h
  · cases h
  · cases h

end Operations

end Datum

end RecordAlgebra
