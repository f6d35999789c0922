import RecordAlgebra.Proofs.Plan.Conditions

/-!
# Expressions that cannot fail

An expression whose type is known to be infallible has a datum for every element of the shape.
The datum belongs to the type, as far as that is one of single values, and for lists, records
and items nothing needs to be known, since all of them may be tested for equality. So a
conjunction of such expressions has the same outcome in every order.
-/

namespace RecordAlgebra

namespace Datum

variable {d e : Datum} {l r t : DataType} {b : Bool}

/-- The datum belongs to the type, if that is a type of single values. -/
def AdmittedBy (d : Datum) (t : DataType) : Prop :=
  ∀ s : FieldType, t = .scalar s → s.admits d.bare = true

theorem Decides.admittedBy (h : d.Decides b) : d.AdmittedBy .boolean := by
  rintro s hs
  cases hs
  cases h <;> rfl

theorem AdmittedBy.decides (h : d.AdmittedBy t) (ht : Shape.isTruthType t = true) :
    ∃ b, d.Decides b := by
  unfold Shape.isTruthType at ht
  split at ht
  · rcases fits_boolean (.scalar (h .boolean rfl)) with rfl | ⟨b, rfl⟩
    · exact ⟨false, .null⟩
    · exact ⟨b, .bool b⟩
  · have hnull := h .null rfl
    cases d <;> cases hnull
    exact ⟨false, .null⟩
  · cases ht

theorem Decides.negated (h : d.Decides b) : ∃ r c, d.negated .not = .ok r ∧ r.Decides c := by
  cases h with
  | bool => exact ⟨_, _, rfl, .bool _⟩
  | null => exact ⟨_, _, rfl, .null⟩

theorem AdmittedBy.isNull (h : d.AdmittedBy t) (ht : t.isNull = true) : d.isNull = true := by
  unfold DataType.isNull at ht
  split at ht
  · have hnull := h .null rfl
    cases d <;> cases hnull
    rfl
  · cases ht

/-- Values of types that are safely ordered are compared without failure. -/
theorem compare_decides_of_isSafelyOrdered {op : ComparisonOp} (hd : d.AdmittedBy l)
    (he : e.AdmittedBy r) (h : op.isOrdering = true → Shape.isSafelyOrdered l r = true) :
    ∃ c b, compare op d e = .ok c ∧ c.Decides b := by
  by_cases hop : op.isOrdering = true
  · rw [compare_of_isOrdering hop]
    have hsafe := h hop
    simp only [Shape.isSafelyOrdered, Bool.and_eq_true, Bool.or_eq_true] at hsafe
    obtain ⟨⟨hl, hr⟩, hcomparable⟩ := hsafe
    by_cases hnull : (d.isNull || e.isNull) = true
    · exact ⟨.null, false, if_pos hnull, .null⟩
    · rw [if_neg hnull]
      rw [Bool.or_eq_true, not_or] at hnull
      have hl := hl.resolve_right fun hl => hnull.1 (hd.isNull hl)
      have hr := hr.resolve_right fun hr => hnull.2 (he.isNull hr)
      cases l with
      | scalar s =>
          cases r with
          | scalar s' =>
              obtain ⟨o, ho⟩ := order_ok_scalar (Shape.isSettled_of_isPlain hl)
                (Shape.isSettled_of_isPlain hr) hcomparable (hd s rfl) (he s' rfl)
              rw [order, ho]
              exact ⟨_, _, rfl, .bool _⟩
          | _ => cases hr
      | _ => cases hl
  · cases op with
    | equal | notEqual => exact ⟨_, _, rfl, .bool _⟩
    | less | lessOrEqual | greater | greaterOrEqual => exact (hop rfl).elim

theorem AdmittedBy.function {f : ScalarFunction} (h : d.AdmittedBy t)
    (ht : t = .text ∨ t = .null) : ∃ r, d.function f = .ok r ∧ r.AdmittedBy f.returnType := by
  have hd : d = .null ∨ ∃ s, d = .text s := by
    rcases ht with rfl | rfl
    · exact fits_text (.scalar (h .text rfl))
    · have hnull := h .null rfl
      cases d <;> cases hnull
      exact .inl rfl
  rcases hd with rfl | ⟨s, rfl⟩ <;> cases f <;>
    exact ⟨_, rfl, fun _ hs => by cases hs; rfl⟩

end Datum

theorem Value.admits_of_datatype {v : Value} {s : FieldType} (h : v.datatype = .scalar s) :
    v.isSingle = true ∧ s.admits (Datum.ofValue v).bare = true := by
  cases v <;> cases h <;> exact ⟨rfl, rfl⟩

namespace Shape

variable {ref : SourceRef} {shape : Shape} {document : Json} {d : Datum} {t : DataType}
  {lit : Value → Datum} {scope : List Meaning} {e : Expr} {operands : List Expr}

/-- The expression has a datum for the element, whatever is bound around it. The datum belongs
to the type. -/
def Infallible (lit : Value → Datum) (d : Datum) (e : Expr) (t : DataType) : Prop :=
  ∃ r, (∀ scope, e.denote lit (.value d :: scope) = .ok (.value r)) ∧ r.AdmittedBy t

/-- The expression is true, false or null, and what is bound around the element does not
matter. -/
theorem Infallible.decided (h : Infallible lit d e t) (ht : isTruthType t = true)
    (scope : List Meaning) : e.Decided lit (.value d :: scope) ∧
      e.isTrue lit (.value d :: scope) = e.isTrue lit [.value d] := by
  obtain ⟨r, hr, hadmitted⟩ := h
  obtain ⟨b, hdecides⟩ := hadmitted.decides ht
  exact ⟨Expr.decided_of_decides (hr scope) hdecides,
    (Expr.isTrue_eq (hr scope) hdecides).trans (Expr.isTrue_eq (hr []) hdecides).symm⟩

theorem infallible_of_decides {r : Datum} {b : Bool}
    (h : ∀ scope, e.denote lit (.value d :: scope) = .ok (.value r)) (hr : r.Decides b) :
    Infallible lit d e .boolean :=
  ⟨r, h, hr.admittedBy⟩

/-- A connection of infallible operands. -/
theorem infallible_boolean {op : BooleanOp} (h : ∀ e ∈ operands, ∃ t, isTruthType t = true ∧
    Infallible lit d e t) : Infallible lit d (.boolean op operands) .boolean := by
  have hdecided : ∀ e ∈ operands, e.Decided lit [.value d] := fun e he => by
    obtain ⟨t, ht, he⟩ := h e he
    exact (he.decided ht []).1
  obtain ⟨r, hr, hdecides⟩ := Expr.denote_boolean op hdecided
  refine infallible_of_decides (fun scope => ?_) hdecides
  rw [← hr, Expr.denote, Expr.denote, Expr.denoteOperands_congr fun e he => ?_]
  obtain ⟨t, -, r, hr, -⟩ := h e he
  rw [hr scope, hr []]

theorem exists_truthType_of_mem (h : shape.areInfallible operands = true) (he : e ∈ operands) :
    ∃ t, shape.infallibleType? e = some t ∧ isTruthType t = true := by
  induction operands with
  | nil => cases he
  | cons first rest ih =>
      rw [areInfallible, Bool.and_eq_true] at h
      cases he with
      | head => exact (Option.any_eq_true _ _).1 h.1
      | tail _ he => exact ih h.2 he

/-- What is found to be infallible never fails for an element of the shape. -/
theorem Stands.infallible (h : shape.Stands ref document d) (hlit : e.Knows lit)
    (ht : shape.infallibleType? e = some t) : Infallible lit d e t := by
  induction e using Expr.childInduction generalizing t with
  | step e ih =>
      cases e with
      | literal v =>
          cases ht
          refine ⟨lit v, fun scope => Expr.denote_literal lit _ v, fun s hs => ?_⟩
          obtain ⟨hsingle, hadmits⟩ := Value.admits_of_datatype hs
          rw [hlit v (Expr.hasLiteral_self v) hsingle]
          exact hadmits
      | field base name type =>
          obtain ⟨found, hfound, ht⟩ := Option.bind_eq_some_iff.1 ht
          obtain ⟨part, hpart, hfits, -⟩ := h.field ht
          refine ⟨part, fun scope => ?_, fun s hs => ?_⟩
          · rw [Expr.denote_elementField hfound, hpart]
            rfl
          · subst hs
            exact Datum.fits_scalar hfits
      | comparison op left right =>
          obtain ⟨l, hl, ht⟩ := Option.bind_eq_some_iff.1 ht
          obtain ⟨r, hr, ht⟩ := Option.bind_eq_some_iff.1 ht
          rw [Option.ite_none_left_eq_some] at ht
          obtain ⟨hsafe, ht⟩ := ht
          cases ht
          have hleft : (left, ChildScope.same) ∈ (Expr.comparison op left right).children := by
            simp [Expr.children]
          have hright : (right, ChildScope.same) ∈ (Expr.comparison op left right).children := by
            simp [Expr.children]
          obtain ⟨a, ha, hadmitted⟩ := ih _ hleft (hlit.part hleft) hl
          obtain ⟨b, hb, hadmitted'⟩ := ih _ hright (hlit.part hright) hr
          obtain ⟨c, truth, hc, hdecides⟩ :=
            Datum.compare_decides_of_isSafelyOrdered hadmitted hadmitted' fun
                hop : op.isOrdering = true => by
              rw [hop] at hsafe
              simpa using hsafe
          refine infallible_of_decides (fun scope => ?_) hdecides
          rw [Expr.denote, ha, hb]
          exact congrArg (Except.map Result.value) hc
      | boolean op operands =>
          rw [infallibleType?, Option.ite_none_right_eq_some] at ht
          obtain ⟨hoperands, ht⟩ := ht
          cases ht
          refine infallible_boolean fun e he => ?_
          have hpart : (e, ChildScope.same) ∈ (Expr.boolean op operands).children := by
            simpa [Expr.children] using he
          obtain ⟨t, ht, htruth⟩ := exists_truthType_of_mem hoperands he
          exact ⟨t, htruth, ih _ hpart (hlit.part hpart) ht⟩
      | negation op operand =>
          cases op with
          | minus => cases ht
          | not =>
              obtain ⟨u, hu, ht⟩ := Option.bind_eq_some_iff.1 ht
              rw [Option.ite_none_right_eq_some] at ht
              obtain ⟨htruth, ht⟩ := ht
              cases ht
              have hpart : (operand, ChildScope.same) ∈ (Expr.negation .not operand).children := by
                simp [Expr.children]
              obtain ⟨r, hr, hadmitted⟩ := ih _ hpart (hlit.part hpart) hu
              obtain ⟨b, hdecides⟩ := hadmitted.decides htruth
              obtain ⟨n, c, hn, hnegated⟩ := hdecides.negated
              refine infallible_of_decides (fun scope => ?_) hnegated
              rw [Expr.denote, hr]
              exact congrArg (Except.map Result.value) hn
      | function f input =>
          obtain ⟨u, hu, ht⟩ := Option.bind_eq_some_iff.1 ht
          have hpart : (input, ChildScope.same) ∈ (Expr.function f input).children := by
            simp [Expr.children]
          obtain ⟨a, ha, hadmitted⟩ := ih _ hpart (hlit.part hpart) hu
          obtain ⟨htext, ht⟩ : (u = .text ∨ u = .null) ∧ some f.returnType = some t := by
            split at ht
            · exact ⟨.inl rfl, ht⟩
            · exact ⟨.inr rfl, ht⟩
            · cases ht
          cases ht
          obtain ⟨r, hr, hadmitted'⟩ := hadmitted.function (f := f) htext
          refine ⟨r, fun scope => ?_, hadmitted'⟩
          rw [Expr.denote, ha]
          exact congrArg (Except.map Result.value) hr
      | _ => cases ht

end Shape

end RecordAlgebra
