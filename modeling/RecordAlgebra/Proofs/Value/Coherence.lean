import RecordAlgebra.Eval.Basic
import RecordAlgebra.Proofs.Value.Order

/-!
# Coherence of the comparisons

Where two values have an order, they are equal exactly if the order says so, and no item is
looked into to find that out. Exchanged values have the reversed order. The negated operator
finds the negation of what the operator finds, if both start from the same state.
-/

namespace RecordAlgebra

namespace Value

theorem order_swap_iff {v u : Value} {o : Ordering} :
    order v u = .ok o ↔ order u v = .ok o.swap := by
  have swapped {v u : Value} {o : Ordering} (h : order v u = .ok o) :
      order u v = .ok o.swap := by
    obtain ⟨o', h'⟩ := Comparable.symm ⟨o, h⟩
    rw [h', ← totalOrder_of_order h', ← totalOrder_of_order h, totalOrder_swap]
  refine ⟨swapped, fun h => ?_⟩
  rw [← Ordering.swap_swap (o := o)]
  exact swapped h

section Equality

theorem orderBytes_eq_iff {as bs : List UInt8} : orderBytes as bs = .eq ↔ as = bs := by
  induction as generalizing bs with
  | nil => cases bs <;> simp [orderBytes]
  | cons a as ih =>
      cases bs with
      | nil => simp [orderBytes]
      | cons b bs =>
          rw [orderBytes, Ordering.then_eq_eq, ih, Std.LawfulEqCmp.compare_eq_iff_eq,
            List.cons.injEq]

theorem length_eq_of_orderLists {as bs : List Value} (h : orderLists as bs = .ok .eq) :
    as.length = bs.length := by
  induction as generalizing bs with
  | nil => cases bs <;> first | rfl | cases h
  | cons a as ih =>
      cases bs with
      | nil => cases h
      | cons b bs =>
          rw [orderLists] at h
          split at h
          · exact congrArg (· + 1) (ih h)
          · next hne => exact absurd h hne

theorem beq_eq_of_iff {α : Type} [BEq α] [LawfulBEq α] {o : Ordering} {a b : α}
    (h : o = .eq ↔ a = b) : (a == b) = (o == .eq) := by
  rw [Bool.eq_iff_iff, beq_iff_eq, beq_iff_eq, h]

mutual

/-- Values that have an order are equal if it says so, and no item is looked into. -/
theorem equal_of_order {m : Type → Type} [Monad m] [LawfulMonad m]
    (items : ItemRef → ItemRef → m Bool) : ∀ {v u : Value} {o : Ordering}, order v u = .ok o →
    v.equal items u = pure (o == .eq) := by
  intro v u o h
  cases v <;> cases u <;> try (cases h; done)
  case list.list as bs =>
    rw [order] at h
    rw [Value.equal]
    split
    next hlength => exact equalElements_of_order items hlength h
    next hlength =>
      have hne : o ≠ .eq := fun ho => hlength (length_eq_of_orderLists (ho ▸ h))
      rw [beq_eq_false_iff_ne.2 hne]
  all_goals cases h
  case bool.bool => exact congrArg pure (beq_eq_of_iff Std.LawfulEqCmp.compare_eq_iff_eq)
  case int.int =>
    exact congrArg pure (beq_eq_of_iff (Std.LawfulEqCmp.compare_eq_iff_eq.trans Int64.toInt_inj))
  case float.int x n =>
    rw [Value.equal, ← Binary64.order_swap]
    cases Binary64.order x (toFloat n) <;> rfl
  case text.text => exact congrArg pure (beq_eq_of_iff Std.LawfulEqCmp.compare_eq_iff_eq)
  case bytes.bytes => exact congrArg pure (beq_eq_of_iff orderBytes_eq_iff)
  case timestamp.timestamp => exact congrArg pure (beq_eq_of_iff (Timestamp.order_eq_iff _ _))
  all_goals rfl

theorem equalElements_of_order {m : Type → Type} [Monad m] [LawfulMonad m]
    (items : ItemRef → ItemRef → m Bool) : ∀ {as bs : List Value} {o : Ordering},
    as.length = bs.length → orderLists as bs = .ok o →
      equalElements items as bs = pure (o == .eq)
  | [], [], _, _, h => by
      cases h
      rfl
  | [], _ :: _, _, hlength, _ | _ :: _, [], _, hlength, _ => by cases hlength
  | a :: as, b :: bs, o, hlength, h => by
      rw [orderLists] at h
      rw [equalElements]
      split at h
      next hab =>
        rw [equal_of_order items hab, pure_bind]
        exact equalElements_of_order items (Nat.succ.inj hlength) h
      next hne =>
        have ho : o ≠ .eq := fun ho => hne (ho ▸ h)
        rw [equal_of_order items h, pure_bind, beq_eq_false_iff_ne.2 ho]
        rfl

end

end Equality

section Operators

variable {op : ComparisonOp} (access : ItemAccess EvalM) (v u : Value)

/-- What an ordering operator finds does not depend on the state. -/
theorem compare_of_isOrdering (hop : op.isOrdering = true) :
    v.compare access op u =
      EvalM.lift (if v.isNull || u.isNull then .ok .null
        else (order v u).map fun o => .bool (op.holds o)) := by
  cases op <;> cases hop <;> simp only [compare] <;> split <;>
    first | rfl | cases order v u <;> rfl

/-- The negated operator finds the negation in three values. -/
theorem compare_negate (op : ComparisonOp) :
    v.compare access op.negate u = v.compare access op u >>= Expr.negated .not := by
  by_cases hop : op.isOrdering = true
  · have hop' : op.negate.isOrdering = true := by cases op <;> cases hop <;> rfl
    rw [compare_of_isOrdering access v u hop, compare_of_isOrdering access v u hop']
    split
    · rfl
    · cases order v u with
      | ok o =>
          simp only [Except.map, ComparisonOp.holds_negate]
          rfl
      | error e => rfl
  · cases op with
    | equal =>
        simp only [compare, ComparisonOp.negate, bind_assoc, pure_bind]
        rfl
    | notEqual =>
        simp only [compare, ComparisonOp.negate, bind_assoc, pure_bind]
        exact bind_congr fun b => by cases b <;> rfl
    | less | lessOrEqual | greater | greaterOrEqual => exact absurd rfl hop

/-- An ordering operator finds for exchanged operands what the flipped one does, and that can be
negated, or both fail because there is no order. -/
theorem compare_flip_of_isOrdering (hop : op.isOrdering = true) :
    (∃ found negation, Expr.negated .not found = pure negation ∧
      v.compare access op u = pure found ∧ u.compare access op.flip v = pure found) ∨
      ∃ e e' : Error, e.kind = .typeMismatch ∧ e'.kind = .typeMismatch ∧
        v.compare access op u = EvalM.raise e ∧ u.compare access op.flip v = EvalM.raise e' := by
  have hop' : op.flip.isOrdering = true := by cases op <;> cases hop <;> rfl
  rw [compare_of_isOrdering access v u hop, compare_of_isOrdering access u v hop',
    Bool.or_comm u.isNull]
  split
  · exact .inl ⟨.null, .null, rfl, rfl, rfl⟩
  · cases h : order v u with
    | ok o =>
        rw [order_swap_iff.1 h, Except.map, Except.map, ComparisonOp.holds_flip]
        exact .inl ⟨_, .bool !op.holds o, rfl, rfl, rfl⟩
    | error e =>
        cases h' : order u v with
        | ok o =>
            rw [order_swap_iff.1 h'] at h
            cases h
        | error e' =>
            exact .inr ⟨e, e', kind_of_order_error h, kind_of_order_error h', rfl, rfl⟩

end Operators

end Value

end RecordAlgebra
