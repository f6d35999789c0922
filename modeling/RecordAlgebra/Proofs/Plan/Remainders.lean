import RecordAlgebra.Proofs.Plan.Splits
import RecordAlgebra.Proofs.Typing.Built

/-!
# Building remainders

What remains of a split filter becomes a filter over an input of unknown type. What cannot
fail over the elements of a shape also passes the checks over elements of which nothing is
known, and its type is then unknown or what it was found to be. So the remainder of an
expression that was built can be built, and the expression always has a coverage.
-/

namespace RecordAlgebra

namespace Expr

variable {view : ItemRef → String} {scopes : List DataType}

theorem deriveOperands_ok {op : BooleanOp} {whole : Expr} {operands : List Expr}
    {trusting : Bool}
    (h : ∀ e ∈ operands, ∃ t, partType trusting scopes e (fun _ => derive trusting view scopes e) =
      .ok t ∧ t.isBooleanLike = true) :
    deriveOperands trusting view scopes op whole operands = .ok () := by
  induction operands with
  | nil => rfl
  | cons e rest ih =>
      obtain ⟨⟨t, ht, hlike⟩, hrest⟩ := List.forall_mem_cons.1 h
      rw [deriveOperands, ht]
      show (if t.isBooleanLike then _ else _) = _
      rw [if_pos hlike, ih hrest]

end Expr

namespace Shape

variable {view : ItemRef → String} {shape : Shape} {e : Expr} {t l r : DataType}
  {scopes : List DataType}

/-- A type that was found is unknown where nothing is known of the element. -/
def Blurs (t s : DataType) : Prop := s = .any ∨ s = t

theorem isBooleanLike_of_blurs {s : DataType} (h : Blurs t s) (ht : isTruthType t = true) :
    s.isBooleanLike = true := by
  rcases h with rfl | rfl
  · rfl
  · unfold isTruthType at ht
    split at ht <;> first | rfl | cases ht

theorem isComparable_of_blurs {l' r' : DataType} (hl : Blurs l l') (hr : Blurs r r')
    (h : isSafelyOrdered l r = true) : l'.isComparable r' = true := by
  have scalar {t : DataType} (h : (t.isPlain || t.isNull) = true) : ∃ s, t = .scalar s := by
    cases t with
    | scalar s => exact ⟨s, rfl⟩
    | _ => cases h
  simp only [isSafelyOrdered, Bool.and_eq_true] at h
  obtain ⟨⟨hleft, hright⟩, hcomparable⟩ := h
  obtain ⟨s, rfl⟩ := scalar hleft
  obtain ⟨s', rfl⟩ := scalar hright
  rcases hl with rfl | rfl
  · rcases hr with rfl | rfl
    · rfl
    · cases s' <;> rfl
  · rcases hr with rfl | rfl
    · cases s <;> rfl
    · exact hcomparable

theorem derive_of_infallibleType? (h : shape.infallibleType? e = some t) :
    ∃ s, Expr.derive false view (.any :: scopes) e = .ok s ∧ Blurs t s := by
  induction e using Expr.childInduction generalizing t with
  | step e ih =>
      cases e with
      | literal v =>
          cases h
          exact ⟨_, Expr.derive_literal _ _ _ v, .inr rfl⟩
      | field base name type =>
          obtain ⟨found, hfound, h⟩ := Option.bind_eq_some_iff.1 h
          rw [Expr.elementField?, Option.ite_none_right_eq_some] at hfound
          obtain ⟨context, rfl⟩ := eq_context_of_isElement hfound.1
          exact ⟨.any, by rw [Expr.derive, Expr.partType_false, Expr.derive]; rfl, .inl rfl⟩
      | comparison op left right =>
          obtain ⟨l, hl, h⟩ := Option.bind_eq_some_iff.1 h
          obtain ⟨r, hr, h⟩ := Option.bind_eq_some_iff.1 h
          rw [Option.ite_none_left_eq_some] at h
          obtain ⟨hsafe, h⟩ := h
          cases h
          obtain ⟨l', hl', hleft⟩ := ih (left, .same) (by simp [Expr.children]) hl
          obtain ⟨r', hr', hright⟩ := ih (right, .same) (by simp [Expr.children]) hr
          refine ⟨.boolean, ?_, .inr rfl⟩
          rw [Expr.derive, Expr.partType_false, Expr.partType_false, hl', hr']
          show (if _ then _ else _) = _
          rw [if_neg]
          cases hop : op.isOrdering with
          | false => simp
          | true =>
              rw [hop] at hsafe
              rw [isComparable_of_blurs hleft hright (by simpa using hsafe)]
              simp
      | boolean op operands =>
          rw [infallibleType?, Option.ite_none_right_eq_some] at h
          obtain ⟨hoperands, h⟩ := h
          cases h
          refine ⟨.boolean, ?_, .inr rfl⟩
          rw [Expr.derive, Expr.deriveOperands_ok fun e he => ?_]
          · rfl
          · obtain ⟨t, ht, htruth⟩ := exists_truthType_of_mem hoperands he
            obtain ⟨s, hs, hblurs⟩ := ih (e, .same) (by simpa [Expr.children] using he) ht
            exact ⟨s, hs, isBooleanLike_of_blurs hblurs htruth⟩
      | negation op operand =>
          cases op with
          | minus => cases h
          | not =>
              obtain ⟨u, hu, h⟩ := Option.bind_eq_some_iff.1 h
              rw [Option.ite_none_right_eq_some] at h
              obtain ⟨htruth, h⟩ := h
              cases h
              obtain ⟨s, hs, hblurs⟩ := ih (operand, .same) (by simp [Expr.children]) hu
              refine ⟨.boolean, ?_, .inr rfl⟩
              rw [Expr.derive, Expr.partType_false, hs]
              exact if_pos (isBooleanLike_of_blurs hblurs htruth)
      | function f input =>
          obtain ⟨u, hu, h⟩ := Option.bind_eq_some_iff.1 h
          obtain ⟨s, hs, hblurs⟩ := ih (input, .same) (by simp [Expr.children]) hu
          obtain ⟨haccepts, h⟩ : f.accepts s = true ∧ some f.returnType = some t := by
            split at h
            · rcases hblurs with rfl | rfl <;> cases f <;> exact ⟨rfl, h⟩
            · rcases hblurs with rfl | rfl <;> cases f <;> exact ⟨rfl, h⟩
            · cases h
          cases h
          refine ⟨f.returnType, ?_, .inr rfl⟩
          rw [Expr.derive, Expr.partType_false, hs]
          show (((f.checkInput s).mapError _) >>= _) = _
          rw [ScalarFunction.checkInput, if_pos haccepts]
          rfl
      | _ => cases h

end Shape

namespace Coverage

variable {view : ItemRef → String} {segment : Segment} {conjuncts : List Expr} {e rest : Expr}

/-- A conjunction of infallible operands is one. -/
theorem exists_truthType_of_conjunction {shape : Shape}
    (h : conjunction view conjuncts = .ok rest)
    (hinfallible : shape.areInfallible conjuncts = true) :
    ∃ t, shape.infallibleType? rest = some t ∧ Shape.isTruthType t = true := by
  rcases conjunction_cases h with rfl | rfl
  · exact Shape.exists_truthType_of_mem hinfallible List.mem_cons_self
  · exact ⟨.boolean, if_pos hinfallible, rfl⟩

theorem mkBoolean_conjunction (hnonempty : conjuncts ≠ [])
    (hlike : ∀ e ∈ conjuncts, e.datatype.isBooleanLike = true) :
    Expr.mkBoolean view .and conjuncts = .ok (.boolean .and conjuncts) := by
  rw [Expr.mkBoolean, if_neg (by simpa using hnonempty), Expr.checked, Expr.derive,
    Expr.deriveOperands_ok fun e he => ⟨_, rfl, hlike e he⟩]
  rfl

theorem exists_conjunction (hnonempty : conjuncts ≠ [])
    (hlike : ∀ e ∈ conjuncts, e.datatype.isBooleanLike = true) :
    ∃ rest, conjunction view conjuncts = .ok rest := by
  unfold conjunction
  split
  · exact ⟨_, rfl⟩
  · exact ⟨_, mkBoolean_conjunction hnonempty hlike⟩

theorem mkFilter_infallible {shape : Shape} {t : DataType}
    (ht : shape.infallibleType? rest = some t) (htruth : Shape.isTruthType t = true) :
    Expr.mkFilter view .element rest = .ok (.filter .element rest) := by
  obtain ⟨s, hs, hblurs⟩ := Shape.derive_of_infallibleType? ht
  rw [Expr.mkFilter, Expr.checked, Expr.derive]
  show ((Except.ok DataType.any >>= fun element =>
    Expr.derive true view [element] rest >>= _).map _) = _
  show ((Expr.derive true view [.any] rest >>= _).map _) = _
  rw [Expr.derive_nested, hs]
  show (Except.map _ (if s.isBooleanLike then _ else _)) = _
  rw [if_pos (Shape.isBooleanLike_of_blurs hblurs htruth)]
  rfl

/-- The remainder of a split can be built. -/
theorem exists_split (view : ItemRef → String) (segment : Segment)
    (hlike : ∀ e ∈ conjuncts, e.datatype.isBooleanLike = true) :
    ∃ coverage, split view segment conjuncts = .ok coverage := by
  simp only [split]
  split
  · exact ⟨_, rfl⟩
  · next hsplit =>
    simp only [Bool.or_eq_true, not_or, Bool.not_eq_true, Bool.not_eq_false'] at hsplit
    obtain ⟨⟨-, hremaining⟩, hinfallible⟩ := hsplit
    have hnonempty : segment.shape.remaining conjuncts ≠ [] := by
      intro hnone
      rw [Shape.remaining] at hnone
      rw [hnone] at hremaining
      cases hremaining
    obtain ⟨rest, hrest⟩ :
        ∃ rest, conjunction view (segment.shape.remaining conjuncts) = .ok rest :=
      exists_conjunction hnonempty fun e he => hlike e (List.mem_filter.1 he).1
    obtain ⟨t, ht, htruth⟩ := exists_truthType_of_conjunction hrest hinfallible
    rw [show conjuncts.filter _ = segment.shape.remaining conjuncts from rfl, hrest]
    show ∃ coverage, (Expr.mkFilter view .element rest >>= _) = Except.ok coverage
    rw [mkFilter_infallible ht htruth]
    exact ⟨_, rfl⟩

/-- What was built has a coverage, whatever text items have in errors. -/
theorem exists_ofExpr (view : ItemRef → String) (schema : Schema) {view' : ItemRef → String}
    (built : e.Built view') : ∃ coverage, ofExpr view schema e = .ok coverage := by
  unfold ofExpr
  split
  · exact ⟨_, rfl⟩
  · split
    · next source conjuncts _ =>
      have hbuilt := built.part (.boolean .and conjuncts, .nested) (by simp [Expr.children])
      split
      · exact exists_split view _ fun e he => hbuilt.isBooleanLike he
      · exact ⟨_, rfl⟩
    · exact ⟨_, rfl⟩

end Coverage

end RecordAlgebra
