import RecordAlgebra.Pipeline.Run
import RecordAlgebra.Plan.Condition
import RecordAlgebra.Proofs.Datum.Equality
import RecordAlgebra.Proofs.Eval.Running
import RecordAlgebra.Proofs.Expr.Elementwise
import RecordAlgebra.Proofs.Plan.Elements
import RecordAlgebra.Proofs.Typing.Derivation
import RecordAlgebra.Proofs.Typing.Tolerance
import RecordAlgebra.Proofs.Value.Order

/-!
# Conditions select what predicates select

A predicate may be null for an element, a condition either selects a document or does not.
Both agree because null does not select, connectives without negation keep that, and the only
negation that becomes a condition is that of an equality, which is never null. Conditions
compare a field with a constant, in this order, so a comparison may have to be turned around.
-/

namespace RecordAlgebra

namespace Datum

variable {d e : Datum} {op : ComparisonOp}

theorem compare_of_isOrdering (hop : op.isOrdering = true) : compare op d e =
    if d.isNull || e.isNull then .ok .null
    else (order d e).map fun o => .bool (op.holds o) := by
  cases op <;> cases hop <;> rfl

theorem compare_detached_of_isOrdering (hop : op.isOrdering = true) :
    Value.compare ItemAccess.detached op d.bare e.bare =
      if d.isNull || e.isNull then .ok .null
      else (Value.order d.bare e.bare).map fun o => .bool (op.holds o) := by
  cases op <;> cases hop <;> simp only [Value.compare] <;> cases Value.order d.bare e.bare <;> rfl

section Comparison

variable (hd : d.isPlain = true) (he : e.isPlain = true)

include hd he

theorem equal_detached :
    Value.equal ItemAccess.detached.equal d.bare e.bare = .ok (d.equal e) := by
  cases d <;> cases hd <;> cases e <;> cases he <;> rfl

theorem equal_comm : d.equal e = e.equal d := by
  have single {d : Datum} (h : d.isPlain = true) : d.bare.isSingle = true := by
    cases d <;> cases h <;> rfl
  exact Bool.eq_iff_iff.2 ⟨equal_symm_single (single hd), equal_symm_single (single he)⟩

/-- The comparison of documents ends like that of the data and selects accordingly. -/
theorem compare_decides
    (hordered : op.isOrdering = true → Value.Comparable d.bare e.bare) :
    ∃ r b, compare op d e = .ok r ∧ r.Decides b ∧
      (do (← Value.compare ItemAccess.detached op d.bare e.bare).toPredicate Pipeline.noItems) =
        .ok b := by
  by_cases hop : op.isOrdering = true
  · obtain ⟨o, ho⟩ := hordered hop
    rw [compare_of_isOrdering hop, compare_detached_of_isOrdering hop, order, ho]
    by_cases hnull : (d.isNull || e.isNull) = true
    · exact ⟨.null, false, if_pos hnull, .null, by rw [if_pos hnull]; rfl⟩
    · exact ⟨.bool (op.holds o), _, if_neg hnull, .bool _, by rw [if_neg hnull]; rfl⟩
  · cases op with
    | equal =>
        refine ⟨_, d.equal e, rfl, .bool _, ?_⟩
        rw [Value.compare, equal_detached hd he]
        rfl
    | notEqual =>
        refine ⟨_, !d.equal e, rfl, .bool _, ?_⟩
        rw [Value.compare, equal_detached hd he]
        rfl
    | less | lessOrEqual | greater | greaterOrEqual => exact (hop rfl).elim

/-- Exchanging the operands turns the operator around. -/
theorem compare_flip (hordered : op.isOrdering = true → Value.Comparable d.bare e.bare) :
    compare op.flip d e = compare op e d := by
  by_cases hop : op.isOrdering = true
  · obtain ⟨o, ho⟩ := hordered hop
    obtain ⟨o', ho'⟩ := Value.Comparable.symm ⟨o, ho⟩
    obtain rfl : o = o'.swap := by
      rw [← Value.totalOrder_of_order ho, ← Value.totalOrder_of_order ho', Value.totalOrder_swap]
    have hop' : op.flip.isOrdering = true := by cases op <;> cases hop <;> rfl
    rw [compare_of_isOrdering hop, compare_of_isOrdering hop', Bool.or_comm e.isNull, order, order,
      ho, ho']
    simp only [ofResult_ok, Except.map, ComparisonOp.holds_flip]
  · cases op with
    | equal => exact congrArg (fun b => Except.ok (Datum.bool b)) (equal_comm hd he)
    | notEqual => exact congrArg (fun b => Except.ok (Datum.bool !b)) (equal_comm hd he)
    | less | lessOrEqual | greater | greaterOrEqual => exact (hop rfl).elim

end Comparison

/-- An equality is never null, so its negation is the other one. -/
theorem compare_negate (hop : op.isOrdering = false) :
    compare op.negate d e = (do (← compare op d e).negated .not) := by
  cases op <;> cases hop
  · rfl
  · exact congrArg (fun b => Except.ok (Datum.bool b)) (Bool.not_not _).symm

end Datum

namespace Shape

variable {ref : SourceRef} {shape : Shape} {document : Json} {d : Datum} {name : String} {v : Value}
  {op : ComparisonOp} {condition : Pipeline.Condition} {lit : Value → Datum} {scope : List Meaning}

/-- The condition compares this field with this literal, which is not to fail. -/
structure Compared (document : Json) (d : Datum) (op : ComparisonOp) (name : String) (v : Value)
    (condition : Pipeline.Condition) (part : Datum) : Prop where
  field : d.field name = .ok part
  plain : part.isPlain = true
  constant : (Datum.ofValue v).isPlain = true
  comparable : op.isOrdering = true → Value.Comparable part.bare (Datum.ofValue v).bare
  holds : condition.holds document = do
    (← Value.compare ItemAccess.detached op part.bare (Datum.ofValue v).bare).toPredicate
      Pipeline.noItems

theorem fieldComparison?_eq_some (h : shape.fieldComparison? op name v = some condition) :
    ∃ t constant, shape.plainField? name = some t ∧
      (v.isNull = true ∧ op.isOrdering = false ∨ v.datatype.isPlain = true) ∧
        (op.isOrdering = true → t.isComparable v.datatype = true) ∧
          Document.ofValue v = .ok constant ∧ condition = .compare name op constant := by
  rw [fieldComparison?] at h
  obtain ⟨t, ht, h⟩ := Option.bind_eq_some_iff.1 h
  cases hconstant : Document.ofValue v with
  | error e =>
      rw [hconstant] at h
      revert h
      cases v.isNull <;> cases op.isOrdering <;> cases v.datatype.isPlain <;>
        cases t.isComparable v.datatype <;> exact nofun
  | ok constant =>
      refine ⟨t, constant, ht, ?_⟩
      rw [hconstant] at h
      revert h
      cases v.isNull <;> cases op.isOrdering <;> cases v.datatype.isPlain <;>
        cases t.isComparable v.datatype <;> simp +contextual [eq_comm]

/-- A plain type admits the value, whose datum is plain as well. -/
theorem admits_of_datatype (h : v.isNull = true ∨ v.datatype.isPlain = true) :
    v.isSingle = true ∧ (Datum.ofValue v).isPlain = true ∧ (Datum.ofValue v).bare = v ∧
      (v.isNull = false → ∃ s : FieldType, v.datatype = .scalar s ∧ s.isPlain = true ∧
        s.admits v = true) := by
  cases v <;> rcases h with h | h <;> cases h <;> refine ⟨rfl, rfl, rfl, fun hnull => ?_⟩ <;>
    cases hnull <;> exact ⟨_, rfl, rfl, rfl⟩

theorem isSettled_of_isPlain {s : FieldType} (hs : s.isPlain = true) :
    (DataType.scalar s).isSettled = true := by
  cases s <;> cases hs <;> rfl

theorem Stands.compared (h : shape.Stands ref document d)
    (hcondition : shape.fieldComparison? op name v = some condition) :
    v.isSingle = true ∧ ∃ part, Compared document d op name v condition part := by
  obtain ⟨t, constant, ht, hplain, hcomparable, hconstant, rfl⟩ :=
    fieldComparison?_eq_some hcondition
  obtain ⟨s, part, rfl, hs, hpart, htells⟩ := h.plainField ht
  obtain ⟨hsingle, htold, hbare, hadmits⟩ := admits_of_datatype (hplain.imp_left And.left)
  refine ⟨hsingle, part, hpart, htells.isPlain, htold, fun hop => ?_, ?_⟩
  · have hnull : v.isNull = false := by
      rcases hplain with ⟨-, hop'⟩ | hplain
      · rw [hop] at hop'
        cases hop'
      · cases v <;> first | rfl | cases hplain
    obtain ⟨s', hs', hplain', hv⟩ := hadmits hnull
    have hscalars := hcomparable hop
    rw [hs'] at hscalars
    rw [htells.bare, hbare]
    exact Datum.order_ok_scalar (isSettled_of_isPlain hs) (isSettled_of_isPlain hplain') hscalars
      htells.admits hv
  · rw [Pipeline.Condition.holds, htells.bare]
    have hread : Document.toValue constant = (Datum.ofValue v).bare := by
      refine Document.toValue_of_ofValue (.single htold) ?_
      rw [hbare, hconstant]
    rw [hread]

section Predicates

/-- For this element the expression does not fail, and the condition selects the document if
and only if the outcome selects. -/
def Matches (lit : Value → Datum) (scope : List Meaning) (document : Json) (d : Datum) (e : Expr)
    (condition : Pipeline.Condition) : Prop :=
  ∃ r selected, e.denote lit (.value d :: scope) = .ok (.value r) ∧ r.Decides selected ∧
    condition.holds document = .ok selected

theorem Matches.decided {e : Expr}
    (h : Matches lit scope document d e condition) :
    e.Decided lit (.value d :: scope) ∧
      condition.holds document = .ok (e.isTrue lit (.value d :: scope)) := by
  obtain ⟨r, selected, hr, hdecides, hselected⟩ := h
  exact ⟨Expr.decided_of_decides hr hdecides, by rw [hselected, Expr.isTrue_eq hr hdecides]⟩

variable {left right : Expr}

theorem Stands.comparison (h : shape.Stands ref document d) (hleft : left.Knows lit)
    (hright : right.Knows lit) (hcondition : shape.comparison? op left right = some condition) :
    ∃ a b r selected, left.denote lit (.value d :: scope) = .ok (.value a) ∧
      right.denote lit (.value d :: scope) = .ok (.value b) ∧ Datum.compare op a b = .ok r ∧
        r.Decides selected ∧ condition.holds document = .ok selected := by
  have denoted {name : String} {part : Datum} {e : Expr} (he : e.elementField? = some name)
      (hpart : d.field name = .ok part) :
      e.denote lit (.value d :: scope) = .ok (.value part) := by
    rw [Expr.denote_elementField he, hpart]
    rfl
  have known {e : Expr} {v : Value} (he : e.literal? = some v) (hknown : e.Knows lit)
      (hsingle : v.isSingle = true) :
      e.denote lit (.value d :: scope) = .ok (.value (.ofValue v)) := by
    obtain rfl := Expr.literal?_eq_some he
    rw [Expr.denote_literal, hknown v (Expr.hasLiteral_self v) hsingle]
  rw [comparison?] at hcondition
  split at hcondition
  next name v hfield hliteral =>
    obtain ⟨hsingle, part, hcompared⟩ := h.compared hcondition
    obtain ⟨r, selected, hr, hdecides, hselected⟩ :=
      Datum.compare_decides hcompared.plain hcompared.constant hcompared.comparable
    exact ⟨part, .ofValue v, r, selected, denoted hfield hcompared.field,
      known hliteral hright hsingle, hr, hdecides, hcompared.holds.trans hselected⟩
  next =>
    split at hcondition
    next v name hliteral hfield =>
      obtain ⟨hsingle, part, hcompared⟩ := h.compared hcondition
      obtain ⟨r, selected, hr, hdecides, hselected⟩ :=
        Datum.compare_decides hcompared.plain hcompared.constant hcompared.comparable
      have hflip := Datum.compare_flip hcompared.plain hcompared.constant
        fun hop : op.isOrdering = true => hcompared.comparable (by cases op <;> cases hop <;> rfl)
      exact ⟨.ofValue v, part, r, selected, known hliteral hleft hsingle,
        denoted hfield hcompared.field, hflip.symm.trans hr, hdecides,
        hcompared.holds.trans hselected⟩
    next => cases hcondition

section Connectives

variable {operands : List Expr} {conditions : List Pipeline.Condition}

theorem conditions?_cons {e : Expr} {rest : List Expr}
    (h : shape.conditions? (e :: rest) = some conditions) :
    ∃ condition others, shape.condition? e = some condition ∧
      shape.conditions? rest = some others ∧ conditions = condition :: others := by
  rw [conditions?] at h
  obtain ⟨condition, hcondition, h⟩ := Option.bind_eq_some_iff.1 h
  obtain ⟨others, hothers, h⟩ := Option.bind_eq_some_iff.1 h
  exact ⟨condition, others, hcondition, hothers, (Option.some.inj h).symm⟩

theorem exists_condition_of_mem (h : shape.conditions? operands = some conditions) {e : Expr}
    (he : e ∈ operands) : ∃ condition, shape.condition? e = some condition := by
  induction operands generalizing conditions with
  | nil => cases he
  | cons first rest ih =>
      obtain ⟨condition, others, hcondition, hothers, -⟩ := conditions?_cons h
      cases he with
      | head => exact ⟨condition, hcondition⟩
      | tail _ he => exact ih hothers he

section Matching

variable (hmatches : ∀ e ∈ operands, ∀ condition, shape.condition? e = some condition →
  Matches lit scope document d e condition)

include hmatches

theorem decided_of_matches (h : shape.conditions? operands = some conditions) :
    ∀ e ∈ operands, e.Decided lit (.value d :: scope) := by
  intro e he
  obtain ⟨condition, hcondition⟩ := exists_condition_of_mem h he
  exact (hmatches e he condition hcondition).decided.1

theorem holdAll_of_matches (h : shape.conditions? operands = some conditions) :
    Pipeline.Condition.holdAll document conditions =
      .ok (operands.all (Expr.isTrue lit (.value d :: scope))) := by
  induction operands generalizing conditions with
  | nil =>
      cases h
      rfl
  | cons e rest ih =>
      obtain ⟨hfirst, hrest⟩ := List.forall_mem_cons.1 hmatches
      obtain ⟨condition, others, hcondition, hothers, rfl⟩ := conditions?_cons h
      rw [Pipeline.Condition.holdAll, (hfirst condition hcondition).decided.2, List.all_cons]
      cases e.isTrue lit (.value d :: scope) with
      | false => rfl
      | true => exact ih hrest hothers

theorem holdsAny_of_matches (h : shape.conditions? operands = some conditions) :
    Pipeline.Condition.holdsAny document conditions =
      .ok (operands.any (Expr.isTrue lit (.value d :: scope))) := by
  induction operands generalizing conditions with
  | nil =>
      cases h
      rfl
  | cons e rest ih =>
      obtain ⟨hfirst, hrest⟩ := List.forall_mem_cons.1 hmatches
      obtain ⟨condition, others, hcondition, hothers, rfl⟩ := conditions?_cons h
      rw [Pipeline.Condition.holdsAny, (hfirst condition hcondition).decided.2, List.any_cons]
      cases e.isTrue lit (.value d :: scope) with
      | false => exact ih hrest hothers
      | true => rfl

end Matching

end Connectives

/-- A predicate that becomes a condition is matched by it. -/
theorem Stands.matches (h : shape.Stands ref document d) {e : Expr} (hlit : e.Knows lit)
    (hcondition : shape.condition? e = some condition) :
    Matches lit scope document d e condition := by
  induction e using Expr.childInduction generalizing condition with
  | step e ih =>
      cases e with
      | comparison op left right =>
          obtain ⟨a, b, r, selected, ha, hb, hr, hdecides, hselected⟩ :=
            h.comparison (hlit.part (show (left, ChildScope.same) ∈ _ by simp [Expr.children]))
              (hlit.part (show (right, ChildScope.same) ∈ _ by simp [Expr.children])) hcondition
          refine ⟨r, selected, ?_, hdecides, hselected⟩
          rw [Expr.denote, ha, hb]
          exact congrArg (Except.map Result.value) hr
      | boolean op operands =>
          have hmatches : ∀ e ∈ operands, ∀ condition, shape.condition? e = some condition →
              Matches lit scope document d e condition := fun e he condition hcondition =>
            have hpart : (e, ChildScope.same) ∈ (Expr.boolean op operands).children := by
              simpa [Expr.children] using he
            ih _ hpart (hlit.part hpart) hcondition
          cases op with
          | and =>
              obtain ⟨conditions, hconditions, rfl⟩ := Option.map_eq_some_iff.1 hcondition
              obtain ⟨r, hr, hdecides⟩ :=
                Expr.denote_boolean .and (decided_of_matches hmatches hconditions)
              exact ⟨r, _, hr, hdecides, holdAll_of_matches hmatches hconditions⟩
          | or =>
              obtain ⟨conditions, hconditions, rfl⟩ := Option.map_eq_some_iff.1 hcondition
              obtain ⟨r, hr, hdecides⟩ :=
                Expr.denote_boolean .or (decided_of_matches hmatches hconditions)
              exact ⟨r, _, hr, hdecides, holdsAny_of_matches hmatches hconditions⟩
      | negation op operand =>
          cases op with
          | minus => cases hcondition
          | not =>
              cases operand with
              | comparison op left right =>
                  rw [condition?, Option.ite_none_left_eq_some, Bool.not_eq_true] at hcondition
                  have hknows : (Expr.comparison op left right).Knows lit :=
                    hlit.part (show (Expr.comparison op left right, ChildScope.same) ∈ _ by simp [Expr.children])
                  obtain ⟨a, b, r, selected, ha, hb, hr, hdecides, hselected⟩ := h.comparison
                    (hknows.part (show (left, ChildScope.same) ∈ _ by simp [Expr.children]))
                    (hknows.part (show (right, ChildScope.same) ∈ _ by simp [Expr.children])) hcondition.2
                  refine ⟨r, selected, ?_, hdecides, hselected⟩
                  rw [Datum.compare_negate hcondition.1] at hr
                  rw [Expr.denote, Expr.denote, ha, hb]
                  obtain ⟨c, hc, hr⟩ := bind_ok_iff.1 hr
                  have hcompared : Except.map Result.value (Datum.compare op a b) =
                      .ok (.value c) := congrArg _ hc
                  exact bind_ok_iff.2 ⟨.value c, hcompared, congrArg (Except.map Result.value) hr⟩
              | _ => cases hcondition
      | _ => cases hcondition

theorem isSingle_of_comparison (hcondition : shape.comparison? op left right = some condition)
    (hv : left.HasLiteral v ∨ right.HasLiteral v) : v.isSingle = true := by
  have constant {op : ComparisonOp} {name : String} {e : Expr} {u : Value}
      (he : e.literal? = some u) (hv : e.HasLiteral v)
      (hcondition : shape.fieldComparison? op name u = some condition) : v.isSingle = true := by
    obtain rfl := Expr.literal?_eq_some he
    obtain rfl := Expr.hasLiteral_literal.1 hv
    obtain ⟨-, -, -, hplain, -⟩ := fieldComparison?_eq_some hcondition
    exact (admits_of_datatype (hplain.imp_left And.left)).1
  rw [comparison?] at hcondition
  split at hcondition
  next name u hfield hliteral =>
    rcases hv with hv | hv
    · exact (Expr.not_hasLiteral_of_elementField hfield hv).elim
    · exact constant hliteral hv hcondition
  next =>
    split at hcondition
    next u name hliteral hfield =>
      rcases hv with hv | hv
      · exact constant hliteral hv hcondition
      · exact (Expr.not_hasLiteral_of_elementField hfield hv).elim
    next => cases hcondition

/-- Conditions compare with single values only. -/
theorem isSingle_of_condition {e : Expr} (hcondition : shape.condition? e = some condition)
    (hv : e.HasLiteral v) : v.isSingle = true := by
  induction e using Expr.childInduction generalizing condition with
  | step e ih =>
      cases e with
      | comparison op left right =>
          exact isSingle_of_comparison hcondition (Expr.hasLiteral_comparison.1 hv)
      | boolean op operands =>
          obtain ⟨conditions, hconditions⟩ : ∃ conditions,
              shape.conditions? operands = some conditions := by
            cases op <;> exact (Option.map_eq_some_iff.1 hcondition).imp fun _ h => h.1
          obtain ⟨part, hpart, hv⟩ := (Expr.hasLiteral_iff rfl).1 hv
          obtain ⟨e, he, rfl⟩ := List.mem_map.1 hpart
          obtain ⟨condition, he'⟩ := exists_condition_of_mem hconditions he
          exact ih _ hpart he' hv
      | negation op operand =>
          cases op with
          | minus => cases hcondition
          | not =>
              cases operand with
              | comparison op left right =>
                  rw [condition?, Option.ite_none_left_eq_some] at hcondition
                  obtain ⟨part, hpart, hv⟩ := (Expr.hasLiteral_iff rfl).1 hv
                  obtain rfl := List.mem_singleton.1 hpart
                  exact isSingle_of_comparison hcondition.2 (Expr.hasLiteral_comparison.1 hv)
              | _ => cases hcondition
      | _ => cases hcondition

/-- A condition selects the documents of just those elements for which the predicate that it was
made of is true. The predicate is null or false for all others. -/
theorem condition_selects {predicate : Expr} (hcondition : shape.condition? predicate = some condition)
    (h : shape.Stands ref document d) {w : World} {element : Value} (hshows : w.Shows element d) :
    ∃ selected result w', condition.holds document = .ok selected ∧
      (do (← predicate.runValue .live element).intoValue).run w = (.ok result, w') ∧
        ((∃ b, result = .bool b) ∨ result = .null) ∧ (selected = true ↔ result = .bool true) := by
  have hlit : ∀ v, predicate.HasLiteral v → w.Shows v (.ofValue v) := fun v hv =>
    w.shows_ofValue (isSingle_of_condition hcondition hv)
  have hmatches : Matches .ofValue [] document d predicate condition :=
    h.matches (Expr.knows_of_shows hlit) hcondition
  obtain ⟨r, selected, hr, hdecides, hselected⟩ := hmatches
  have hholds : w.Holds .empty := fun _ _ h => by cases h
  have hsettles := (Expr.runValue_settles ItemAccess.live_readsLoaded hholds hshows hlit).intoValue
  rw [hr] at hsettles
  obtain ⟨_, _, _, _, hends⟩ := hsettles
  obtain ⟨result, hresult, hshown⟩ := EndsAs.ok_right hends
  refine ⟨selected, result, _, hselected, Prod.ext hresult rfl, ?_⟩
  cases hdecides with
  | bool =>
      obtain rfl : result = .bool selected := hshown
      exact ⟨.inl ⟨selected, rfl⟩, by simp⟩
  | null =>
      obtain rfl : result = .null := hshown
      exact ⟨.inr rfl, by simp⟩

/-- Being done, the literal first, or not being done. -/
def doneOrNot : Expr :=
  let done := Expr.field (.context 0 (.item tasks.schema)) "done" .boolean
  .boolean .or
    [.comparison .equal (.literal (.bool true)) done,
      .negation .not (.comparison .equal done (.literal (.bool true)))]

/-- A task of which it is unknown whether it is done counts as not being done. -/
theorem condition_selects_unknown :
    ∃ condition, (Shape.ofSchema tasks.schema).condition? doneOrNot = some condition ∧
      ∃ selected result w', condition.holds (.object [("done", .null)]) = .ok selected ∧
        (do (← doneOrNot.runValue .live unknownTask).intoValue).run taskState = (.ok result, w') ∧
        ((∃ b, result = .bool b) ∨ result = .null) ∧
        (selected = true ↔ result = .bool true) ∧ selected = true := by
  obtain ⟨selected, result, w', hselected, hresult, htruth, hiff⟩ :=
    condition_selects (show (ofSchema tasks.schema).condition? doneOrNot = some _ from rfl)
      stands_unknownTask shows_unknownTask
  have hset : selected = true := by
    cases hselected
    rfl
  exact ⟨_, rfl, selected, result, w', hselected, hresult, htruth, hiff, hset⟩

end Predicates

end Shape

end RecordAlgebra
