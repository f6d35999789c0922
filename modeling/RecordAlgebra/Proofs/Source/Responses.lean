import RecordAlgebra.Proofs.Eval.Lazy
import RecordAlgebra.Proofs.Source.Stocked

/-!
# How document stores respond

A document store responds to every expression that was built, in every state, and leaves the
documents as they are. Where a plan gives nothing the store declines and does not count it. What
remains of an expression that is executed in part could be built as well, although nothing is
known there of the type of the elements. It looks at nothing but the element, so it refers to
its input once, and not from inside of the predicate.
-/

namespace RecordAlgebra

namespace Expr

variable {e : Expr} {depth : Nat}

theorem ignores_of_parts (he : e.isContext = false)
    (h : ∀ part ∈ e.children, part.1.Ignores (depth + part.2.bindings)) : e.Ignores depth := by
  have hparts (parts : List (Expr × ChildScope)) (position : Nat)
      (h : ∀ part ∈ parts, part.1.Ignores (depth + part.2.bindings)) :
      (partReferences (fun _ => false) depth position parts).total = 0 := by
    induction parts generalizing position with
    | nil => rfl
    | cons first rest ih =>
        obtain ⟨hfirst, hrest⟩ := List.forall_mem_cons.1 h
        rw [partReferences, References.total_add, ih (position + 1) hrest]
        exact hfirst
  rw [Ignores, references_parts rfl he]
  exact hparts e.children 0 h

end Expr

namespace Shape

variable {shape : Shape} {e : Expr} {t : DataType}

/-- What cannot fail looks at nothing but the element. -/
theorem ignores_of_infallibleType? (h : shape.infallibleType? e = some t) : e.Ignores 1 := by
  induction e using Expr.childInduction generalizing t with
  | step e ih =>
      cases e with
      | literal v => rfl
      | field base name type =>
          obtain ⟨found, hfound, -⟩ := Option.bind_eq_some_iff.1 h
          rw [Expr.elementField?, Option.ite_none_right_eq_some] at hfound
          obtain ⟨context, rfl⟩ := eq_context_of_isElement hfound.1
          rfl
      | comparison op left right =>
          obtain ⟨l, hl, h⟩ := Option.bind_eq_some_iff.1 h
          obtain ⟨r, hr, -⟩ := Option.bind_eq_some_iff.1 h
          refine Expr.ignores_of_parts rfl fun part hpart => ?_
          simp only [Expr.children, List.mem_cons, List.not_mem_nil, or_false] at hpart
          rcases hpart with rfl | rfl
          · exact ih (left, .same) (by simp [Expr.children]) hl
          · exact ih (right, .same) (by simp [Expr.children]) hr
      | boolean op operands =>
          rw [infallibleType?, Option.ite_none_right_eq_some] at h
          refine Expr.ignores_of_parts rfl fun part hpart => ?_
          obtain ⟨operand, hoperand, rfl⟩ := List.mem_map.1 hpart
          obtain ⟨u, hu, -⟩ := exists_truthType_of_mem h.1 hoperand
          exact ih (operand, .same) hpart hu
      | negation op operand =>
          cases op with
          | minus => cases h
          | not =>
              obtain ⟨u, hu, -⟩ := Option.bind_eq_some_iff.1 h
              exact ih (operand, .same) (by simp [Expr.children]) hu
      | function f input =>
          obtain ⟨u, hu, -⟩ := Option.bind_eq_some_iff.1 h
          exact ih (input, .same) (by simp [Expr.children]) hu
      | _ => cases h

end Shape

namespace Coverage

variable {view view' : ItemRef → String} {schema : Schema} {conjuncts : List Expr}
  {e rest remainder : Expr} {plan : Plan}

/-- A conjunction of expressions that were built could be built. -/
theorem built_conjunction (h : conjunction view' conjuncts = .ok rest)
    (hconjuncts : ∀ e ∈ conjuncts, e.Built view)
    (hlike : ∀ e ∈ conjuncts, e.datatype.isBooleanLike = true) : rest.Built view := by
  have hnonempty : conjuncts ≠ [] := by
    rintro rfl
    cases h
  rcases conjunction_cases h with rfl | rfl
  · exact hconjuncts rest List.mem_cons_self
  · exact .boolean hconjuncts (mkBoolean_conjunction hnonempty hlike)

/-- What remains of an expression that was built could be built, and refers to its input once. -/
theorem built_remainder (built : e.Built view)
    (h : ofExpr view' schema e = .ok (.partly plan remainder)) :
    remainder.Built view ∧ remainder.inputReferences.isSingleDirect = true := by
  obtain ⟨source, conjuncts, segment, rfl, -, hsplit⟩ := ofExpr_eq_partly h
  obtain ⟨rest, -, hinfallible, hrest, rfl⟩ := split_eq_partly hsplit
  obtain ⟨t, ht, htruth⟩ := exists_truthType_of_conjunction hrest hinfallible
  have hconjunction := built.part (.boolean .and conjuncts, .nested) (by simp [Expr.children])
  have hbuilt : rest.Built view := by
    refine built_conjunction hrest (fun e he => ?_) fun e he => ?_
    · exact hconjunction.part (e, .same)
        (List.mem_map.2 ⟨e, (List.mem_filter.1 he).1, rfl⟩)
    · exact hconjunction.isBooleanLike (List.mem_filter.1 he).1
  constructor
  · exact .filter (.outer 0) hbuilt (mkFilter_infallible ht htruth)
  · have hlazy : (Expr.filter .element rest).IsLazy :=
      .filter (.input .any) (Shape.ignores_of_infallibleType? ht)
    rw [Expr.inputReferences, hlazy.references_eq]
    rfl

end Coverage

namespace Source.Documents

variable {ref : SourceRef} {view : ItemRef → String} {e : Expr} {w : World}

/-- How a store responds to an expression, and the state after that. -/
structure Responds (ref : SourceRef) (view : ItemRef → String) (coverage : Coverage) (w : World)
    (execution : Execution) (w' : World) : Prop where
  /-- No store has other documents than before. -/
  contents : ∀ other, Documents.contents other w' = Documents.contents other w
  /-- If the pipeline fails, the store declines. -/
  failed : ∀ plan error, coverage.plan? = some plan →
    plan.pipeline.run ((Documents.contents ref w).map Prod.snd) = .error error →
      execution = .declined
  /-- It also declines if the output of the pipeline cannot be read. -/
  unread : ∀ plan, coverage.plan? = some plan →
    runPlan? ref.schema plan ((Documents.contents ref w).map Prod.snd) = none →
      execution = .declined
  declined : execution = .declined → w' = w
  executed : execution ≠ .declined → w' = countNative ref w
  remains : ∀ output remainder, execution = .partly output remainder →
    remainder.Built view ∧ remainder.inputReferences.isSingleDirect = true

theorem isDeclined_iff {execution : Execution} :
    isDeclined execution = true ↔ execution = .declined := by
  cases execution <;> simp [isDeclined]

theorem executionOf_eq_declined {coverage : Coverage} {documents : List Json} {plan : Plan}
    (hplan : coverage.plan? = some plan) (h : runPlan? ref.schema plan documents = none) :
    executionOf ref coverage documents = .declined := by
  cases coverage with
  | nothing => cases hplan
  | full plan | partly plan remainder =>
      cases hplan
      rw [executionOf, h]

theorem runPlan?_of_error {plan : Plan} {documents : List Json} {schema : Schema} {error : Error}
    (h : plan.pipeline.run documents = .error error) : runPlan? schema plan documents = none := by
  rw [runPlan?, h]

/-- A store responds to every expression that was built, in every state. -/
theorem exists_response (access : ItemAccess EvalM) (scansAllowed : Bool) (built : e.Built view)
    (w : World) : ∃ coverage execution w', Coverage.ofExpr w.view ref.schema e = .ok coverage ∧
      ((create access ref scansAllowed).offer e).run w = (.ok execution, w') ∧
      Responds ref view coverage w execution w' := by
  obtain ⟨coverage, hcoverage⟩ := Coverage.exists_ofExpr w.view ref.schema built
  refine ⟨coverage, _, _, hcoverage, offer_run hcoverage, ?_⟩
  constructor
  case contents => exact fun other => contents_extends (extends_stateResponded ref _ w)
  case failed =>
    exact fun plan error hplan hfails =>
      executionOf_eq_declined hplan (runPlan?_of_error hfails)
  case unread => exact fun plan hplan hunread => executionOf_eq_declined hplan hunread
  case declined => exact fun h => if_pos (isDeclined_iff.2 h)
  case executed => exact fun h => if_neg fun hdeclined => h (isDeclined_iff.1 hdeclined)
  case remains =>
    intro output remainder h
    obtain ⟨plan, rfl, -⟩ := eq_partly_of_executionOf h
    exact Coverage.built_remainder built hcoverage

/-- Of two conjuncts the second remains, for the one person that the store finds. -/
theorem exists_response_grown :
    let schema : Schema :=
      { name := "people", properties := [⟨"id", .int, true⟩, ⟨"age", .int, false⟩]
        distinct := by decide }
    let ref : SourceRef := { id := 0, name := "people", schema }
    let named : Expr := .comparison .equal (.field .element "id" .any) (.literal (.int 1))
    let grown : Expr := .negation .not
      (.comparison .less (.field .element "age" .any) (.literal (.int 18)))
    let e : Expr := .filter (.allItems schema) (.boolean .and [named, grown])
    let w : World :=
      { stores := #[{ documents := [("[1]", .object [("id", .int 1), ("age", .int 7)]),
          ("[2]", .object [("id", .int 2), ("age", .null)])] }] }
    let remainder : Expr := .filter .element grown
    ((create .live ref false).offer e).run w =
        (.ok (.partly (.rows [[("id", .int 1), ("age", .int 7)]]) remainder), countNative ref w) ∧
      remainder.Built Datum.unseen ∧ remainder.inputReferences.isSingleDirect = true := by
  intro schema ref named grown e w remainder
  have hfield (name : String) : (Expr.field .element name .any).Built Datum.unseen :=
    .field (.outer 0) (show Expr.mkField _ .element name = .ok _ from rfl)
  have hnamed : named.Built Datum.unseen :=
    .comparison (hfield "id") (.literal (.int 1))
      (show Expr.mkComparison _ .equal _ _ = .ok named from rfl)
  have hless : (Expr.comparison .less (.field .element "age" .any) (.literal (.int 18))).Built
      Datum.unseen :=
    .comparison (hfield "age") (.literal (.int 18))
      (show Expr.mkComparison _ .less _ _ = .ok _ from rfl)
  have hgrown : grown.Built Datum.unseen :=
    .negation hless (show Expr.mkNegation _ .not _ = .ok grown from rfl)
  have hboth : (Expr.boolean .and [named, grown]).Built Datum.unseen :=
    .boolean (List.forall_mem_cons.2 ⟨hnamed, List.forall_mem_singleton.2 hgrown⟩)
      (show Expr.mkBoolean _ .and [named, grown] = .ok _ from rfl)
  have hbuilt : e.Built Datum.unseen :=
    .filter (.input _) hboth (show Expr.mkFilter _ (.allItems schema) _ = .ok e from rfl)
  have hrun : ((create .live ref false).offer e).run w =
      (.ok (.partly (.rows [[("id", .int 1), ("age", .int 7)]]) remainder), countNative ref w) := rfl
  obtain ⟨_, _, _, -, hoffer, hresponds⟩ := @exists_response ref _ _ .live false hbuilt w
  cases hrun.symm.trans hoffer
  exact ⟨hrun, hresponds.remains _ _ rfl⟩

end Source.Documents

end RecordAlgebra
