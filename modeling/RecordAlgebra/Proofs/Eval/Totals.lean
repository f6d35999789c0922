import RecordAlgebra.Eval.Basic
import RecordAlgebra.Proofs.Sequence.Sorted
import RecordAlgebra.Proofs.Value.Totals

/-!
# Totals of sequences

An aggregate reads its sequence to the end. If that gives values only, the aggregate is what the
values come to, whatever state is left. An aggregate of a projection takes the elements of the
projected sequence, and only a count can tell.
-/

namespace RecordAlgebra

/-- The action comes to this result in some state, unless it does not end. Whether it may not end
is said by `endless`. -/
def EvalM.ComesTo {α : Type} (endless : Prop) (m : EvalM α) (w : World) (r : Except Error α) :
    Prop :=
  (endless ∧ (m.run w).1 = .error .diverged) ∨ ∃ w', m.run w = (EvalM.lift r).run w'

namespace EvalM

variable {α β : Type} {endless : Prop} {m : EvalM α} {w w₁ : World} {r : Except Error α}

theorem ComesTo.bind {f : α → EvalM β} {g : α → Except Error β} (h : m.ComesTo endless w r)
    (hf : ∀ a w', (f a).run w' = (lift (g a)).run w') :
    (m >>= f).ComesTo endless w (r >>= g) := by
  rcases h with ⟨hendless, hdiverged⟩ | ⟨w', hrun⟩
  · refine .inl ⟨hendless, ?_⟩
    rw [run_bind]
    split
    · next heq =>
        rw [heq] at hdiverged
        cases hdiverged
    · next heq =>
        rw [heq] at hdiverged
        cases hdiverged
        rfl
  · cases r with
    | ok a => exact .inr ⟨w', (run_bind_ok hrun f).trans (hf a w')⟩
    | error e => exact .inr ⟨w', run_bind_error hrun f⟩

theorem ComesTo.after {f : α → EvalM β} {a : α} {r : Except Error β} (hm : m.run w = (.ok a, w₁))
    (h : (f a).ComesTo endless w₁ r) : (m >>= f).ComesTo endless w r := by
  rw [ComesTo, run_bind_ok hm]
  exact h

end EvalM

namespace Sequence

variable {s : Sequence} {w w' : World} {vs : List Value}

section Fold

variable {σ : Type} {f : σ → Value → EvalM σ} {g : σ → Value → Except Error σ} {P : σ → Prop}

/-- Folding values that are pulled is folding the values, as long as the steps depend on the state
in no way that shows. -/
theorem Delivers.fold (hf : ∀ a v w, P a → (f a v).run w = (EvalM.lift (g a v)).run w)
    (hP : ∀ a v b, P a → g a v = .ok b → P b) (h : s.Delivers w (vs.map .ok) w') {a : σ}
    (ha : P a) : (s.fold f a).ComesTo (s.isFinite = false) w (vs.foldlM g a) := by
  rw [fold_eq_foldWithin]
  generalize patience = steps
  generalize hxs : vs.map Except.ok = xs at h
  induction h generalizing vs steps a with
  | done h =>
      obtain rfl := List.map_eq_nil_iff.1 hxs
      exact (foldWithin_next h steps a).imp_right fun hdone => ⟨_, hdone⟩
  | @more s rest w w₁ w₂ element elements h _ ih =>
      obtain ⟨v, vs, rfl, rfl, rfl⟩ := List.map_eq_cons_iff.1 hxs
      rcases foldWithin_next (f := f) h steps a with hdiverged | ⟨left, hleft⟩
      · exact .inl hdiverged
      · rw [List.foldlM_cons, EvalM.ComesTo, hleft]
        have hrun := hf a v w₁ ha
        cases hstep : g a v with
        | error e =>
            rw [hstep] at hrun
            exact .inr ⟨w₁, EvalM.run_bind_error hrun _⟩
        | ok b =>
            rw [hstep] at hrun
            rw [EvalM.run_bind_ok hrun]
            refine (ih (hP a v b ha hstep) left rfl).imp_left fun ⟨hendless, hdiverged⟩ => ?_
            refine ⟨Bool.eq_false_iff.2 fun hfinite => ?_, hdiverged⟩
            rw [isFinite_of_next hfinite h] at hendless
            cases hendless

end Fold

/-- What an aggregate makes of values that are pulled is what the values come to. -/
theorem Delivers.aggregate (h : s.Delivers w (vs.map .ok) w') (op : AggregateOp)
    (projected : Bool) :
    (s.aggregate op projected).ComesTo (s.isFinite = false) w (Value.total op projected vs) := by
  have counted (skipNulls : Bool) : (s.count skipNulls).ComesTo (s.isFinite = false) w
      (.ok (Value.ofCount (vs.foldl (Value.addToCount skipNulls) 0))) := by
    have hfold := h.fold (g := fun n v => .ok (Value.addToCount skipNulls n v))
      (P := fun _ => True) (fun _ _ _ _ => rfl) (fun _ _ _ _ _ => trivial) (a := 0) trivial
    have hcount : vs.foldlM (fun n v => .ok (Value.addToCount skipNulls n v)) 0 =
        (.ok (vs.foldl (Value.addToCount skipNulls) 0) : Except Error Nat) := List.foldlM_pure
    rw [hcount] at hfold
    exact hfold.bind (g := fun n => .ok (Value.ofCount n)) fun _ _ => rfl
  have best (op : AggregateOp) (wanted : Ordering) : (s.best op wanted).ComesTo
      (s.isFinite = false) w (Value.total.best op wanted vs) := by
    refine (h.fold (P := fun _ => True) (fun _ _ _ _ => rfl) (fun _ _ _ _ _ => trivial)
      (a := none) trivial).bind fun best w' => ?_
    cases best <;> rfl
  cases op with
  | len => exact counted false
  | count => exact counted projected
  | min => exact best .min .lt
  | max => exact best .max .gt
  | sum =>
      refine h.fold (P := fun sum => sum.isNumber = true) (fun sum v w hsum => ?_)
        (fun sum v total hsum hstep => Value.isNumber_addToSum _ _ hstep hsum) rfl
      rw [EvalM.run_bind_ok (EvalM.run_view w), Value.addToSum_view _ _ _ hsum]
  | avg =>
      refine (h.fold (P := fun _ => True) (fun _ _ _ _ => rfl) (fun _ _ _ _ _ => trivial)
        trivial).bind fun mean w' => ?_
      cases mean.value? <;> rfl

end Sequence

namespace Expr

section Aggregates

variable (access : ItemAccess EvalM) (scope : Scope) (source : Expr)

/-- What an aggregate takes of the elements of its source: themselves or what is projected of
them. -/
def aggregated (s : Sequence) : Option Expr → Sequence
  | none => s
  | some projection => s.then_ <| .map fun v => do
      (← eval access .empty (.value v :: scope) projection).intoValue

variable {access scope source} {substitution substitution' : Substitution}

theorem eval_aggregate (h : substitution [] = none) (op : AggregateOp) (projection : Option Expr)
    (type : DataType) :
    eval access substitution scope (.aggregate op source projection type) = (do
      let s ← (← eval access (inPart substitution 0) scope source).intoSequence
      return .value (← (aggregated access scope s projection).aggregate op projection.isSome)) := by
  cases projection <;> rw [eval, h] <;> rfl

theorem eval_map (h : substitution [] = none) (projection : Expr) (type : DataType) :
    eval access substitution scope (.map source projection type) = (do
      let s ← (← eval access (inPart substitution 0) scope source).intoSequence
      return .sequence (aggregated access scope s (some projection))) := by
  rw [eval, h]
  rfl

/-- Only a count tells apart whether its elements are projected. -/
theorem aggregate_eq_of_ne_count {op : AggregateOp} (hop : op ≠ .count) (s : Sequence)
    (projected projected' : Bool) : s.aggregate op projected = s.aggregate op projected' := by
  cases op <;> first | rfl | exact absurd rfl hop

/-- An aggregate of a projection is the aggregate of the projected elements. -/
theorem eval_aggregate_map {op : AggregateOp} (hop : op ≠ .count) (h : substitution [] = none)
    (h' : substitution' [] = none) (hmap : substitution' [0] = none)
    (hsource : inPart (inPart substitution' 0) 0 = inPart substitution 0) (projection : Expr)
    (type type' type'' : DataType) :
    eval access substitution scope (.aggregate op source (some projection) type) =
      eval access substitution' scope
        (.aggregate op (.map source projection type') none type'') := by
  rw [eval_aggregate h, eval_aggregate h', eval_map hmap, hsource]
  simp only [bind_assoc, pure_bind]
  congr 1
  funext output
  congr 1
  funext s
  show (do
    return Output.value (← (aggregated access scope s (some projection)).aggregate op true)) = _
  rw [aggregate_eq_of_ne_count hop _ true false]
  rfl

theorem eval_aggregate_map_empty {op : AggregateOp} (hop : op ≠ .count) (projection : Expr)
    (type type' type'' : DataType) :
    eval access .empty scope (.aggregate op source (some projection) type) =
      eval access .empty scope (.aggregate op (.map source projection type') none type'') := by
  apply eval_aggregate_map hop <;> rfl

theorem run_aggregate_map {op : AggregateOp} (hop : op ≠ .count) (projection : Expr)
    (type type' type'' : DataType) :
    run access (.aggregate op source (some projection) type) =
      run access (.aggregate op (.map source projection type') none type'') := by
  funext s
  simp only [run, runWith, eval_aggregate_map_empty hop projection type type' type'']
  rfl

theorem eval_aggregate_comesTo {op : AggregateOp} {projection : Option Expr} {s : Sequence}
    {w₀ w₁ w₂ : World} {vs : List Value} (h : substitution [] = none)
    (hsource : (do (← eval access (inPart substitution 0) scope source).intoSequence :
      EvalM Sequence).run w₀ = (.ok s, w₁))
    (hvs : (aggregated access scope s projection).Delivers w₁ (vs.map .ok) w₂) (type : DataType) :
    (eval access substitution scope (.aggregate op source projection type)).ComesTo
      (s.isFinite = false) w₀ ((Value.total op projection.isSome vs).map .value) := by
  have htotal := (hvs.aggregate op projection.isSome).bind
    (f := fun v => pure (Output.value v)) (g := fun v => .ok (Output.value v)) fun _ _ => rfl
  have hfinite : (aggregated access scope s projection).isFinite = s.isFinite := by
    cases projection <;> rfl
  rw [hfinite] at htotal
  obtain ⟨output, w, houtput, hsequence⟩ := EvalM.exists_of_run_bind hsource
  rw [eval_aggregate h]
  exact .after houtput (.after hsequence htotal)

end Aggregates

end Expr

end RecordAlgebra
