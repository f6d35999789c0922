import RecordAlgebra.Eval.Basic
import RecordAlgebra.Proofs.Sequence.Stages

/-!
# What folding computes

Folding a sequence computes what folding its elements gives. Collecting,
aggregates and the only element are read off from that.
-/

namespace RecordAlgebra

open Datum.Elements (ofData)

section

variable {shared : Shared} {start : World} {s : Sequence} {xs : List Datum.Element}

/-- A fold computes the fold of the elements, if each step computes the step for
the datum and what is known of the state outlasts the growth of the heap. -/
theorem computes_fold {σ τ : Type} {f : σ → Value → EvalM σ}
    {F : τ → Datum → Except ErrorKind τ} {R : World → σ → τ → Prop}
    (mono : ∀ w w' a b, World.Extends w w' → R w a b → R w' a b)
    (step : ∀ w a b v d, start.Extends w → R w a b → w.Shows v d →
      Computes shared none w (f a v) R (F b d))
    (hs : Yields shared start s xs) {a : σ} {b : τ} (hab : R start a b) :
    Computes shared none start (s.fold f a) R (Datum.Elements.fold F b xs) := by
  induction xs generalizing start s a b with
  | nil =>
      rw [Sequence.fold_eq f hs.1]
      refine hs.2.bind_ok (.first none) ?_
      rintro _ w hw rfl
      exact .pure fun w' hw' => mono _ _ _ _ (hw.trans hw') hab
  | cons x xs ih =>
      rw [Sequence.fold_eq f hs.1]
      refine hs.2.bind_ok (.first none) fun next w hw hnext => ?_
      obtain ⟨element, rest, rfl, hx, hrest⟩ := nextYields_cons.1 hnext
      cases element with
      | error e =>
          cases x with
          | error kind => exact .raise hx
          | ok d => exact hx.elim
      | ok v =>
          cases x with
          | error kind => exact hx.elim
          | ok d =>
              refine (step w a b v d hw (mono _ _ _ _ hw hab) hx).bind (.first none) ?_
              intro a' b' w' hw' hab'
              exact ih (fun w'' a b v d h => step w'' a b v d ((hw.trans hw').trans h))
                (hrest.mono hw') hab'

theorem fold_push (found : List Datum) (xs : List Datum.Element) :
    Datum.Elements.fold (fun found d => .ok (d :: found)) found xs =
      (Datum.Elements.collect xs).map fun data => data.reverse ++ found := by
  induction xs generalizing found with
  | nil => rfl
  | cons x xs ih =>
      cases x with
      | error kind => rfl
      | ok d =>
          refine (ih (d :: found)).trans ?_
          rw [Datum.Elements.collect]
          cases Datum.Elements.collect xs with
          | error kind => rfl
          | ok data => simp [Except.map]

theorem computes_collect (hs : Yields shared start s xs) :
    Computes shared none start s.collect (fun w => List.Forall₂ w.Shows)
      (Datum.Elements.collect xs) := by
  have hfold := computes_fold (f := fun found v => pure (v :: found))
    (F := fun found d => .ok (d :: found)) (R := fun w => List.Forall₂ w.Shows)
    (fun w w' vs ds hw h => World.forall₂_shows_mono h hw)
    (fun w vs ds v d _ h hv => .pure fun w' hw =>
      .cons (hv.mono hw) (World.forall₂_shows_mono h hw)) hs (a := []) (b := []) .nil
  have hreverse := hfold.map (f := List.reverse) (g := List.reverse)
    (S := fun w => List.Forall₂ w.Shows) fun vs ds w _ h => List.rel_reverse h
  rw [fold_push] at hreverse
  have hdata : ((Datum.Elements.collect xs).map fun data => data.reverse ++ []).map List.reverse =
      Datum.Elements.collect xs := by
    cases Datum.Elements.collect xs with
    | error kind => rfl
    | ok data => simp [Except.map]
  rw [hdata] at hreverse
  exact hreverse

theorem next_ofDeferred (elements : EvalM (List Value)) :
    (Sequence.ofDeferred elements).next = (do
      match ← elements.attempt with
      | .ok values => (Sequence.ofValues values).next
      | .error error => (Sequence.ofActions [EvalM.raise error]).next) := by
  rw [Sequence.ofDeferred, Sequence.next_deferred]
  simp only [Sequence.isSpent, List.any_nil, Bool.false_eq_true, if_false, Sequence.settle,
    bind_assoc]
  congr 1
  funext outcome
  cases outcome with
  | ok values => simp [Sequence.ofValues, Sequence.ofActions, Sequence.next_actions]
  | error e => simp [Sequence.ofActions, Sequence.next_actions]

/-- Values that are found on the first pull are pulled one after the other. -/
theorem yields_ofDeferred {elements : EvalM (List Value)} {r : Except ErrorKind (List Datum)}
    (h : Computes shared none start elements (fun w => List.Forall₂ w.Shows) r) :
    Yields shared start (.ofDeferred elements) (Datum.Elements.settle r) := by
  refine ⟨rfl, ?_⟩
  rw [next_ofDeferred]
  refine h.attempt.bind_ok (.first none) fun outcome w hw houtcome => ?_
  cases outcome with
  | ok vs =>
      cases r with
      | ok ds => exact (yields_ofValues houtcome).2
      | error kind => exact houtcome.elim
  | error e =>
      cases r with
      | ok ds => exact houtcome.elim
      | error kind => exact (yields_ofActions (.cons (.raise houtcome) .nil)).2

theorem computes_onlyElement (hs : Yields shared start s xs) :
    Computes shared none start (Expr.onlyElement s) World.ShowsOption
      (Datum.Elements.only xs) := by
  rw [Expr.onlyElement]
  refine hs.2.bind_ok (.first none) fun next w hw hnext => ?_
  cases xs with
  | nil =>
      cases hnext
      exact .pure fun _ _ => trivial
  | cons x xs =>
      obtain ⟨element, rest, rfl, hx, hrest⟩ := nextYields_cons.1 hnext
      cases element with
      | error e =>
          cases x with
          | error kind => exact .raise hx
          | ok d => exact hx.elim
      | ok v =>
          cases x with
          | error kind => exact hx.elim
          | ok d =>
              refine hrest.2.bind_ok (.first none) fun next w' hw' hnext => ?_
              cases xs with
              | nil =>
                  cases hnext
                  exact .pure fun w'' hw'' => World.Shows.mono hx (hw'.trans hw'')
              | cons y ys =>
                  obtain ⟨element, rest, rfl, hy, -⟩ := nextYields_cons.1 hnext
                  cases element with
                  | error e =>
                      cases y with
                      | error kind => exact .raise hy
                      | ok d => exact hy.elim
                  | ok v =>
                      cases y with
                      | error kind => exact hy.elim
                      | ok d => exact .raise rfl

section Aggregates

theorem computes_count (skipNulls : Bool) (hs : Yields shared start s xs) :
    Computes shared none start (s.count skipNulls) World.Shows
      (Datum.Elements.count skipNulls xs) := by
  have hfold := computes_fold (f := fun n v => pure (Value.addToCount skipNulls n v))
    (F := fun n d => .ok (Datum.addToCount skipNulls n d)) (R := fun _ => Eq)
    (fun _ _ _ _ _ h => h)
    (fun w n k v d _ h hv => .pure fun _ _ => by
      rw [h, World.addToCount_eq skipNulls k hv]) hs (a := 0) rfl
  exact hfold.map fun n k w _ h => by rw [h]; rfl

theorem computes_best (op : AggregateOp) (wanted : Ordering) (hs : Yields shared start s xs) :
    Computes shared none start (s.best op wanted) World.Shows (Datum.Elements.best wanted xs) := by
  have hfold := computes_fold (f := fun best v => EvalM.lift (Value.better wanted best v))
    (F := Datum.better wanted) (R := World.ShowsOption)
    (fun _ _ _ _ hw h => World.ShowsOption.mono h hw)
    (fun w best best' v d _ h hv => .lift fun w' hw =>
      World.better_agrees wanted (World.ShowsOption.mono h hw) (hv.mono hw)) hs (a := none) (b := none) trivial
  refine hfold.bind (.first none) fun best best' w hw h => ?_
  cases best with
  | none =>
      cases best' with
      | none => exact .raise rfl
      | some d => exact h.elim
  | some v =>
      cases best' with
      | none => exact h.elim
      | some d => exact .pure fun w' hw' => World.Shows.mono h hw'

theorem computes_aggregate (op : AggregateOp) (projected : Bool)
    (hs : Yields shared start s xs) :
    Computes shared none start (s.aggregate op projected) World.Shows
      (Datum.Elements.aggregate op projected xs) := by
  cases op with
  | len => exact computes_count false hs
  | count => exact computes_count projected hs
  | min => exact computes_best .min .lt hs
  | max => exact computes_best .max .gt hs
  | sum =>
      refine computes_fold (fun w w' v d hw h => h.mono hw) ?_ hs rfl
      intro w sum total v d _ h hv
      refine .of_view fun view => .lift fun w' hw => ?_
      exact World.addToSum_agrees view _ (h.mono hw) (hv.mono hw)
  | avg =>
      have hfold := computes_fold
        (f := fun mean v => EvalM.lift (Value.Mean.add AggregateOp.avg.name mean v))
        (F := Datum.addToMean) (R := fun _ => Eq) (fun _ _ _ _ _ h => h)
        (fun w mean mean' v d _ h hv => .lift fun w' hw => by
          rw [← h]
          exact World.addToMean_agrees _ mean (hv.mono hw)) hs (a := {}) rfl
      refine hfold.bind (.first none) ?_
      rintro mean _ w hw rfl
      cases hmean : mean.value? with
      | none => exact .raise rfl
      | some v =>
          refine .pure fun w' _ => World.shows_ofValue w' ?_
          rw [Value.Mean.value?] at hmean
          split at hmean
          · cases hmean
          · cases hmean
            rfl

end Aggregates

end

end RecordAlgebra
