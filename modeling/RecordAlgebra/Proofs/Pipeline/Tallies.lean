import Mathlib.Data.List.Forall2
import RecordAlgebra.Eval.Aggregate
import RecordAlgebra.Pipeline.Run
import RecordAlgebra.Proofs.Runs
import RecordAlgebra.Proofs.Sequence.Next

/-!
# Tallies and aggregates

An accumulator takes values one by one and keeps a tally of them. The result of the tally is
what the aggregate of the same kind gives for a sequence of these values, and there is none
exactly where the aggregate fails.
-/

namespace RecordAlgebra

theorem foldlM_ofResult {α σ τ : Type} {f : σ → α → Except Error σ} {g : τ → α → Except Error τ}
    {wrap : σ → τ} (h : ∀ state a, g (wrap state) a = (f state a).map wrap) (as : List α)
    (state : σ) : as.foldlM g (wrap state) = (as.foldlM f state).map wrap := by
  induction as generalizing state with
  | nil => rfl
  | cons a as ih =>
      rw [List.foldlM_cons, List.foldlM_cons, h]
      cases f state a with
      | error e => rfl
      | ok next => exact ih next

theorem toOption_map {α β : Type} (f : α → β) (result : Except Error α) :
    (result.map f).toOption = result.toOption.map f := by
  cases result <;> rfl

theorem toOption_foldlM {α σ : Type} (f : σ → α → Except Error σ) (as : List α) (state : σ) :
    (as.foldlM f state).toOption = as.foldlM (fun state a => (f state a).toOption) state := by
  induction as generalizing state with
  | nil => rfl
  | cons a as ih =>
      rw [List.foldlM_cons, List.foldlM_cons]
      cases f state a with
      | error e => rfl
      | ok next => exact ih next

theorem toOption_eq_some_iff {α : Type} {result : Except Error α} {a : α} :
    result.toOption = some a ↔ result = .ok a := by
  cases result <;> simp [Except.toOption]

theorem toOption_mapM {α β : Type} (f : α → Except Error β) (as : List α) :
    (as.mapM f).toOption = as.mapM fun a => (f a).toOption := by
  induction as with
  | nil => rfl
  | cons a as ih =>
      rw [List.mapM_cons, List.mapM_cons, ← ih]
      cases f a with
      | error e => rfl
      | ok b => cases as.mapM f <;> rfl

theorem mapM_eq_some_iff {α β : Type} {f : α → Option β} {as : List α} {bs : List β} :
    as.mapM f = some bs ↔ List.Forall₂ (fun a b => f a = some b) as bs := by
  induction as generalizing bs with
  | nil => simp [eq_comm]
  | cons a as ih =>
      rw [List.mapM_cons, List.forall₂_cons_left_iff]
      simp only [Option.bind_eq_bind, Option.bind_eq_some_iff, ih]
      constructor
      · rintro ⟨b, hb, rest, hrest, h⟩
        cases h
        exact ⟨b, rest, hb, hrest, rfl⟩
      · rintro ⟨b, rest, hb, hrest, rfl⟩
        exact ⟨b, hb, rest, hrest, rfl⟩

theorem mapM_ok_iff {α β : Type} {f : α → Except Error β} {as : List α} {bs : List β} :
    as.mapM f = .ok bs ↔ List.Forall₂ (fun a b => f a = .ok b) as bs := by
  rw [← toOption_eq_some_iff, toOption_mapM, mapM_eq_some_iff]
  simp only [toOption_eq_some_iff]

namespace Pipeline

namespace Tally

/-- The result of a tally has the name of its field in errors only. -/
def result? (tally : Tally) : Option Value := (tally.result "").toOption

theorem toOption_result (field : String) (tally : Tally) :
    (tally.result field).toOption = tally.result? := by
  cases tally with
  | sum total => rfl
  | mean state =>
      rw [result?, result, result]
      cases state.value? <;> rfl
  | best wanted found => cases found <;> rfl
  | count skipNulls n => rfl

/-- The tally with further values. -/
def addAll (tally : Tally) (vs : List Value) : Except Error Tally := vs.foldlM add tally

theorem addAll_sum (total : Value) (vs : List Value) :
    (sum total).addAll vs = (vs.foldlM (Value.addToSum noItems "$sum") total).map sum :=
  foldlM_ofResult (fun _ _ => rfl) vs total

theorem addAll_mean (state : Value.Mean) (vs : List Value) :
    (mean state).addAll vs = (vs.foldlM (Value.Mean.add "$avg") state).map mean :=
  foldlM_ofResult (fun _ _ => rfl) vs state

theorem addAll_best (wanted : Ordering) (found : Option Value) (vs : List Value) :
    (best wanted found).addAll vs = (vs.foldlM (Value.better wanted) found).map (best wanted) :=
  foldlM_ofResult (fun _ _ => rfl) vs found

theorem addAll_count (skipNulls : Bool) (n : Nat) (vs : List Value) :
    (count skipNulls n).addAll vs =
      .ok (count skipNulls (vs.foldl (Value.addToCount skipNulls) n)) := by
  induction vs generalizing n with
  | nil => rfl
  | cons v vs ih => exact ih (Value.addToCount skipNulls n v)

end Tally

namespace Accumulator

/-- The aggregate that the accumulator stands for. -/
def op : Accumulator → AggregateOp
  | .sum _ => .sum
  | .avg _ => .avg
  | .min _ => .min
  | .max _ => .max
  | .count _ => .count

/-- Whether there is an operand, without which a count does not tell nulls apart. -/
def hasOperand : Accumulator → Bool
  | .count operand => operand.isSome
  | _ => true

/-- The result for values that are accumulated one after the other, if there is one. -/
def accumulated? (accumulator : Accumulator) (vs : List Value) : Option Value :=
  (accumulator.start.addAll vs).toOption.bind Tally.result?

end Accumulator

section Aggregates

theorem toOption_addToSum (view : ItemRef → String) (name : String) (total v : Value) :
    (Value.addToSum view name total v).toOption =
      (Value.addToSum noItems "$sum" total v).toOption := by
  have hadd : (Value.add view total v).toOption = (Value.add noItems total v).toOption := by
    cases total with
    | int a =>
        cases v with
        | int b =>
            simp only [Value.add, Value.numeric]
            cases exactly (· + ·) a b <;> rfl
        | _ => rfl
    | _ => cases v <;> rfl
  cases v <;> first | exact hadd | rfl

theorem toOption_addToMean (name : String) (state : Value.Mean) (v : Value) :
    (state.add name v).toOption = (state.add "$avg" v).toOption := by
  cases v <;> rfl

theorem best_gives (op : AggregateOp) (wanted : Ordering) (vs : List Value) :
    ((Sequence.ofValues vs).best op wanted).Gives
      (((Tally.best wanted none).addAll vs).toOption.bind Tally.result?) := by
  rw [Sequence.best, Sequence.fold_ofValues, Tally.addAll_best, toOption_map,
    toOption_foldlM, Option.bind_map]
  refine (EvalM.Gives.foldlM (fun found v => EvalM.gives_lift _) vs none).bind fun found => ?_
  cases found with
  | none => exact EvalM.gives_fail _
  | some v => exact EvalM.gives_pure v

/-- The aggregate of values gives what the tally of them comes to. -/
theorem aggregate_gives (accumulator : Accumulator) (vs : List Value) :
    ((Sequence.ofValues vs).aggregate accumulator.op accumulator.hasOperand).Gives
      (accumulator.accumulated? vs) := by
  cases accumulator with
  | sum operand =>
      have hresult : (Accumulator.sum operand).accumulated? vs =
          vs.foldlM (fun total v => (Value.addToSum noItems "$sum" total v).toOption) (.int 0) := by
        rw [Accumulator.accumulated?, Accumulator.start, Tally.addAll_sum, toOption_map,
          Option.bind_map, ← toOption_foldlM]
        exact Option.bind_fun_some _
      simp only [hresult, Accumulator.op, Sequence.aggregate, Sequence.fold_ofValues]
      refine EvalM.Gives.foldlM (fun total v => EvalM.gives_view fun view => ?_) vs _
      rw [← toOption_addToSum view AggregateOp.sum.name]
      exact EvalM.gives_lift _
  | avg operand =>
      rw [Accumulator.accumulated?, Accumulator.start, Tally.addAll_mean, toOption_map,
        Option.bind_map, toOption_foldlM]
      simp only [Accumulator.op, Sequence.aggregate, Sequence.fold_ofValues]
      refine (EvalM.Gives.foldlM (fun state v => ?_) vs _).bind fun state => ?_
      · rw [← toOption_addToMean AggregateOp.avg.name]
        exact EvalM.gives_lift _
      · rw [Function.comp_apply, Tally.result?, Tally.result]
        cases state.value? with
        | none => exact EvalM.gives_fail _
        | some v => exact EvalM.gives_pure v
  | min operand => exact best_gives .min .lt vs
  | max operand => exact best_gives .max .gt vs
  | count operand =>
      rw [Accumulator.accumulated?, Accumulator.start, Tally.addAll_count]
      simp only [Accumulator.op, Sequence.aggregate, Accumulator.hasOperand, Sequence.count,
        Sequence.fold_ofValues, List.foldlM_pure, pure_bind]
      exact EvalM.gives_pure _

end Aggregates

end Pipeline

end RecordAlgebra
