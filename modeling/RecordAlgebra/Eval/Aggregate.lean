import RecordAlgebra.Sequence
import RecordAlgebra.Value.Aggregate

/-!
# Aggregates of sequences

Each aggregate pulls its sequence to the end, or to the first error.
-/

namespace RecordAlgebra

def Sequence.count (skipNulls : Bool) (s : Sequence) : EvalM Value := do
  return Value.ofCount (← s.fold (fun n v => pure (Value.addToCount skipNulls n v)) 0)

def Sequence.best (op : AggregateOp) (wanted : Ordering) (s : Sequence) : EvalM Value := do
  match ← s.fold (fun best v => EvalM.lift (Value.better wanted best v)) none with
  | some v => pure v
  | none => EvalM.fail (.emptyAggregate op.name)

/-- The aggregate of the elements. Only a count can tell whether they come from
a projection, in which case null is not counted. -/
def Sequence.aggregate (op : AggregateOp) (projected : Bool) (s : Sequence) : EvalM Value :=
  match op with
  | .len => s.count false
  | .count => s.count projected
  | .sum =>
      s.fold (fun sum v => do EvalM.lift (Value.addToSum (← EvalM.view) op.name sum v)) (.int 0)
  | .avg => do
      let mean ← s.fold (fun mean v => EvalM.lift (Value.Mean.add op.name mean v)) {}
      match mean.value? with
      | some v => pure v
      | none => EvalM.fail (.emptyAggregate op.name)
  | .min => s.best op .lt
  | .max => s.best op .gt

end RecordAlgebra
