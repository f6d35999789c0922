import RecordAlgebra.Expr.Build
import RecordAlgebra.Plan.Basic

/-!
# What plans cover

An expression over all items of a source may have a plan, or a plan for a part
of its work. The latter is so for a filter some of whose conjuncts become
conditions. The others then see fewer elements than before, so none of them may
be able to fail.
-/

namespace RecordAlgebra

/-- How much of the work of an expression a plan does. -/
inductive Coverage where
  | full (plan : Plan)
  /-- The remainder is evaluated over the output of the plan. -/
  | partly (plan : Plan) (remainder : Expr)
  | nothing

namespace Coverage

variable (view : ItemRef → String)

/-- The conjunction of expressions, of which there is at least one. -/
def conjunction : List Expr → Except Error Expr
  | [e] => .ok e
  | operands => Expr.mkBoolean view .and operands

/-- Splits a conjunction over the elements of a segment. -/
def split (segment : Segment) (conjuncts : List Expr) : Except Error Coverage := do
  let conditions := conjuncts.filterMap segment.shape.condition?
  let remaining := conjuncts.filter fun e => (segment.shape.condition? e).isNone
  if conditions.isEmpty || remaining.isEmpty || !segment.shape.areInfallible remaining then
    .ok .nothing
  else
    let remainder ← Expr.mkFilter view Expr.element (← conjunction view remaining)
    .ok (.partly (segment.push (.filter (.all conditions))).plan remainder)

def ofExpr (schema : Schema) (e : Expr) : Except Error Coverage :=
  match Plan.ofExpr? schema e with
  | some plan => .ok (.full plan)
  | none =>
      match e with
      | .filter source (.boolean .and conjuncts) =>
          match Segment.ofExpr? schema source with
          | some segment => split view segment conjuncts
          | none => .ok .nothing
      | _ => .ok .nothing

end Coverage

end RecordAlgebra
