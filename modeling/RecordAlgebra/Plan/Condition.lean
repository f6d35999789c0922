import RecordAlgebra.Pipeline.Basic
import RecordAlgebra.Plan.Shape

/-!
# Expressions as conditions

A predicate becomes a condition if it compares fields with literals, or
connects such comparisons. The negation of an equality is exact because an
equality is never null; that of another comparison would not be.
-/

namespace RecordAlgebra

open Pipeline (Condition)

namespace Shape

/-- The comparison of a field with a literal, in this order. -/
def fieldComparison? (shape : Shape) (op : ComparisonOp) (name : String) (v : Value) :
    Option Condition := do
  let type ← shape.plainField? name
  if v.isNull then
    if op.isOrdering then none
  else if !v.datatype.isPlain then none
  if op.isOrdering && !type.isComparable v.datatype then none
  match Document.ofValue v with
  | .ok document => some (.compare name op document)
  | .error _ => none

def comparison? (shape : Shape) (op : ComparisonOp) (left right : Expr) : Option Condition :=
  match left.elementField?, right.literal? with
  | some name, some v => shape.fieldComparison? op name v
  | _, _ =>
      match left.literal?, right.elementField? with
      | some v, some name => shape.fieldComparison? op.flip name v
      | _, _ => none

mutual

def condition? (shape : Shape) : Expr → Option Condition
  | .comparison op left right => shape.comparison? op left right
  | .boolean .and operands => (conditions? shape operands).map .all
  | .boolean .or operands => (conditions? shape operands).map .any
  | .negation .not (.comparison op left right) =>
      if op.isOrdering then none else shape.comparison? op.negate left right
  | _ => none

def conditions? (shape : Shape) : List Expr → Option (List Condition)
  | [] => some []
  | e :: rest => do
      let condition ← condition? shape e
      let conditions ← conditions? shape rest
      some (condition :: conditions)

end

/-- Whether values of these types are compared without failure. -/
def isSafelyOrdered (left right : DataType) : Bool :=
  (left.isPlain || left.isNull) && (right.isPlain || right.isNull) && left.isComparable right

def isTruthType : DataType → Bool
  | .boolean | .null => true
  | _ => false

mutual

/-- The type of an expression whose evaluation over an element of this shape
cannot fail. -/
def infallibleType? (shape : Shape) : Expr → Option DataType
  | .literal v => some v.datatype
  | .field base name type => do
      let name ← (Expr.field base name type).elementField?
      shape.fieldType? name
  | .comparison op left right => do
      let left ← infallibleType? shape left
      let right ← infallibleType? shape right
      if op.isOrdering && !isSafelyOrdered left right then none else some .boolean
  | .boolean _ operands => if areInfallible shape operands then some .boolean else none
  | .negation .not operand => do
      let type ← infallibleType? shape operand
      if isTruthType type then some .boolean else none
  | .function f input => do
      match ← infallibleType? shape input with
      | .text | .null => some f.returnType
      | _ => none
  | _ => none

/-- Whether all of these have a truth value or null for every element. -/
def areInfallible (shape : Shape) : List Expr → Bool
  | [] => true
  | e :: rest => (infallibleType? shape e).any isTruthType && areInfallible shape rest

end

end Shape

end RecordAlgebra
