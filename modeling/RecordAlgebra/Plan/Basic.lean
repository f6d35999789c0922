import RecordAlgebra.Plan.Condition
import RecordAlgebra.Plan.Operand

/-!
# Plans

A plan is a pipeline over the stored documents of a schema together with the
way in which its output is read. A filter, a projection and the like add stages
to the pipeline of their source, and the shape of the documents is tracked from
stage to stage.
-/

namespace RecordAlgebra

open Pipeline (Operand Accumulator Grouping Stage)

/-- How the documents that a pipeline gives are read. -/
inductive PlanOutput where
  /-- As stored rows. -/
  | rows
  /-- Each one as a value. -/
  | values
  /-- The only one as an object that holds the result. Without any, the result
  is this value, or none is known. -/
  | scalar (ifEmpty : Option Value)

structure Plan where
  pipeline : Pipeline
  output : PlanOutput

/-- A pipeline over stored documents, and the shape of what it gives. -/
structure Segment where
  pipeline : Pipeline
  shape : Shape

/-- The member that holds the result of a scalar plan. -/
def Plan.resultField : String := "value"

namespace Segment

/-- The stored documents themselves. -/
def ofSchema (schema : Schema) : Segment := { pipeline := [], shape := .ofSchema schema }

def push (segment : Segment) (stage : Stage) : Segment :=
  { segment with pipeline := segment.pipeline ++ [stage] }

def output (segment : Segment) : PlanOutput :=
  match segment.shape with
  | .stored _ => .rows
  | _ => .values

def plan (segment : Segment) : Plan := { pipeline := segment.pipeline, output := segment.output }

section Stages

variable (segment : Segment)

def filter? (predicate : Expr) : Option Segment := do
  return segment.push (.filter (← segment.shape.condition? predicate))

/-- Replaces each document by an operand of it. -/
def replace? (projection : Expr) : Option Segment := do
  let (operand, type) ← segment.shape.operand? projection
  some { segment.push (.replaceWith operand) with shape := .ofType type }

/-- Adds fields to each document as a whole. -/
def extend? (fields : List (String × Expr)) : Option Segment := do
  let whole ← segment.shape.wholeElement?
  let (operands, types) ← segment.shape.fieldOperands? fields
  let type : RecordType := { whole with fields := whole.fields.insertAll types }
  some { segment.push (.addFields operands) with shape := .object type }

def map? (projection : Expr) : Option Segment :=
  if projection.isElement then some segment
  else
    match projection with
    | .record fields _ => do
        let (operands, types) ← segment.shape.fieldOperands? fields
        some { segment.push (.project operands) with shape := .object (.closed types) }
    | .merge left (.record fields _) _ =>
        if left.isElement then segment.extend? fields else segment.replace? projection
    | _ => segment.replace? projection

/-- The fields to sort by. A repeated field never decides anything. -/
def sortFields? : List (Expr × Direction) → Option (Fields Direction)
  | [] => some []
  | (e, direction) :: rest => do
      let name ← e.elementField?
      let _ ← segment.shape.plainField? name
      let others ← sortFields? rest
      some ((name, direction) :: others.filter fun field => field.1 != name)

def sort? (keys : List (Expr × Direction)) : Option Segment := do
  return segment.push (.sort (← segment.sortFields? keys))

def slice (start : Nat) (stop : Option Nat) : Segment :=
  let skipped := if 0 < start then segment.push (.skip start) else segment
  match stop with
  | some stop => skipped.push (.limit (stop - start))
  | none => skipped

end Stages

end Segment

namespace Shape

/-- What an aggregate is taken of, for each element. Elements that are no single
values or records of such have to be projected first. -/
def accumulated? (shape : Shape) : Option Expr → Option (Option (Operand × DataType))
  | some projection => (shape.operand? projection).map some
  | none =>
      match shape with
      | .scalar type => some (if type.isDocumentType then some (.root, type) else none)
      | _ => some none

/-- The accumulator for an aggregate over the elements, and the type of its
result. -/
def accumulator? (shape : Shape) (op : AggregateOp) (projection : Option Expr) :
    Option (Accumulator × DataType) := do
  match op, ← shape.accumulated? projection with
  | .len, _ | .count, none => some (.count none, .int)
  | .count, some (operand, _) => some (.count (some operand), .int)
  | .sum, some (operand, type) => if type.isNumeric then some (.sum operand, type) else none
  | .avg, some (operand, type) => if type.isNumeric then some (.avg operand, .float) else none
  | .min, some (operand, type) => if type.isPlain then some (.min operand, type) else none
  | .max, some (operand, type) => if type.isPlain then some (.max operand, type) else none
  | _, none => none

/-- The accumulator for an aggregate over the members of a group. -/
def memberAccumulator? (shape : Shape) : Expr → Option (Accumulator × DataType)
  | .aggregate op source projection _ =>
      if source.isElement then shape.accumulator? op projection else none
  | _ => none

/-- The operand for the key of a group, and its type. -/
def groupKey? (shape : Shape) (key : Expr) : Option (Operand × DataType) :=
  match key.elementField? with
  | some name => (shape.plainField? name).map fun type => (.field name, type)
  | none =>
      match shape with
      | .scalar type => if key.isElement && type.isPlain then some (.root, type) else none
      | _ => none

/-- The name of the accumulator at a position. Accumulators have names of their
own because the fields of a record may be called anything. -/
def accumulatorName (position : Nat) : String := "acc" ++ toString position

/-- The results of a group: accumulators, and the operand that puts the results
together. -/
structure GroupResult where
  accumulators : Fields Accumulator
  operand : Operand
  type : DataType

def memberAccumulators? (shape : Shape) (position : Nat) :
    List (String × Expr) → Option (Fields Accumulator × Fields Operand × Fields DataType)
  | [] => some ([], [], [])
  | (name, e) :: rest => do
      let (accumulator, type) ← shape.memberAccumulator? e
      let (accumulators, operands, types) ← memberAccumulators? shape (position + 1) rest
      let unique := accumulatorName position
      some ((unique, accumulator) :: accumulators, (name, .field unique) :: operands,
        (name, type) :: types)

def groupResult? (shape : Shape) : Expr → Option GroupResult
  | .record fields _ => do
      let (accumulators, operands, types) ← shape.memberAccumulators? 0 fields
      some { accumulators, operand := .object operands, type := .record types false }
  | total => do
      let (accumulator, type) ← shape.memberAccumulator? total
      let unique := accumulatorName 0
      some { accumulators := [(unique, accumulator)], operand := .field unique, type }

end Shape

namespace Segment

def group? (segment : Segment) (key total : Expr) : Option Segment := do
  let (operand, keyType) ← segment.shape.groupKey? key
  let result ← segment.shape.groupResult? total
  let grouped :=
    segment.push (.group { key := some operand, accumulators := result.accumulators })
  let presented :=
    grouped.push <| .project
      [(Expr.groupKeyField, .field Pipeline.groupIdField),
        (Expr.groupValueField, result.operand)]
  some
    { presented with
      shape := .object <| .closed
        [(Expr.groupKeyField, keyType), (Expr.groupValueField, result.type)] }

/-- The documents for the elements of a sequence. -/
def ofExpr? (schema : Schema) : Expr → Option Segment
  | .context depth _ => if depth = 0 then some (.ofSchema schema) else none
  | .filter source predicate => do (← ofExpr? schema source).filter? predicate
  | .map source projection _ => do (← ofExpr? schema source).map? projection
  | .sort source keys => do (← ofExpr? schema source).sort? keys
  | .slice source start stop => do return (← ofExpr? schema source).slice start stop
  | .groupBy source key total _ => do (← ofExpr? schema source).group? key total
  | _ => none

end Segment

namespace Plan

/-- Whether an aggregate counts all elements, whatever they are. -/
def countsAll : AggregateOp → Option Expr → Bool
  | .len, _ | .count, none => true
  | _, _ => false

/-- The result of an aggregate over nothing, if it has one. -/
def emptyResult : AggregateOp → Option Value
  | .sum | .count | .len => some (.int 0)
  | _ => none

def aggregate? (segment : Segment) (op : AggregateOp) (projection : Option Expr) : Option Plan :=
  if countsAll op projection then
    some
      { pipeline := (segment.push (.count resultField)).pipeline
        output := .scalar (some (.int 0)) }
  else do
    let (accumulator, _) ← segment.shape.accumulator? op projection
    let grouping : Grouping := { key := none, accumulators := [(resultField, accumulator)] }
    some
      { pipeline := (segment.push (.group grouping)).pipeline
        output := .scalar (emptyResult op) }

/-- A plan for the whole expression. -/
def ofExpr? (schema : Schema) : Expr → Option Plan
  | .aggregate op source projection _ => do
      aggregate? (← Segment.ofExpr? schema source) op projection
  | e => (Segment.ofExpr? schema e).map Segment.plan

end Plan

end RecordAlgebra
