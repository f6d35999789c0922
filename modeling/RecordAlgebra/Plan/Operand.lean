import RecordAlgebra.Pipeline.Basic
import RecordAlgebra.Plan.Shape

/-!
# Expressions as operands

An expression over one element becomes an operand over the document of the
element, together with the type of its values. Only expressions whose value is
told apart by its document have one. Division and remainder have none, because
they fail on zero.
-/

namespace RecordAlgebra

open Pipeline (Operand Combination LetterCase)

def Pipeline.LetterCase.ofFunction? : ScalarFunction → Option LetterCase
  | .upper => some .upper
  | .lower => some .lower
  | _ => none

namespace Pipeline.Combination

/-- How values of these types are combined, and the type of the result. -/
def ofTypes? (op : ArithmeticOp) (left right : DataType) : Option (Combination × DataType) :=
  if left.isNumeric && right.isNumeric then
    let type : DataType := if left == .int && right == .int then .int else .float
    match op with
    | .add => some (.add, type)
    | .subtract => some (.subtract, type)
    | .multiply => some (.multiply, type)
    | .divide | .remainder => none
  else if op = .add && left == .text && right == .text then some (.concat, .text)
  else none

end Pipeline.Combination

namespace Shape

/-- The element itself. A stored element is an item, which has no document of
its own. -/
def rootOperand? : Shape → Option (Operand × DataType)
  | .stored _ => none
  | .object type =>
      let type := DataType.ofRecordType type
      if type.isDocumentType then some (.root, type) else none
  | .scalar type => if type.isDocumentType then some (.root, type) else none

def literalOperand? (v : Value) : Option (Operand × DataType) :=
  if v.datatype.isPlain then
    match Document.ofValue v with
    | .ok document => some (.literal document, v.datatype)
    | .error _ => none
  else none

/-- A part of a merge, for which the element counts as a record of its fields. -/
def mergePart? (shape : Shape) (e : Expr) (operand : Option (Operand × DataType)) :
    Option (Operand × RecordType) :=
  if e.isElement then shape.wholeElement?.map fun type => (.root, type)
  else
    match operand with
    | some (operand, .record fields isOpen) => some (operand, { fields, isOpen })
    | _ => none

mutual

def operand? (shape : Shape) (e : Expr) : Option (Operand × DataType) :=
  if e.isElement then shape.rootOperand?
  else
    match e with
    | .field base name type => do
        let name ← (Expr.field base name type).elementField?
        some (.field name, ← shape.documentField? name)
    | .literal v => literalOperand? v
    | .arithmetic op left right _ => do
        let (left, leftType) ← operand? shape left
        let (right, rightType) ← operand? shape right
        let (combination, type) ← Combination.ofTypes? op leftType rightType
        some (.combine combination left right, type)
    | .function f input => do
        let (operand, type) ← operand? shape input
        let letters ← LetterCase.ofFunction? f
        if type == .text then some (.changeCase letters operand, .text) else none
    | .record fields _ => do
        let (operands, types) ← fieldOperands? shape fields
        some (.object operands, .record types false)
    | .merge left right _ => do
        let (left, leftType) ← mergePart? shape left (operand? shape left)
        let (right, rightType) ← mergePart? shape right (operand? shape right)
        let fields := leftType.fields.insertAll rightType.fields
        some (.merge [left, right], .record fields leftType.isOpen)
    | _ => none

def fieldOperands? (shape : Shape) :
    List (String × Expr) → Option (Fields Operand × Fields DataType)
  | [] => some ([], [])
  | (name, e) :: rest => do
      let (operand, type) ← operand? shape e
      let (operands, types) ← fieldOperands? shape rest
      some ((name, operand) :: operands, (name, type) :: types)

end

end Shape

end RecordAlgebra
