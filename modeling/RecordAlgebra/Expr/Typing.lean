import RecordAlgebra.Expr.Basic

/-!
# Types of expressions

The type of a node is derived from the types of its parts, given the types of
the bindings around it, innermost first. Parts that see one binding more are
derived anew with the type of an element in front; the type of any other part
is read off the part while no bindings are given, for it was derived when the
part was built.
-/

namespace RecordAlgebra

namespace ArithmeticOp

/-- The type that an operation gives for operands of these types. -/
def resultType (op : ArithmeticOp) (left right : DataType) : Except Error DataType :=
  if left.typeClass = .mapping || right.typeClass = .mapping then
    .error (.ofCause (.arithmeticOnMappings op.symbol))
  else if left.isAny || right.isAny then .ok .any
  else
    let unsupported : Except Error DataType :=
      .error (.ofCause (.cannotApply op.symbol left.label right.label))
    let number : DataType := if op = .divide then .float else .int
    match left, right with
    | .null, .null => .ok .null
    | .text, .text | .text, .null | .null, .text => if op = .add then .ok .text else unsupported
    | .list _, .list _ | .list _, .null | .null, .list _ =>
        if op = .add then .ok (left.unify right) else unsupported
    | .float, .float | .float, .int | .int, .float | .float, .null | .null, .float => .ok .float
    | .int, .int | .int, .null | .null, .int => .ok number
    | _, _ => unsupported

end ArithmeticOp

namespace AggregateOp

/-- The type of an aggregate over elements of this type. -/
def resultType (op : AggregateOp) (input : DataType) : Except Error DataType :=
  let unsupported : Except Error DataType :=
    .error (.ofCause (.cannotAggregateType op.name input.label))
  match op with
  | .count | .len => .ok .int
  | .sum =>
      if input.isNumericLike then .ok (if input.isNull then .int else input) else unsupported
  | .avg => if input.isNumericLike then .ok .float else unsupported
  | .min | .max => if input.isOrderable then .ok input else unsupported

end AggregateOp

namespace Expr

section Derivation

/- Whether types that parts carry are trusted where no bindings are given, and
the text of items for errors. -/
variable (trusting : Bool) (view : ItemRef → String)

/-- The error with the expression it is about. -/
def about (e : Expr) (error : Error) : Error := error.attach "expression" (e.render view)

def invalid (cause : Cause) (e : Expr) : Except Error DataType :=
  .error (about view e (.ofCause cause))

/-- The type of a part that sees the same bindings. -/
def partType (scopes : List DataType) (e : Expr) (derived : Unit → Except Error DataType) :
    Except Error DataType :=
  if trusting && scopes.isEmpty then .ok e.datatype else derived ()

/-- The type of the elements of a source of this type. -/
def elementOf (source : Expr) (type : Except Error DataType) : Except Error DataType :=
  type.bind fun type => type.elementType.mapError (about view source)

mutual

def derive (scopes : List DataType) : Expr → Except Error DataType
  | .context depth type => .ok (scopes[depth]?.getD type)
  | .literal value => .ok value.datatype
  | .field base name type => do
      let base' ← partType trusting scopes base fun _ => derive scopes base
      (base'.fieldType name).mapError (about view (.field base name type))
  | .comparison op left right => do
      let left' ← partType trusting scopes left fun _ => derive scopes left
      let right' ← partType trusting scopes right fun _ => derive scopes right
      if op.isOrdering && !left'.isComparable right' then
        invalid view (.unorderedTypes left'.label right'.label) (.comparison op left right)
      else .ok .boolean
  | .boolean op operands => do
      deriveOperands scopes op (.boolean op operands) operands
      .ok .boolean
  | .negation op operand => do
      let type ← partType trusting scopes operand fun _ => derive scopes operand
      match op with
      | .not =>
          if type.isBooleanLike then .ok .boolean
          else invalid view (.cannotNegateType type.label) (.negation op operand)
      | .minus =>
          if type.isNumericLike then .ok type
          else invalid view (.cannotNegateType type.label) (.negation op operand)
  | .arithmetic op left right type => do
      let left' ← partType trusting scopes left fun _ => derive scopes left
      let right' ← partType trusting scopes right fun _ => derive scopes right
      (op.resultType left' right').mapError (about view (.arithmetic op left right type))
  | .merge left right type => do
      let left' ← partType trusting scopes left fun _ => derive scopes left
      let right' ← partType trusting scopes right fun _ => derive scopes right
      match left'.recordType?, right'.recordType? with
      | some a, some b => .ok (.ofRecordType (a.merge b))
      | _, _ =>
          invalid view (.mergeOfNonMappings left'.label right'.label) (.merge left right type)
  | .record fields _ => do
      let types ← deriveFields scopes fields
      .ok (.record types false)
  | .function f input => do
      let type ← partType trusting scopes input fun _ => derive scopes input
      (f.checkInput type).mapError (about view (.function f input))
      .ok f.returnType
  | .filter source predicate => do
      let element ← elementOf view source <|
        partType trusting scopes source fun _ => derive scopes source
      let type ← derive (element :: scopes) predicate
      if type.isBooleanLike then .ok (.list element)
      else invalid view (.predicateNotBoolean type.label) (.filter source predicate)
  | .map source projection _ => do
      let element ← elementOf view source <|
        partType trusting scopes source fun _ => derive scopes source
      let type ← derive (element :: scopes) projection
      .ok (.list type)
  | .sort source keys => do
      let element ← elementOf view source <|
        partType trusting scopes source fun _ => derive scopes source
      deriveKeys (element :: scopes) (.sort source keys) keys
      .ok (.list element)
  | .groupBy source key total _ => do
      let element ← elementOf view source <|
        partType trusting scopes source fun _ => derive scopes source
      let keyType ← derive (element :: scopes) key
      let totalType ← derive (.list element :: scopes) total
      .ok (.list (.record [(groupKeyField, keyType), (groupValueField, totalType)] false))
  | .aggregate op source none type => do
      let element ← elementOf view source <|
        partType trusting scopes source fun _ => derive scopes source
      (op.resultType element).mapError (about view (.aggregate op source none type))
  | .aggregate op source (some projection) type => do
      let element ← elementOf view source <|
        partType trusting scopes source fun _ => derive scopes source
      let input ← derive (element :: scopes) projection
      (op.resultType input).mapError (about view (.aggregate op source (some projection) type))
  | .distinct source => do
      let element ← elementOf view source <|
        partType trusting scopes source fun _ => derive scopes source
      .ok (.list element)
  | .slice source start stop => do
      if stop.any (· < start) then invalid view .sliceReversed (.slice source start stop)
      else
        let element ← elementOf view source <|
          partType trusting scopes source fun _ => derive scopes source
        .ok (.list element)
  | .one source none _ =>
      elementOf view source (partType trusting scopes source fun _ => derive scopes source)
  | .one source (some default) _ => do
      let element ← elementOf view source <|
        partType trusting scopes source fun _ => derive scopes source
      let other ← partType trusting scopes default fun _ => derive scopes default
      .ok (element.unify other)

/-- Checks the operands of a connective from left to right. -/
def deriveOperands (scopes : List DataType) (op : BooleanOp) (whole : Expr) :
    List Expr → Except Error Unit
  | [] => .ok ()
  | operand :: rest => do
      let type ← partType trusting scopes operand fun _ => derive scopes operand
      if type.isBooleanLike then deriveOperands scopes op whole rest
      else .error (about view whole (.ofCause (.operandTypeNotBoolean op.symbol type.label)))

def deriveFields (scopes : List DataType) :
    List (String × Expr) → Except Error (List (String × DataType))
  | [] => .ok []
  | (name, e) :: rest => do
      let type ← partType trusting scopes e fun _ => derive scopes e
      let types ← deriveFields scopes rest
      .ok ((name, type) :: types)

def deriveKeys (scopes : List DataType) (whole : Expr) :
    List (Expr × Direction) → Except Error Unit
  | [] => .ok ()
  | (key, _) :: rest => do
      let type ← derive scopes key
      if type.isOrderable then deriveKeys scopes whole rest
      else .error (about view whole (.ofCause (.unsortableType type.label)))

end

end Derivation

/-- A new node with its type, if its parts fit together. -/
def checked (view : ItemRef → String) (e : Expr) : Except Error Expr :=
  (derive true view [] e).map e.withType

end Expr

end RecordAlgebra
