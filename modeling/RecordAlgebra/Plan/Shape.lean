import RecordAlgebra.Document.Basic
import RecordAlgebra.Expr.Basic

/-!
# Shapes

A shape is what is known of all documents between two stages of a pipeline.
Stored documents stand for items, other objects for records, and the rest for
single values.
-/

namespace RecordAlgebra

/-- Whether the values of this type are told apart by their documents, which
records of such values are as well. -/
def DataType.isDocumentType : DataType → Bool
  | .scalar type => type.isPlain
  | .record fields isOpen => !isOpen && areDocumentTypes fields
  | _ => false
where
  areDocumentTypes : List (String × DataType) → Bool
    | [] => true
    | (_, type) :: rest => type.isDocumentType && areDocumentTypes rest

inductive Shape where
  | stored (type : RecordType)
  | object (type : RecordType)
  | scalar (type : DataType)

namespace Shape

/-- The documents of items with this schema. -/
def ofSchema (schema : Schema) : Shape := .stored (.closed (DataType.properties schema))

/-- The documents of values of this type. -/
def ofType : DataType → Shape
  | .record fields isOpen => .object { fields, isOpen }
  | type => .scalar type

def recordType? : Shape → Option RecordType
  | .stored type | .object type => some type
  | .scalar _ => none

def fieldType? (shape : Shape) (name : String) : Option DataType := do
  (← shape.recordType?).fields.get? name

/-- The type of a field whose values are told apart by their documents. -/
def documentField? (shape : Shape) (name : String) : Option DataType :=
  (shape.fieldType? name).filter DataType.isDocumentType

/-- The type of a field of single values that are told apart by their documents. -/
def plainField? (shape : Shape) (name : String) : Option DataType :=
  (shape.documentField? name).filter DataType.isPlain

/-- The fields of an element that is taken as a whole, if all of them are told
apart by their documents. -/
def wholeElement? (shape : Shape) : Option RecordType := do
  let type ← shape.recordType?
  if (DataType.ofRecordType type).isDocumentType then some type else none

end Shape

namespace Expr

/-- Whether this is the element that is bound innermost. -/
def isElement : Expr → Bool
  | .context 0 _ => true
  | _ => false

/-- The name of a field that is read off the element itself. -/
def elementField? : Expr → Option String
  | .field base name _ => if base.isElement then some name else none
  | _ => none

def literal? : Expr → Option Value
  | .literal v => some v
  | _ => none

end Expr

end RecordAlgebra
