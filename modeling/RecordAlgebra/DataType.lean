import RecordAlgebra.Fields
import RecordAlgebra.Schema

/-!
# Data types

The type of a value is that of a single value, a list, a record or an item.
`any` is the type of what is only known during evaluation, and it agrees with
every other type. Two types always have a type that both fit in, `unify`.
-/

namespace RecordAlgebra

/-- An open record may have fields that its type does not list. -/
inductive DataType where
  | scalar (type : FieldType)
  | list (element : DataType)
  | record (fields : List (String × DataType)) (isOpen : Bool)
  | item (schema : Schema)
  deriving Inhabited

/-- The coarse shape of the values of a type. -/
inductive TypeClass where
  | any
  | scalar
  | sequence
  | mapping
  deriving DecidableEq, Repr

def TypeClass.label : TypeClass → String
  | .any => "any"
  | .scalar => "scalar"
  | .sequence => "sequence"
  | .mapping => "mapping"

/-- The fields of a mapping type. -/
structure RecordType where
  fields : Fields DataType
  isOpen : Bool

namespace DataType

@[match_pattern] abbrev any : DataType := .scalar .any
@[match_pattern] abbrev null : DataType := .scalar .null
@[match_pattern] abbrev boolean : DataType := .scalar .boolean
@[match_pattern] abbrev int : DataType := .scalar .int
@[match_pattern] abbrev float : DataType := .scalar .float
@[match_pattern] abbrev text : DataType := .scalar .text
@[match_pattern] abbrev bytes : DataType := .scalar .bytes
@[match_pattern] abbrev timestamp : DataType := .scalar .timestamp

def ofRecordType (type : RecordType) : DataType := .record type.fields type.isOpen

mutual

/-- Fields of records count in their order, properties of schemas in any. -/
def same : DataType → DataType → Bool
  | .scalar a, .scalar b => a == b
  | .list a, .list b => same a b
  | .record as openA, .record bs openB => sameFields as bs && openA == openB
  | .item a, .item b => a.same b
  | _, _ => false

def sameFields : List (String × DataType) → List (String × DataType) → Bool
  | [], [] => true
  | (name, a) :: as, (other, b) :: bs => name == other && same a b && sameFields as bs
  | _, _ => false

end

instance : BEq DataType := ⟨same⟩

def typeClass : DataType → TypeClass
  | .any => .any
  | .scalar _ => .scalar
  | .list _ => .sequence
  | .record .. | .item _ => .mapping

def isAny : DataType → Bool
  | .any => true
  | _ => false

def isNull : DataType → Bool
  | .null => true
  | _ => false

def isNumeric : DataType → Bool
  | .int | .float => true
  | _ => false

/-- Whether a value of this type may stand where a truth value is expected. -/
def isBooleanLike : DataType → Bool
  | .any | .null | .boolean => true
  | _ => false

/-- Whether a value of this type may stand where a number is expected. -/
def isNumericLike (type : DataType) : Bool := type.isNumeric || type.isAny || type.isNull

/-- Whether the values of this type have an order among themselves. -/
def isOrderable : DataType → Bool
  | .scalar _ => true
  | .list element => element.isOrderable
  | .record .. | .item _ => false

/-- Whether values of the two types may be put in order. -/
def isComparable : DataType → DataType → Bool
  | .list a, .list b => a.isOrderable && b.isOrderable && isComparable a b
  | a, b =>
      a.isOrderable && b.isOrderable &&
        (a.isAny || b.isAny || a.isNull || b.isNull || (a.isNumeric && b.isNumeric) || a == b)

mutual

def label : DataType → String
  | .scalar type => type.label
  | .list element => "List<" ++ label element ++ ">"
  | .record fields isOpen =>
      let shown := fieldLabels fields ++ if isOpen then [".."] else []
      "Record\x7b" ++ String.intercalate ", " shown ++ "\x7d"
  | .item schema => "Item<" ++ schema.name ++ ">"

def fieldLabels : List (String × DataType) → List String
  | [] => []
  | (name, type) :: rest => (name ++ ": " ++ label type) :: fieldLabels rest

end

/-- A type that both types fit in. -/
def unify (a b : DataType) : DataType :=
  if a == b then a
  else match a, b with
    | .null, b => b
    | a, .null => a
    | .int, .float | .float, .int => .float
    | .list a, .list b => .list (unify a b)
    | _, _ => .any

/-- The type that the types of all elements fit in. -/
def unifyAll : List DataType → DataType
  | [] => .null
  | type :: rest => rest.foldl unify type

def elementType : DataType → Except Error DataType
  | .any => .ok .any
  | .list element => .ok element
  | type => .error (.ofCause (.expectedSequenceType type.label))

def properties (schema : Schema) : Fields DataType :=
  schema.properties.map fun property => (property.name, .scalar property.type)

def fieldType (type : DataType) (name : String) : Except Error DataType :=
  match type with
  | .any => .ok .any
  | .item schema =>
      match schema.property? name with
      | some property => .ok (.scalar property.type)
      | none =>
          .error <| (Error.ofCause (.noSuchProperty name)).attach "properties"
            (String.intercalate ", " schema.names)
  | .record fields isOpen =>
      match Fields.get? fields name with
      | some type => .ok type
      | none => if isOpen then .ok .any else .error (.ofCause (.noSuchRecordField name))
  | type => .error (.ofCause (.fieldOfType name type.label))

/-- The fields of a mapping, as far as they are known. -/
def recordType? : DataType → Option RecordType
  | .any => some { fields := [], isOpen := true }
  | .item schema => some { fields := properties schema, isOpen := false }
  | .record fields isOpen => some { fields, isOpen }
  | _ => none

end DataType

namespace RecordType

def closed (fields : Fields DataType) : RecordType := { fields, isOpen := false }

/-- The fields of both, where those of `b` replace those of `a`. -/
def merge (a b : RecordType) : RecordType :=
  { fields := a.fields.insertAll b.fields, isOpen := a.isOpen || b.isOpen }

end RecordType

/-- The schema with one more property, if its type is one of single values. -/
def Schema.addTyped (schema : Schema) (name : String) (type : DataType) (identity : Bool) :
    Except Error Schema :=
  match type with
  | .scalar type => schema.add { name, type, identity }
  | type =>
      if schema.contains name then .error (schema.nameTaken name)
      else
        .error ((Error.ofCause (.propertyNotScalar type.typeClass.label)).attach "property" name)

def Schema.ofTyped (name : String) (properties : List (String × DataType × Bool)) :
    Except Error Schema :=
  properties.foldlM (fun schema (name, type, identity) => schema.addTyped name type identity)
    (Schema.empty name)

end RecordAlgebra
