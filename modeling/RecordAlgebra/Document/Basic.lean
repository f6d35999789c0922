import RecordAlgebra.Json.Printer
import RecordAlgebra.Value.Arithmetic

/-!
# Values as documents

Every value without items and without numbers that are not finite has a form as
a JSON document. Integers and doubles keep apart in it, bytes become arrays of
numbers and timestamps become strings. So a document alone does not tell a text
from a timestamp, and reading one as a value of a given type is an operation of
its own.
-/

namespace RecordAlgebra

/-- Whether values of this type are told apart by their documents. -/
def FieldType.isPlain : FieldType → Bool
  | .boolean | .int | .float | .text => true
  | _ => false

/-- Whether this is the type of single values that are told apart by their
documents. -/
def DataType.isPlain : DataType → Bool
  | .scalar type => type.isPlain
  | _ => false

namespace Document

mutual

def ofValue : Value → Except Error Json
  | .null => .ok .null
  | .bool b => .ok (.bool b)
  | .int n => .ok (.int n.toInt)
  | .float x =>
      if Binary64.isFinite x then .ok (.float x)
      else .error (.ofCause (.nonFiniteNumber (Binary64.text .plain x)))
  | .text s => .ok (.text s)
  | .bytes octets => .ok (.array (octets.map fun octet => .int octet.toNat))
  | .timestamp t => .ok (.text t.storedText)
  | .list elements => (ofValues elements).map .array
  | .record fields => (ofFields fields).map .object
  | .item _ => .error (.ofCause .itemInDocument)

def ofValues : List Value → Except Error (List Json)
  | [] => .ok []
  | v :: rest => do
      let document ← ofValue v
      let documents ← ofValues rest
      .ok (document :: documents)

def ofFields : List (String × Value) → Except Error (List (String × Json))
  | [] => .ok []
  | (name, v) :: rest => do
      let document ← ofValue v
      let members ← ofFields rest
      .ok ((name, document) :: members)

end

/-- An integer that is no word becomes the nearest double. -/
def numberValue (n : Int) : Value :=
  match wordOfInt? n with
  | some word => .int word
  | none => .float (Float.ofInt n)

mutual

def toValue : Json → Value
  | .null => .null
  | .bool b => .bool b
  | .int n => numberValue n
  | .float x => .float x
  | .text s => .text s
  | .array elements => .list (toValues elements)
  | .object members => .record (toFields members)

def toValues : List Json → List Value
  | [] => []
  | document :: rest => toValue document :: toValues rest

def toFields : List (String × Json) → List (String × Value)
  | [] => []
  | (name, document) :: rest => (name, toValue document) :: toFields rest

end

/-- The member of this name as a value, or null. -/
def fieldValue (document : Json) (name : String) : Value :=
  match document.member? name with
  | some member => toValue member
  | none => .null

def toOctet : Json → Except Error UInt8
  | .int n => if 0 ≤ n ∧ n < 256 then .ok (UInt8.ofNat n.toNat) else .error (.ofCause .badByte)
  | _ => .error (.ofCause .badByte)

def toOctets : List Json → Except Error (List UInt8)
  | [] => .ok []
  | document :: rest => do
      let octet ← toOctet document
      let octets ← toOctets rest
      .ok (octet :: octets)

def toTimestamp (text : String) : Except Error Timestamp :=
  match Timestamp.ofStoredText? text with
  | some t => .ok t
  | none =>
      .error
        { cause := .badTimestamp text
          origin := some "the text is not the stored form of a timestamp" }

/-- The value of this type that is stored as the document. Only types whose
values are not told apart by their documents make a difference. -/
def toTyped (type : DataType) (document : Json) : Except Error Value :=
  match type, document with
  | _, .null => .ok .null
  | .float, .int n => .ok (.float (Float.ofInt n))
  | .timestamp, .text text => (toTimestamp text).map .timestamp
  | .bytes, .array elements => (toOctets elements).map .bytes
  | .timestamp, other | .bytes, other =>
      .error (.ofCause (.storedMisfit other.print type.label))
  | _, other => .ok (toValue other)

/-- The value as a property of this type stores it: a property of fractional
numbers holds no integers. -/
def coerce : FieldType → Value → Value
  | .float, .int n => .float (Value.toFloat n)
  | _, v => v

/-- The document of a row, which has all properties of the schema and no other
members. What the row lacks is null. -/
def ofRow (schema : Schema) (row : Row) : Except Error Json := do
  let members ← schema.properties.mapM fun property => do
    let v := (row.get? property.name).getD .null
    property.validate v
    return (property.name, ← ofValue (coerce property.type v))
  return .object members

/-- The row that is stored as the document, with all properties of the schema. -/
def toRow (schema : Schema) (document : Json) : Except Error Row :=
  match document with
  | .object members =>
      schema.properties.mapM fun property =>
        match Fields.get? members property.name with
        | some member => do return (property.name, ← toTyped (.scalar property.type) member)
        | none => .ok (property.name, .null)
  | _ => .error (.ofCause .documentNotObject)

end Document

end RecordAlgebra
