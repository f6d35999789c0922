import RecordAlgebra.Binary64.Text
import RecordAlgebra.Calendar.Text
import RecordAlgebra.DataType

/-!
# Values

A value is single, a list, a record of named values, or an item: a handle to a
record that belongs to a source. Items are only named here. What their fields
hold is kept elsewhere and may change, so the operations on values that look
into items are told how to do so by an `ItemAccess`.
-/

namespace RecordAlgebra

/-- The source that an item belongs to. Sources are told apart by number. -/
structure SourceRef where
  id : Nat
  name : String
  schema : Schema

structure ItemRef where
  cell : Nat
  source : SourceRef

def ItemRef.schema (item : ItemRef) : Schema := item.source.schema

/-- Record fields have distinct names wherever they are built by `Fields`. -/
inductive Value where
  | null
  | bool (b : Bool)
  | int (n : Int64)
  | float (x : Float)
  | text (s : String)
  | bytes (octets : List UInt8)
  | timestamp (t : Timestamp)
  | list (elements : List Value)
  | record (fields : List (String × Value))
  | item (ref : ItemRef)
  deriving Inhabited

abbrev Row := Fields Value

namespace Value

/-- The name of the kind of a value, as errors give it. -/
def kind : Value → String
  | .null => "null"
  | .bool _ => "boolean"
  | .int _ => "int"
  | .float _ => "float"
  | .text _ => "text"
  | .bytes _ => "bytes"
  | .timestamp _ => "timestamp"
  | .list _ => "list"
  | .record _ => "record"
  | .item _ => "item"

def isNull : Value → Bool
  | .null => true
  | _ => false

def isNumber : Value → Bool
  | .int _ | .float _ => true
  | _ => false

mutual

def datatype : Value → DataType
  | .null => .null
  | .bool _ => .boolean
  | .int _ => .int
  | .float _ => .float
  | .text _ => .text
  | .bytes _ => .bytes
  | .timestamp _ => .timestamp
  | .list elements => .list (DataType.unifyAll (datatypes elements))
  | .record fields => .record (fieldTypes fields) false
  | .item ref => .item ref.schema

def datatypes : List Value → List DataType
  | [] => []
  | element :: rest => datatype element :: datatypes rest

def fieldTypes : List (String × Value) → List (String × DataType)
  | [] => []
  | (name, value) :: rest => (name, datatype value) :: fieldTypes rest

end

def hexText (byte : UInt8) : String :=
  let digits := Nat.toDigits 16 byte.toNat
  String.ofList (if digits.length = 1 then '0' :: digits else digits)

mutual

/-- The text of a value for readers, given the text of items. -/
def render (view : ItemRef → String) : Value → String
  | .null => "null"
  | .bool b => if b then "true" else "false"
  | .int n => toString n.toInt
  | .float x => Binary64.text .plain x
  | .text s => s
  | .bytes octets => "\\x" ++ String.join (octets.map hexText)
  | .timestamp t => t.text
  | .list elements => "[" ++ String.intercalate ", " (renderAll view elements) ++ "]"
  | .record fields => "\x7b" ++ String.intercalate ", " (renderFields view fields) ++ "\x7d"
  | .item ref => view ref

def renderAll (view : ItemRef → String) : List Value → List String
  | [] => []
  | element :: rest => render view element :: renderAll view rest

def renderFields (view : ItemRef → String) : List (String × Value) → List String
  | [] => []
  | (name, value) :: rest => (name ++ ": " ++ render view value) :: renderFields view rest

end

mutual

/-- Whether no item occurs in the value. -/
def isItemFree : Value → Bool
  | .list elements => areItemFree elements
  | .record fields => fieldsItemFree fields
  | .item _ => false
  | _ => true

def areItemFree : List Value → Bool
  | [] => true
  | element :: rest => isItemFree element && areItemFree rest

def fieldsItemFree : List (String × Value) → Bool
  | [] => true
  | (_, value) :: rest => isItemFree value && fieldsItemFree rest

end

/-- The double nearest to an integer. -/
def toFloat (n : Int64) : Float := Float.ofInt n.toInt

/-- The error for a value that is not of the wanted kind. -/
def unexpected (view : ItemRef → String) (wanted : String) (v : Value) : Error :=
  (Error.ofCause (.expected wanted v.kind)).attach "value" (v.render view)

section Conversions

variable (view : ItemRef → String)

def toBool : Value → Except Error Bool
  | .bool b => .ok b
  | v => .error (unexpected view "boolean" v)

def toInt : Value → Except Error Int64
  | .int n => .ok n
  | v => .error (unexpected view "int" v)

def toNumber : Value → Except Error Float
  | .int n => .ok (toFloat n)
  | .float x => .ok x
  | v => .error (unexpected view "numeric" v)

def toText : Value → Except Error String
  | .text s => .ok s
  | v => .error (unexpected view "text" v)

def toList : Value → Except Error (List Value)
  | .list elements => .ok elements
  | v => .error (unexpected view "list" v)

def toItem : Value → Except Error ItemRef
  | .item ref => .ok ref
  | v => .error (unexpected view "item" v)

/-- The outcome of a predicate, where null counts as false. -/
def toPredicate : Value → Except Error Bool
  | .bool b => .ok b
  | .null => .ok false
  | v => .error (unexpected view "boolean" v)

end Conversions

end Value

/-- Whether a value may be stored in a field of this type. Null stands for the
value of an absent field and is stored anywhere. -/
def FieldType.admits : FieldType → Value → Bool
  | _, .null | .any, _ => true
  | .boolean, .bool _ | .int, .int _ | .float, .int _ | .float, .float _ | .text, .text _
  | .bytes, .bytes _ | .timestamp, .timestamp _ => true
  | _, _ => false

def Property.validate (property : Property) (v : Value) : Except Error Unit :=
  if property.type.admits v then .ok ()
  else
    .error ((Error.ofCause (.misfitsProperty v.kind property.name)).attach "expected"
      property.type.label)

end RecordAlgebra
