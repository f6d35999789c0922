import RecordAlgebra.Error

/-!
# Schemas

A schema declares the fields of the records of one source. Every field holds a
single value, and some of them may make up the identity of a record.
-/

namespace RecordAlgebra

/-- The types of single values. `any` stands for a type that is only known
when the value is. -/
inductive FieldType where
  | any
  | null
  | boolean
  | int
  | float
  | text
  | bytes
  | timestamp
  deriving DecidableEq, Repr, Inhabited

def FieldType.label : FieldType → String
  | .any => "Any"
  | .null => "Null"
  | .boolean => "Boolean"
  | .int => "Int"
  | .float => "Float"
  | .text => "Text"
  | .bytes => "Bytes"
  | .timestamp => "Timestamp"

structure Property where
  name : String
  type : FieldType
  identity : Bool
  deriving DecidableEq, Repr

structure Schema where
  name : String
  properties : List Property
  distinct : (properties.map Property.name).Nodup
  deriving Repr

namespace Schema

def property? (schema : Schema) (name : String) : Option Property :=
  schema.properties.find? fun property => property.name == name

def contains (schema : Schema) (name : String) : Bool :=
  schema.properties.any fun property => property.name == name

def names (schema : Schema) : List String := schema.properties.map Property.name

def identityProperties (schema : Schema) : List Property :=
  schema.properties.filter Property.identity

def hasIdentity (schema : Schema) : Bool := schema.properties.any Property.identity

def size (schema : Schema) : Nat := schema.properties.length

def isEmpty (schema : Schema) : Bool := schema.properties.isEmpty

/-- Two schemas are the same if they declare the same properties, in whatever
order. -/
def same (a b : Schema) : Bool :=
  a.name == b.name && a.size == b.size &&
    a.properties.all fun property => b.property? property.name == some property

def empty (name : String) : Schema := { name, properties := [], distinct := by simp }

def nameTaken (schema : Schema) (name : String) : Error :=
  ((Error.ofCause .duplicateProperty).attach "property" name).attach "schema" schema.name

/-- The schema with one more property, unless its name is taken. -/
def add (schema : Schema) (property : Property) : Except Error Schema :=
  if h : property.name ∈ schema.properties.map Property.name then
    .error (schema.nameTaken property.name)
  else
    .ok
      { schema with
        properties := schema.properties ++ [property]
        distinct := by
          rw [List.map_append, List.nodup_append]
          refine ⟨schema.distinct, by simp, ?_⟩
          rintro name hname _ hnew rfl
          simp only [List.map_cons, List.map_nil, List.mem_singleton] at hnew
          exact h (hnew ▸ hname) }

theorem names_empty (name : String) : (empty name).names = [] := rfl

theorem names_add {schema extended : Schema} {property : Property}
    (h : schema.add property = .ok extended) :
    extended.names = schema.names ++ [property.name] := by
  unfold add at h
  split at h
  · cases h
  · cases h
    simp [names]

end Schema

end RecordAlgebra
