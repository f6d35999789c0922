/-!
# Errors

An error is a cause together with the context that was attached to it on its
way out. The kind of an error is what callers decide on; its wording is fixed
in one place, `Cause.message`, and is for readers only.
-/

namespace RecordAlgebra

inductive ErrorKind where
  | schemaMismatch
  | unknownField
  | immutableSchema
  | invalidExpression
  | typeMismatch
  | emptyAggregation
  | arithmetic
  | cardinality
  | dataSource
  | internal
  deriving DecidableEq, Repr

def ErrorKind.label : ErrorKind → String
  | .schemaMismatch => "schema mismatch"
  | .unknownField => "unknown field"
  | .immutableSchema => "immutable schema"
  | .invalidExpression => "invalid expression"
  | .typeMismatch => "type mismatch"
  | .emptyAggregation => "empty aggregation"
  | .arithmetic => "arithmetic error"
  | .cardinality => "cardinality error"
  | .dataSource => "data source error"
  | .internal => "internal error"

/-- What went wrong. Names of values, types and operators are given as the
text in which they are reported. -/
inductive Cause where
  /-- Two properties of a schema have one name. -/
  | duplicateProperty
  | propertyNotScalar (typeClass : String)
  | notAProperty (name : String)
  | misfitsProperty (kind property : String)
  | itemHasNoField (name : String)
  | cannotAssign (name : String)
  | cannotRemove (name : String)
  | recordHasNoField (name : String)
  | fieldOfValue (name kind : String)
  | fieldOfType (name type : String)
  | noSuchProperty (name : String)
  | noSuchRecordField (name : String)
  | expected (wanted kind : String)
  | expectedSequence (kind : String)
  | expectedSequenceType (type : String)
  | unorderedValues (left right : String)
  | unorderedTypes (left right : String)
  | unsortableType (type : String)
  | overflow (operation : String)
  | divisionByZero
  | cannotCombine (operation left right : String)
  | cannotNegateValue (kind : String)
  | cannotNegateType (type : String)
  | cannotApply (operator left right : String)
  | arithmeticOnMappings (operator : String)
  | mergeOfNonMappings (left right : String)
  | functionOnValue (function kind : String)
  | functionOnType (function type : String)
  /-- An operand of a connective has a value that is neither boolean nor null. -/
  | operandNotTruth (operator kind : String)
  | operandTypeNotBoolean (operator type : String)
  | predicateNotBoolean (type : String)
  | noOperands (operator : String)
  | noSortKeys
  | duplicateRecordField (name : String)
  | sliceReversed
  | invalidPattern
  | cannotAggregateType (operation type : String)
  | cannotAggregateValue (operation kind : String)
  | emptyAggregate (operation : String)
  | nothingAccumulated (field : String)
  | unboundContext (depth : Nat)
  | moreThanOne
  | noneInsteadOfOne
  | inputConsumed
  | resultsDiffer
  | unknownSetting (name : String)
  | depthOutOfRange (limit : Nat)
  | foreignItem
  | itemNotStored
  | documentNotStored
  | missingIdentity
  | scansDisabled
  | nonFiniteNumber (number : String)
  | itemInDocument
  | badTimestamp (text : String)
  | badByte
  | storedMisfit (value type : String)
  | documentNotObject
  | fieldsOnNonObject
  /-- A failure that is reported by someone else, in their words. -/
  | reported (kind : ErrorKind) (message : String)
  deriving DecidableEq, Repr

def Cause.kind : Cause → ErrorKind
  | .duplicateProperty | .propertyNotScalar _ | .notAProperty _ => .schemaMismatch
  | .itemHasNoField _ | .cannotAssign _ | .recordHasNoField _ => .unknownField
  | .cannotRemove _ => .immutableSchema
  | .fieldOfType .. | .noSuchProperty _ | .noSuchRecordField _ | .expectedSequenceType _
  | .unorderedTypes .. | .unsortableType _ | .cannotNegateType _ | .cannotApply ..
  | .arithmeticOnMappings _ | .mergeOfNonMappings .. | .functionOnType ..
  | .operandTypeNotBoolean .. | .predicateNotBoolean _ | .noOperands _ | .noSortKeys
  | .duplicateRecordField _ | .sliceReversed | .invalidPattern | .cannotAggregateType ..
  | .unboundContext _ => .invalidExpression
  | .misfitsProperty .. | .fieldOfValue .. | .expected .. | .expectedSequence _
  | .unorderedValues .. | .cannotCombine .. | .cannotNegateValue _ | .functionOnValue ..
  | .operandNotTruth .. | .cannotAggregateValue .. | .fieldsOnNonObject => .typeMismatch
  | .emptyAggregate _ | .nothingAccumulated _ => .emptyAggregation
  | .overflow _ | .divisionByZero => .arithmetic
  | .moreThanOne | .noneInsteadOfOne => .cardinality
  | .foreignItem | .itemNotStored | .documentNotStored | .missingIdentity | .scansDisabled
  | .nonFiniteNumber _ | .itemInDocument => .dataSource
  | .inputConsumed | .resultsDiffer | .unknownSetting _ | .depthOutOfRange _
  | .badTimestamp _ | .badByte | .storedMisfit .. | .documentNotObject => .internal
  | .reported kind _ => kind

def Cause.message : Cause → String
  | .duplicateProperty => "Duplicate property name"
  | .propertyNotScalar typeClass => s!"Properties must be scalar, got a {typeClass} type"
  | .notAProperty name => s!"Field '{name}' is not a property of the schema"
  | .misfitsProperty kind property =>
      s!"Value of type {kind} cannot be stored in property '{property}'"
  | .itemHasNoField name => s!"Item has no field '{name}'"
  | .cannotAssign name => s!"Cannot assign field '{name}' not in schema"
  | .cannotRemove name => s!"Cannot remove field '{name}' from an item"
  | .recordHasNoField name => s!"Record has no field '{name}'"
  | .fieldOfValue name kind => s!"Cannot access field '{name}' on a {kind} value"
  | .fieldOfType name type => s!"Cannot access field '{name}' on {type}"
  | .noSuchProperty name => s!"Items have no property '{name}'"
  | .noSuchRecordField name => s!"Record has no field '{name}'"
  | .expected wanted kind => s!"Expected {wanted} value, got {kind}"
  | .expectedSequence kind => s!"Expected a sequence, got a {kind} value"
  | .expectedSequenceType type => s!"Expected a sequence, got {type}"
  | .unorderedValues left right => s!"Cannot order a {left} value against a {right} value"
  | .unorderedTypes left right => s!"Cannot order {left} against {right}"
  | .unsortableType type => s!"Cannot sort by {type}"
  | .overflow operation => s!"Integer overflow in {operation}"
  | .divisionByZero => "Division by zero"
  | .cannotCombine operation left right => s!"Cannot {operation} {left} and {right} values"
  | .cannotNegateValue kind => s!"Cannot negate a {kind} value"
  | .cannotNegateType type => s!"Cannot negate {type}"
  | .cannotApply operator left right => s!"Cannot apply '{operator}' to {left} and {right}"
  | .arithmeticOnMappings operator =>
      s!"Cannot apply '{operator}' to mappings, use merge to combine them"
  | .mergeOfNonMappings left right => s!"Merge requires two mappings, got {left} and {right}"
  | .functionOnValue function kind => s!"Function '{function}' cannot be applied to a {kind} value"
  | .functionOnType function type => s!"Function '{function}' cannot be applied to {type}"
  | .operandNotTruth operator kind => s!"Operand of '{operator}' must be boolean, got {kind}"
  | .operandTypeNotBoolean operator type => s!"Operand of '{operator}' must be boolean, got {type}"
  | .predicateNotBoolean type => s!"Filter predicate must be boolean, got {type}"
  | .noOperands operator => s!"'{operator}' requires at least one operand"
  | .noSortKeys => "Sort requires at least one key"
  | .duplicateRecordField name => s!"Duplicate record field '{name}'"
  | .sliceReversed => "Slice stop before start"
  | .invalidPattern => "Invalid regular expression"
  | .cannotAggregateType operation type => s!"Cannot compute '{operation}' over {type}"
  | .cannotAggregateValue operation kind => s!"Cannot compute '{operation}' of a {kind} value"
  | .emptyAggregate operation => s!"Cannot compute '{operation}' of an empty sequence"
  | .nothingAccumulated field => s!"No values to accumulate for '{field}'"
  | .unboundContext depth => s!"Context refers to scope {depth}, past the outermost binding"
  | .moreThanOne => "Expected exactly one element, got more"
  | .noneInsteadOfOne => "Expected exactly one element, got none"
  | .inputConsumed => "Input sequence already consumed"
  | .resultsDiffer => "Optimized execution produced a different result"
  | .unknownSetting name => s!"Missing setting for '{name}'"
  | .depthOutOfRange limit => s!"Negotiation depth must be between 0 and {limit}"
  | .foreignItem => "Item belongs to a different source"
  | .itemNotStored => "Cannot delete an item that isn't stored"
  | .documentNotStored => "Cannot delete a document that isn't stored"
  | .missingIdentity => "Cannot persist an item with a missing identity"
  | .scansDisabled => "Full scans are disabled for this store"
  | .nonFiniteNumber number => s!"Cannot store non-finite float {number}"
  | .itemInDocument => "Cannot store an item inside a document"
  | .badTimestamp text => s!"Failed to parse stored timestamp '{text}'"
  | .badByte => "Stored bytes contain a non-byte value"
  | .storedMisfit value type => s!"Stored value {value} doesn't match property type {type}"
  | .documentNotObject => "Stored document is not an object"
  | .fieldsOnNonObject => "Cannot add fields to a document that isn't an object"
  | .reported _ message => message

/-- A cause, the context attached to it (oldest first), and the text of the
error that led to it, if there was one. -/
structure Error where
  cause : Cause
  context : List (String × String) := []
  origin : Option String := none
  deriving DecidableEq, Repr

namespace Error

def ofCause (cause : Cause) : Error := { cause }

def kind (e : Error) : ErrorKind := e.cause.kind

def message (e : Error) : String := e.cause.message

def attach (e : Error) (key value : String) : Error :=
  { e with context := e.context ++ [(key, value)] }

/-- The first context value under this key. -/
def get? (e : Error) (key : String) : Option String := e.context.lookup key

/-- An internal error in the given words, raised because of `origin`. -/
def wrap (message : String) (origin : String) : Error :=
  { cause := .reported .internal message, origin := some origin }

/-- The message, the context in parentheses, and the error that led here. -/
def text (e : Error) : String :=
  let details := e.context.map fun (key, value) => s!"{key}: {value}"
  let context := if e.context.isEmpty then "" else " (" ++ String.intercalate ", " details ++ ")"
  let origin := match e.origin with
    | none => ""
    | some origin => "\nError source: " ++ origin
  e.message ++ context ++ origin

@[simp] theorem kind_attach (e : Error) (key value : String) :
    (e.attach key value).kind = e.kind := rfl

@[simp] theorem message_attach (e : Error) (key value : String) :
    (e.attach key value).message = e.message := rfl

theorem kind_wrap (message origin : String) : (wrap message origin).kind = .internal := rfl

end Error

end RecordAlgebra
