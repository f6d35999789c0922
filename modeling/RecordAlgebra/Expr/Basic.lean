import RecordAlgebra.Value.Arithmetic
import RecordAlgebra.Value.Comparison
import RecordAlgebra.Value.Function

/-!
# Expressions

An expression computes a value or a sequence from the values bound around it.
Predicates, projections, keys and group aggregates see one binding more than
the expression that they belong to; all other parts see the same bindings.
Nodes whose type is not read off their parts carry it with them.
-/

namespace RecordAlgebra

inductive BooleanOp where
  | and
  | or
  deriving DecidableEq, Repr

inductive NegationOp where
  | not
  | minus
  deriving DecidableEq, Repr

inductive AggregateOp where
  | sum
  | min
  | max
  | avg
  /-- The number of elements, or of those whose projection is not null. -/
  | count
  | len
  deriving DecidableEq, Repr

inductive Direction where
  | ascending
  | descending
  deriving DecidableEq, Repr

def BooleanOp.symbol : BooleanOp → String
  | .and => "&"
  | .or => "|"

/-- The operand that decides the result, whatever the others are. -/
def BooleanOp.decisive : BooleanOp → Bool
  | .and => false
  | .or => true

def AggregateOp.name : AggregateOp → String
  | .sum => "sum"
  | .min => "min"
  | .max => "max"
  | .avg => "avg"
  | .count => "count"
  | .len => "len"

def Direction.label : Direction → String
  | .ascending => "ASC"
  | .descending => "DESC"

def Direction.apply : Direction → Ordering → Ordering
  | .ascending, o => o
  | .descending, o => o.swap

/-- A context at depth `n` is the `n`-th binding outwards. Past the bindings of
the tree it is the input of the evaluation, which has the given type. -/
inductive Expr where
  | context (depth : Nat) (type : DataType)
  | literal (value : Value)
  | field (base : Expr) (name : String) (type : DataType)
  | comparison (op : ComparisonOp) (left right : Expr)
  | boolean (op : BooleanOp) (operands : List Expr)
  | negation (op : NegationOp) (operand : Expr)
  | arithmetic (op : ArithmeticOp) (left right : Expr) (type : DataType)
  | merge (left right : Expr) (type : DataType)
  | record (fields : List (String × Expr)) (type : DataType)
  | function (f : ScalarFunction) (input : Expr)
  | filter (source predicate : Expr)
  | map (source projection : Expr) (type : DataType)
  | sort (source : Expr) (keys : List (Expr × Direction))
  | groupBy (source key total : Expr) (type : DataType)
  | aggregate (op : AggregateOp) (source : Expr) (projection : Option Expr) (type : DataType)
  | distinct (source : Expr)
  | slice (source : Expr) (start : Nat) (stop : Option Nat)
  | one (source : Expr) (default : Option Expr) (type : DataType)
  deriving Inhabited

/-- Whether a part is evaluated under the bindings of the whole or under one
binding more. -/
inductive ChildScope where
  | same
  | nested
  deriving DecidableEq, Repr

namespace Expr

def groupKeyField : String := "key"

def groupValueField : String := "value"

/-- A sequence of unknown type is at least a sequence. -/
def sequenceType : DataType → DataType
  | .any => .list .any
  | type => type

/-- The type of the result, where contexts have their declared type. -/
def datatype : Expr → DataType
  | .context _ type => type
  | .literal value => value.datatype
  | .comparison .. | .boolean .. | .negation .not _ => .boolean
  | .negation .minus operand => operand.datatype
  | .function f _ => f.returnType
  | .filter source _ | .sort source _ | .distinct source | .slice source _ _ =>
      sequenceType source.datatype
  | .field _ _ type | .arithmetic _ _ _ type | .merge _ _ type | .record _ type | .map _ _ type
  | .groupBy _ _ _ type | .aggregate _ _ _ type | .one _ _ type => type

def typeClass (e : Expr) : TypeClass := e.datatype.typeClass

/-- The node with this type, if it carries one. -/
def withType (e : Expr) (type : DataType) : Expr :=
  match e with
  | .field base name _ => .field base name type
  | .arithmetic op left right _ => .arithmetic op left right type
  | .merge left right _ => .merge left right type
  | .record fields _ => .record fields type
  | .map source projection _ => .map source projection type
  | .groupBy source key total _ => .groupBy source key total type
  | .aggregate op source projection _ => .aggregate op source projection type
  | .one source default _ => .one source default type
  | e => e

/-- The parts of an expression in the order of their evaluation. -/
def children : Expr → List (Expr × ChildScope)
  | .context .. | .literal _ => []
  | .field base _ _ => [(base, .same)]
  | .comparison _ left right | .arithmetic _ left right _ | .merge left right _ =>
      [(left, .same), (right, .same)]
  | .boolean _ operands => operands.map (·, .same)
  | .negation _ operand => [(operand, .same)]
  | .record fields _ => fields.map fun (_, e) => (e, .same)
  | .function _ input => [(input, .same)]
  | .filter source predicate => [(source, .same), (predicate, .nested)]
  | .map source projection _ => [(source, .same), (projection, .nested)]
  | .sort source keys => (source, .same) :: keys.map fun (e, _) => (e, .nested)
  | .groupBy source key total _ => [(source, .same), (key, .nested), (total, .nested)]
  | .aggregate _ source projection _ =>
      (source, .same) :: projection.toList.map (·, .nested)
  | .distinct source | .slice source _ _ => [(source, .same)]
  | .one source default _ => (source, .same) :: default.toList.map (·, .same)

def isContext : Expr → Bool
  | .context .. => true
  | _ => false

mutual

/-- The text of an expression, given the text of items in literals. -/
def render (view : ItemRef → String) : Expr → String
  | .context 0 _ => "c"
  | .context depth _ => "c(-" ++ toString depth ++ ")"
  | .literal (.text s) => "'" ++ s ++ "'"
  | .literal value => value.render view
  | .field base name _ => render view base ++ "." ++ name
  | .comparison op left right =>
      "(" ++ render view left ++ " " ++ op.symbol ++ " " ++ render view right ++ ")"
  | .boolean op operands =>
      "(" ++ String.intercalate (" " ++ op.symbol ++ " ") (renderAll view operands) ++ ")"
  | .negation .not operand => "NOT(" ++ render view operand ++ ")"
  | .negation .minus operand => "-" ++ render view operand
  | .arithmetic op left right _ =>
      "(" ++ render view left ++ " " ++ op.symbol ++ " " ++ render view right ++ ")"
  | .merge left right _ => "merge(" ++ render view left ++ ", " ++ render view right ++ ")"
  | .record fields _ =>
      "\x7b" ++ String.intercalate ", " (renderFields view fields) ++ "\x7d"
  | .function (.matches pattern) input =>
      "matches(" ++ render view input ++ ", '" ++ pattern.text ++ "')"
  | .function f input => f.name ++ "(" ++ render view input ++ ")"
  | .filter source predicate =>
      render view source ++ ".filter(" ++ render view predicate ++ ")"
  | .map source projection _ => render view source ++ ".map(" ++ render view projection ++ ")"
  | .sort source keys =>
      render view source ++ ".sort(" ++ String.intercalate ", " (renderKeys view keys) ++ ")"
  | .groupBy source key total _ =>
      render view source ++ ".group_by(" ++ render view key ++ ", " ++ render view total ++ ")"
  | .aggregate op source none _ => render view source ++ "." ++ op.name ++ "()"
  | .aggregate op source (some projection) _ =>
      render view source ++ "." ++ op.name ++ "(" ++ render view projection ++ ")"
  | .distinct source => render view source ++ ".distinct()"
  | .slice source start stop =>
      let stop := match stop with
        | some stop => toString stop
        | none => ".."
      render view source ++ ".slice(" ++ toString start ++ ", " ++ stop ++ ")"
  | .one source none _ => render view source ++ ".one()"
  | .one source (some default) _ => render view source ++ ".one(" ++ render view default ++ ")"

def renderAll (view : ItemRef → String) : List Expr → List String
  | [] => []
  | e :: rest => render view e :: renderAll view rest

def renderFields (view : ItemRef → String) : List (String × Expr) → List String
  | [] => []
  | (name, e) :: rest => (name ++ ": " ++ render view e) :: renderFields view rest

def renderKeys (view : ItemRef → String) : List (Expr × Direction) → List String
  | [] => []
  | (e, direction) :: rest => (render view e ++ " " ++ direction.label) :: renderKeys view rest

end

end Expr

end RecordAlgebra
