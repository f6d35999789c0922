import RecordAlgebra.Expr.Typing

/-!
# Building expressions

Every function here makes one node from parts that are there already and checks
that they fit together. So an expression that could be built is well typed as
far as its types are known.
-/

namespace RecordAlgebra.Expr

/-- An expression for the input of an evaluation, which has this type. -/
def input (type : DataType) : Expr := .context 0 type

/-- The binding so many steps outwards. -/
def outer (depth : Nat) : Expr := .context depth .any

/-- The innermost binding. -/
def element : Expr := outer 0

/-- Every item of a source with this schema. -/
def allItems (schema : Schema) : Expr := input (.list (.item schema))

section

variable (view : ItemRef → String)

def mkField (base : Expr) (name : String) : Except Error Expr :=
  checked view (.field base name .any)

def mkComparison (op : ComparisonOp) (left right : Expr) : Except Error Expr :=
  checked view (.comparison op left right)

def mkBoolean (op : BooleanOp) (operands : List Expr) : Except Error Expr :=
  if operands.isEmpty then .error (.ofCause (.noOperands op.symbol))
  else checked view (.boolean op operands)

def mkNegation (op : NegationOp) (operand : Expr) : Except Error Expr :=
  checked view (.negation op operand)

def mkArithmetic (op : ArithmeticOp) (left right : Expr) : Except Error Expr :=
  checked view (.arithmetic op left right .any)

def mkMerge (left right : Expr) : Except Error Expr :=
  checked view (.merge left right .any)

/-- The first name that came up before. -/
def repeatedName? (seen : List String) : List String → Option String
  | [] => none
  | name :: rest => if seen.contains name then some name else repeatedName? (name :: seen) rest

def mkRecord (fields : List (String × Expr)) : Except Error Expr :=
  match repeatedName? [] (fields.map Prod.fst) with
  | some name => .error (.ofCause (.duplicateRecordField name))
  | none => checked view (.record fields .any)

def mkFunction (f : ScalarFunction) (argument : Expr) : Except Error Expr :=
  checked view (.function f argument)

def mkFilter (source predicate : Expr) : Except Error Expr :=
  checked view (.filter source predicate)

def mkMap (source projection : Expr) : Except Error Expr :=
  checked view (.map source projection .any)

def mkSort (source : Expr) (keys : List (Expr × Direction)) : Except Error Expr :=
  if keys.isEmpty then .error (.ofCause .noSortKeys) else checked view (.sort source keys)

def mkGroupBy (source key total : Expr) : Except Error Expr :=
  checked view (.groupBy source key total .any)

def mkAggregate (op : AggregateOp) (source : Expr) (projection : Option Expr) :
    Except Error Expr :=
  checked view (.aggregate op source projection .any)

def mkDistinct (source : Expr) : Except Error Expr := checked view (.distinct source)

def mkSlice (source : Expr) (start : Nat) (stop : Option Nat) : Except Error Expr :=
  checked view (.slice source start stop)

def mkOne (source : Expr) (default : Option Expr) : Except Error Expr :=
  checked view (.one source default .any)

end

/-- The expressions that building gives. Patterns and literals are arbitrary, and
so is the type of a context of the innermost binding. -/
inductive Built (view : ItemRef → String) : Expr → Prop where
  | input (type : DataType) : Built view (input type)
  | outer (depth : Nat) : Built view (outer depth)
  | literal (value : Value) : Built view (.literal value)
  | field {base e : Expr} {name : String} :
      Built view base → mkField view base name = .ok e → Built view e
  | comparison {op : ComparisonOp} {left right e : Expr} :
      Built view left → Built view right → mkComparison view op left right = .ok e → Built view e
  | boolean {op : BooleanOp} {operands : List Expr} {e : Expr} :
      (∀ operand ∈ operands, Built view operand) → mkBoolean view op operands = .ok e →
        Built view e
  | negation {op : NegationOp} {operand e : Expr} :
      Built view operand → mkNegation view op operand = .ok e → Built view e
  | arithmetic {op : ArithmeticOp} {left right e : Expr} :
      Built view left → Built view right → mkArithmetic view op left right = .ok e → Built view e
  | merge {left right e : Expr} :
      Built view left → Built view right → mkMerge view left right = .ok e → Built view e
  | record {fields : List (String × Expr)} {e : Expr} :
      (∀ field ∈ fields, Built view field.2) → mkRecord view fields = .ok e → Built view e
  | function {f : ScalarFunction} {argument e : Expr} :
      Built view argument → mkFunction view f argument = .ok e → Built view e
  | filter {source predicate e : Expr} :
      Built view source → Built view predicate → mkFilter view source predicate = .ok e →
        Built view e
  | map {source projection e : Expr} :
      Built view source → Built view projection → mkMap view source projection = .ok e →
        Built view e
  | sort {source : Expr} {keys : List (Expr × Direction)} {e : Expr} :
      Built view source → (∀ key ∈ keys, Built view key.1) → mkSort view source keys = .ok e →
        Built view e
  | groupBy {source key total e : Expr} :
      Built view source → Built view key → Built view total →
        mkGroupBy view source key total = .ok e → Built view e
  | aggregate {op : AggregateOp} {source : Expr} {projection : Option Expr} {e : Expr} :
      Built view source → (∀ p ∈ projection, Built view p) →
        mkAggregate view op source projection = .ok e → Built view e
  | distinct {source e : Expr} : Built view source → mkDistinct view source = .ok e → Built view e
  | slice {source e : Expr} {start : Nat} {stop : Option Nat} :
      Built view source → mkSlice view source start stop = .ok e → Built view e
  | one {source : Expr} {default : Option Expr} {e : Expr} :
      Built view source → (∀ d ∈ default, Built view d) → mkOne view source default = .ok e →
        Built view e

end RecordAlgebra.Expr
