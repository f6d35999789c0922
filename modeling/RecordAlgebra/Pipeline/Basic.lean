import RecordAlgebra.Expr.Basic
import RecordAlgebra.Json.Basic

/-!
# Pipelines

A pipeline is a list of stages. Each stage takes all documents that the stage
before it gives. Operands compute values from single documents, conditions
select documents, and accumulators combine what operands give for the documents
of a group.
-/

namespace RecordAlgebra.Pipeline

/-- How an operand is made from two others. Texts are put together by an
addition as well, so `concat` says no more than what was meant. -/
inductive Combination where
  | add
  | subtract
  | multiply
  | concat
  deriving DecidableEq, Repr

def Combination.op : Combination → ArithmeticOp
  | .add | .concat => .add
  | .subtract => .subtract
  | .multiply => .multiply

inductive LetterCase where
  | upper
  | lower
  deriving DecidableEq, Repr

def LetterCase.function : LetterCase → ScalarFunction
  | .upper => .upper
  | .lower => .lower

/-- Computes a value from a document. -/
inductive Operand where
  /-- The document itself. -/
  | root
  | field (name : String)
  | literal (document : Json)
  | combine (op : Combination) (left right : Operand)
  | changeCase (letters : LetterCase) (input : Operand)
  | object (fields : List (String × Operand))
  /-- The fields of all parts, where later ones replace earlier ones. -/
  | merge (parts : List Operand)
  deriving Inhabited

/-- Selects documents. -/
inductive Condition where
  | all (parts : List Condition)
  | any (parts : List Condition)
  /-- A comparison without a result does not select the document. -/
  | compare (field : String) (op : ComparisonOp) (document : Json)
  deriving Inhabited

inductive Accumulator where
  | sum (operand : Operand)
  | avg (operand : Operand)
  | min (operand : Operand)
  | max (operand : Operand)
  /-- The number of documents, or of those for which the operand is not null. -/
  | count (operand : Option Operand)

/-- Documents with equal keys form a group. Without a key all of them do. -/
structure Grouping where
  key : Option Operand
  accumulators : Fields Accumulator

inductive Stage where
  | filter (condition : Condition)
  /-- Replaces each document by an object of these fields. -/
  | project (fields : Fields Operand)
  | addFields (fields : Fields Operand)
  | replaceWith (operand : Operand)
  | sort (keys : Fields Direction)
  | group (grouping : Grouping)
  /-- Replaces all documents by one that holds their number. -/
  | count (name : String)
  | skip (n : Nat)
  | limit (n : Nat)

/-- The member that holds the key of a group. -/
def groupIdField : String := "_id"

end RecordAlgebra.Pipeline

namespace RecordAlgebra

abbrev Pipeline := List Pipeline.Stage

end RecordAlgebra
