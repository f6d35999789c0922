import RecordAlgebra.Document.Basic
import RecordAlgebra.Pipeline.Basic
import RecordAlgebra.Value.Aggregate
import RecordAlgebra.Value.Comparison
import RecordAlgebra.Value.Sorting

/-!
# Running pipelines

Documents are compared, combined and accumulated as the values that they stand
for, by the same operations that evaluate expressions. No item ever occurs in
such a value.
-/

namespace RecordAlgebra.Pipeline

/-- The text of items among the values of documents, where there are none. -/
def noItems : ItemRef → String := fun _ => ""

namespace Operand

mutual

def eval (document : Json) : Operand → Except Error Value
  | .root => .ok (Document.toValue document)
  | .field name => .ok (Document.fieldValue document name)
  | .literal document => .ok (Document.toValue document)
  | .combine op left right => do
      let a ← eval document left
      let b ← eval document right
      Value.apply noItems op.op a b
  | .changeCase letters operand => do letters.function.apply (← eval document operand)
  | .object fields => (evalFields document fields).map fun fields => .record (Fields.ofList fields)
  | .merge parts => (mergeAll document [] parts).map .record

def evalFields (document : Json) : List (String × Operand) → Except Error (List (String × Value))
  | [] => .ok []
  | (name, operand) :: rest => do
      let v ← eval document operand
      let fields ← evalFields document rest
      .ok ((name, v) :: fields)

/-- The fields so far, together with those of the remaining parts. -/
def mergeAll (document : Json) (fields : Fields Value) : List Operand → Except Error (Fields Value)
  | [] => .ok fields
  | operand :: rest => do
      let additions ← (← eval document operand).entries ItemAccess.detached
      mergeAll document (fields.insertAll additions) rest

end

/-- What the operand gives for a document, as a document. -/
def document (operand : Operand) (source : Json) : Except Error Json := do
  Document.ofValue (← operand.eval source)

end Operand

namespace Condition

mutual

/-- Whether the condition selects a document. Parts are looked at until one of
them decides it. -/
def holds (document : Json) : Condition → Except Error Bool
  | .all parts => holdAll document parts
  | .any parts => holdsAny document parts
  | .compare field op constant => do
      let v ← Value.compare ItemAccess.detached op (Document.fieldValue document field)
        (Document.toValue constant)
      v.toPredicate noItems

def holdAll (document : Json) : List Condition → Except Error Bool
  | [] => .ok true
  | condition :: rest => do
      if ← holds document condition then holdAll document rest else .ok false

def holdsAny (document : Json) : List Condition → Except Error Bool
  | [] => .ok false
  | condition :: rest => do
      if ← holds document condition then .ok true else holdsAny document rest

end

end Condition

/-- What is known of a group for one accumulator. -/
inductive Tally where
  | sum (total : Value)
  | mean (state : Value.Mean)
  | best (wanted : Ordering) (found : Option Value)
  | count (skipNulls : Bool) (n : Nat)

namespace Tally

def add (tally : Tally) (v : Value) : Except Error Tally :=
  match tally with
  | .sum total => (Value.addToSum noItems "$sum" total v).map .sum
  | .mean state => (state.add "$avg" v).map .mean
  | .best wanted found => (Value.better wanted found v).map (.best wanted)
  | .count skipNulls n => .ok (.count skipNulls (Value.addToCount skipNulls n v))

/-- The result for a field. Neither a mean nor a best value comes from nothing. -/
def result (field : String) : Tally → Except Error Value
  | .sum total => .ok total
  | .mean state =>
      match state.value? with
      | some v => .ok v
      | none => .error (.ofCause (.nothingAccumulated field))
  | .best _ (some v) => .ok v
  | .best _ none => .error (.ofCause (.nothingAccumulated field))
  | .count _ n => .ok (Value.ofCount n)

end Tally

namespace Accumulator

def start : Accumulator → Tally
  | .sum _ => .sum (.int 0)
  | .avg _ => .mean {}
  | .min _ => .best .lt none
  | .max _ => .best .gt none
  | .count operand => .count operand.isSome 0

/-- What is accumulated of a document. A count without operand does not look at
it. -/
def input (document : Json) : Accumulator → Except Error Value
  | .sum operand | .avg operand | .min operand | .max operand | .count (some operand) =>
      operand.eval document
  | .count none => .ok .null

end Accumulator

/-- The groups so far in order of their first document, each with a tally for
every accumulator. -/
abbrev Groups := List (Value.Key × List Tally)

namespace Grouping

def keyOf (grouping : Grouping) (document : Json) : Except Error Value.Key := do
  let v ← match grouping.key with
    | some operand => operand.eval document
    | none => .ok .null
  v.toKey ItemAccess.detached

/-- The tallies with one more document. -/
def addDocument (document : Json) : List Accumulator → List Tally → Except Error (List Tally)
  | accumulator :: accumulators, tally :: tallies => do
      let tally ← tally.add (← accumulator.input document)
      let tallies ← addDocument document accumulators tallies
      .ok (tally :: tallies)
  | _, _ => .ok []

def step (grouping : Grouping) (groups : Groups) (document : Json) : Except Error Groups := do
  let accumulators := grouping.accumulators.map Prod.snd
  let key ← grouping.keyOf document
  match ← key.find? ItemAccess.detached groups with
  | none => do
      let tallies ← addDocument document accumulators (accumulators.map Accumulator.start)
      .ok (groups ++ [(key, tallies)])
  | some position =>
      match groups[position]? with
      | none => .ok groups
      | some (key, tallies) => do
          let tallies ← addDocument document accumulators tallies
          .ok (groups.set position (key, tallies))

def resultFields : List String → List Tally → Except Error (List (String × Json))
  | name :: names, tally :: tallies => do
      let document ← Document.ofValue (← tally.result name)
      let members ← resultFields names tallies
      .ok ((name, document) :: members)
  | _, _ => .ok []

/-- The document for a group: its key, and the results of its accumulators. -/
def present (grouping : Grouping) (group : Value.Key × List Tally) : Except Error Json := do
  let key ← Document.ofValue group.1.value
  let members ← resultFields grouping.accumulators.names group.2
  .ok (.object (Fields.ofList ((groupIdField, key) :: members)))

def run (grouping : Grouping) (documents : List Json) : Except Error (List Json) := do
  let groups ← documents.foldlM grouping.step []
  groups.mapM grouping.present

end Grouping

section Sorting

/-- Puts a row into a list whose last row comes first, behind all rows that it
comes before. Rows are compared until two of them have no order. -/
def insertRow (directions : List Direction) (row : List Value × Json) :
    List (List Value × Json) → Except Error (List (List Value × Json))
  | [] => .ok [row]
  | last :: rest => do
      if (← Value.orderKeys directions row.1 last.1) == .lt then
        return last :: (← insertRow directions row rest)
      else return row :: last :: rest

def sortDocuments (keys : Fields Direction) (documents : List Json) : Except Error (List Json) := do
  let rows := documents.map fun document => (keys.names.map (Document.fieldValue document), document)
  let sorted ← rows.foldlM (fun sorted row => insertRow (keys.map Prod.snd) row sorted) []
  return (sorted.map Prod.snd).reverse

end Sorting

/-- The document with fields that are computed from it, all from the document as
it was. -/
def extend (fields : Fields Operand) (document : Json) : Except Error Json := do
  let additions ← fields.mapM fun field => do return (field.1, ← field.2.document document)
  match document with
  | .object members => .ok (.object (Fields.insertAll members additions))
  | _ => .error (.ofCause .fieldsOnNonObject)

namespace Stage

def select (condition : Condition) : List Json → Except Error (List Json)
  | [] => .ok []
  | document :: rest => do
      let selected ← condition.holds document
      let others ← select condition rest
      .ok (if selected then document :: others else others)

def run (stage : Stage) (documents : List Json) : Except Error (List Json) :=
  match stage with
  | .filter condition => select condition documents
  | .project fields => documents.mapM (Operand.object fields).document
  | .addFields fields => documents.mapM (extend fields)
  | .replaceWith operand => documents.mapM operand.document
  | .sort keys => sortDocuments keys documents
  | .group grouping => grouping.run documents
  | .count name => .ok [.object [(name, .int (Int64.ofNat documents.length).toInt)]]
  | .skip n => .ok (documents.drop n)
  | .limit n => .ok (documents.take n)

end Stage

/-- The documents that the last stage gives. -/
def run (pipeline : Pipeline) (documents : List Json) : Except Error (List Json) :=
  pipeline.foldlM (fun documents stage => stage.run documents) documents

/-- What each stage gives, up to the first one that fails. -/
def trace : Pipeline → List Json → List (Except Error (List Json))
  | [], _ => []
  | stage :: rest, documents =>
      match stage.run documents with
      | .ok documents => .ok documents :: trace rest documents
      | .error error => [.error error]

end RecordAlgebra.Pipeline
