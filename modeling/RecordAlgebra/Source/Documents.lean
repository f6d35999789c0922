import RecordAlgebra.Pipeline.Run
import RecordAlgebra.Source.Basic
import RecordAlgebra.Plan.Coverage

/-!
# Document stores

A document store keeps the documents of its items under the text of their
identity, or of all their values if the schema has no identity. It executes by
itself what has a plan. If a pipeline fails, the store declines, and plain
evaluation finds out whether and when an error comes up.
-/

namespace RecordAlgebra.Source.Documents

variable (access : ItemAccess EvalM) (ref : SourceRef)

def missingIdentity (field : String) : Error :=
  ((Error.ofCause .missingIdentity).attach "field" field).attach "source" ref.name

/-- The fields that an item is stored under. An identity has to be complete. -/
def keyFields (item : ItemRef) : EvalM (Fields Value) := do
  match ← Item.identity? access.field item with
  | some fields =>
      match fields.find? fun field => field.2.isNull with
      | some field => EvalM.raise (missingIdentity ref field.1)
      | none => pure fields
  | none => Item.entries access.field item

def keyText (fields : Fields Value) : Except Error String := do
  return (Json.array (← Document.ofValues (fields.map Prod.snd))).print

def keyOf (item : ItemRef) : EvalM String := do
  EvalM.lift (keyText (← keyFields access ref item))

def stored : EvalM (List Json) := do return (← ref.store).documents.map Prod.snd

def rowsOf (documents : List Json) : Except Error (List Row) :=
  documents.mapM (Document.toRow ref.schema)

def scan (allowed : Bool) : EvalM (List Row) := do
  if !allowed then
    EvalM.raise ((Error.ofCause .scansDisabled).attach "source" ref.name)
  else
    ref.modifyStore fun store => { store with scans := store.scans + 1 }
    EvalM.lift (rowsOf ref (← stored ref))

/-- The result of a scalar plan, if it is known. -/
def scalarOf (ifEmpty : Option Value) : List Json → Option Value
  | [] => ifEmpty
  | document :: _ => some (Document.fieldValue document Plan.resultField)

/-- What a plan gives for these documents, if it does not fail. -/
def runPlan? (schema : Schema) (plan : Plan) (documents : List Json) : Option NativeOutput :=
  match plan.pipeline.run documents with
  | .error _ => none
  | .ok results =>
      match plan.output with
      | .rows => (results.mapM (Document.toRow schema)).toOption.map .rows
      | .values => some (.elements (results.map fun document => .ok (Document.toValue document)))
      | .scalar ifEmpty => (scalarOf ifEmpty results).map .scalar

def executionOf (coverage : Coverage) (documents : List Json) : Execution :=
  match coverage with
  | .full plan =>
      match runPlan? ref.schema plan documents with
      | some output => .accepted output
      | none => .declined
  | .partly plan remainder =>
      match runPlan? ref.schema plan documents with
      | some output => .partly output remainder
      | none => .declined
  | .nothing => .declined

def isDeclined : Execution → Bool
  | .declined => true
  | _ => false

/-- Executes what has a plan, and counts it. -/
def offer (e : Expr) : EvalM Execution := do
  let coverage ← EvalM.lift (Coverage.ofExpr (← EvalM.view) ref.schema e)
  let execution := executionOf ref coverage (← stored ref)
  if !isDeclined execution then
    ref.modifyStore fun store => { store with natives := store.natives + 1 }
  pure execution

def save (item : ItemRef) : EvalM Unit := do
  let key ← keyOf access ref item
  let row ← Item.entries access.field item
  let document ← EvalM.lift (Document.ofRow ref.schema row)
  ref.modifyStore fun store => { store with documents := store.documents.insert key document }

def delete (item : ItemRef) : EvalM Unit := do
  let key ← keyOf access ref item
  if (← ref.store).documents.contains key then
    ref.modifyStore fun store =>
      { store with documents := store.documents.filter fun entry => entry.1 != key }
  else EvalM.raise ((Error.ofCause .documentNotStored).attach "source" ref.name)

/-- A document store that may refuse to be read as a whole. -/
def create (scansAllowed : Bool) : Source where
  ref := ref
  deferred := []
  scan := scan ref scansAllowed
  offer := offer ref
  save := save access ref
  delete := delete access ref

end RecordAlgebra.Source.Documents
