import RecordAlgebra.Eval.Basic
import RecordAlgebra.Item.Basic

/-!
# Sources

A source holds records of one schema. It can be read as a whole, and it may
offer to execute an expression over all of its records by itself. What it holds
is kept in the state, under the number of the source.
-/

namespace RecordAlgebra

/-- What a source produces when it executes an expression. Stored records are
yet to become items. -/
inductive NativeOutput where
  | rows (rows : List Row)
  | elements (elements : List Element)
  | scalar (v : Value)

/-- How a source responds to an expression. Of a partial response, the remainder
has to be evaluated with the output as its input. -/
inductive Execution where
  | accepted (output : NativeOutput)
  | partly (output : NativeOutput) (remainder : Expr)
  | declined

structure Source where
  ref : SourceRef
  /-- Fields that are not stored, with the loaders that compute them. -/
  deferred : List (String × Loader)
  scan : EvalM (List Row)
  offer : Expr → EvalM Execution
  save : ItemRef → EvalM Unit
  delete : ItemRef → EvalM Unit

namespace SourceRef

def store (source : SourceRef) : EvalM Store := do
  return (← get).stores[source.id]?.getD {}

def modifyStore (source : SourceRef) (f : Store → Store) : EvalM Unit :=
  modify fun w => { w with stores := w.stores.modify source.id f }

end SourceRef

namespace Source

/-- The loaders for the deferred fields that a row does not have. -/
def loadersFor (source : Source) (row : Row) : List (String × Loader) :=
  source.deferred.filter fun (name, _) => !row.contains name

/-- Turns a stored row into an item. -/
def wrap (source : Source) (row : Row) : EvalM ItemRef :=
  Item.create source.ref row (source.loadersFor row)

def validateRow (schema : Schema) (row : Row) : Except Error Unit :=
  row.forM fun (name, v) =>
    match schema.property? name with
    | some property => property.validate v
    | none => .ok ()

/-- Makes an item without saving it. Loaders that are given replace those of
the source. -/
def createItem (source : Source) (row : Row) (loaders : List (String × Loader)) :
    EvalM ItemRef := do
  EvalM.lift (validateRow source.ref.schema row)
  Item.create source.ref row (source.loadersFor row ++ loaders)

def itemsOf (source : Source) (rows : List Row) : Sequence :=
  .ofActions (rows.map fun row => do return .item (← source.wrap row))

/-- Every item of the source. -/
def all (source : Source) : EvalM Sequence := do return source.itemsOf (← source.scan)

def output (source : Source) : NativeOutput → Output
  | .rows rows => .sequence (source.itemsOf rows)
  | .elements elements => .sequence (.ofElements elements)
  | .scalar v => .value v

/-- Fails for an item of another source. -/
def checkOwned (source : Source) (item : ItemRef) : EvalM Unit :=
  if item.source.id = source.ref.id then pure ()
  else
    EvalM.raise <| ((Error.ofCause .foreignItem).attach "source" source.ref.name).attach
      "item_source" item.source.name

def saveItem (source : Source) (item : ItemRef) : EvalM Unit := do
  source.checkOwned item
  source.save item

def deleteItem (source : Source) (item : ItemRef) : EvalM Unit := do
  source.checkOwned item
  source.delete item

/-- Evaluates an expression over all items. The source is read only if the
expression needs it. -/
def evaluate (source : Source) (access : ItemAccess EvalM) (e : Expr) : EvalM Output :=
  e.runWith access .empty source.all

end Source

end RecordAlgebra
