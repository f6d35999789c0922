import RecordAlgebra.Source.Basic

/-!
# Tables in memory

A table keeps rows under the identity of their items, or under all of their
values if the schema has no identity. Saving replaces a row in its place.
Deferred fields are not stored.
-/

namespace RecordAlgebra.Source.Memory

variable (access : ItemAccess EvalM)

def keyOf (item : ItemRef) : EvalM Value.Key := do
  let fields ← Item.keyFields access.field item
  (Value.list (fields.map Prod.snd)).toKey access

/-- The row that is stored for an item. -/
def rowOf (deferred : List String) (item : ItemRef) : EvalM Row :=
  Item.readAll access.field item
    (item.schema.names.filter fun name => !deferred.contains name)

/-- The row takes the place of one under an equal key. -/
def put (rows : List (Value.Key × Row)) (key : Value.Key) (row : Row) :
    EvalM (List (Value.Key × Row)) := do
  match ← key.find? access rows with
  | some position => pure (rows.modify position fun (key, _) => (key, row))
  | none => pure (rows ++ [(key, row)])

def scan (source : SourceRef) : EvalM (List Row) := do
  source.modifyStore fun store => { store with scans := store.scans + 1 }
  return (← source.store).rows.map Prod.snd

def save (source : SourceRef) (deferred : List String) (item : ItemRef) : EvalM Unit := do
  let key ← keyOf access item
  let row ← rowOf access deferred item
  let rows ← put access (← source.store).rows key row
  source.modifyStore fun store => { store with rows }

def delete (source : SourceRef) (item : ItemRef) : EvalM Unit := do
  let key ← keyOf access item
  match ← key.find? access (← source.store).rows with
  | some position =>
      source.modifyStore fun store => { store with rows := store.rows.eraseIdx position }
  | none => EvalM.raise ((Error.ofCause .itemNotStored).attach "source" source.name)

/-- A table that computes these fields instead of storing them. It never
executes anything by itself. -/
def create (ref : SourceRef) (deferred : List (String × Loader)) : Source where
  ref := ref
  deferred := deferred
  scan := scan ref
  offer _ := pure .declined
  save := save access ref (deferred.map Prod.fst)
  delete := delete access ref

end RecordAlgebra.Source.Memory
