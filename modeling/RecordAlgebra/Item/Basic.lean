import RecordAlgebra.World

/-!
# Items

An item always has exactly the fields of its schema. A field that waits for a
loader is loaded when it is first read, and keeps its value from then on. If it
is assigned meanwhile, the assigned value stays.

Running a loader is left open here, and so is comparing the values that items
hold.
-/

namespace RecordAlgebra.Item

def notAProperty (schema : Schema) (name : String) : Error :=
  (Error.ofCause (.notAProperty name)).attach "schema" schema.name

/-- The slots of a new item: the value from the row if it has one, else the
loader if there is one, else null. -/
def initialSlots (schema : Schema) (row : Row) (loaders : Fields Loader) : Fields Slot :=
  schema.names.map fun name =>
    (name,
      match row.get? name, loaders.get? name with
      | some v, _ => .resolved v
      | none, some loader => .deferred loader
      | none, none => .resolved .null)

/-- Adds an item to the heap. Its row and its loaders may name only properties
of the schema, and the last loader of a name counts. -/
def create (source : SourceRef) (row : Row) (loaders : List (String × Loader)) :
    EvalM ItemRef := do
  let schema := source.schema
  let loaders := Fields.ofList loaders
  match row.names.find? fun name => !schema.contains name with
  | some name => EvalM.raise (notAProperty schema name)
  | none =>
    match loaders.names.find? fun name => !schema.contains name with
    | some name => EvalM.raise (notAProperty schema name)
    | none => do
        let w ← get
        let cell := { source, slots := initialSlots schema row loaders }
        set { w with cells := w.cells.push cell }
        pure { cell := w.cells.size, source }

def setSlot (ref : ItemRef) (name : String) (slot : Slot) : EvalM Unit :=
  modify fun w => w.setSlot ref name slot

def record (event : ItemEvent) : EvalM Unit :=
  modify fun w => { w with history := event :: w.history }

/-- Assigns a field, which from then on has this value. -/
def assign (ref : ItemRef) (name : String) (v : Value) : EvalM Unit := do
  match (← get).slot? ref name with
  | some _ => do
      record (.assigned ref.cell name v)
      setSlot ref name (.resolved v)
  | none =>
      EvalM.raise ((Error.ofCause (.cannotAssign name)).attach "source" ref.source.name)

def assignAll (ref : ItemRef) : Row → EvalM Unit
  | [] => pure ()
  | (name, v) :: rest => do
      assign ref name v
      assignAll ref rest

/-- No field can be removed from an item. -/
def remove (_ref : ItemRef) (name : String) : EvalM Unit := EvalM.fail (.cannotRemove name)

def contains (ref : ItemRef) (name : String) : Bool := ref.schema.contains name

def isLoaded (ref : ItemRef) (name : String) : EvalM Bool := do
  match (← get).slot? ref name with
  | some (.resolved _) => pure true
  | _ => pure false

/-- Reads a field. A loader runs while the field still waits for it, and its
value is kept unless the field was assigned in the meantime. -/
def read (run : Loader → ItemRef → EvalM Value) (ref : ItemRef) (name : String) :
    EvalM Value := do
  match (← get).slot? ref name with
  | none =>
      EvalM.raise ((Error.ofCause (.itemHasNoField name)).attach "source" ref.source.name)
  | some (.resolved v) => pure v
  | some (.deferred loader) => do
      record (.loading ref.cell name)
      let v ← run loader ref
      match (← get).slot? ref name with
      | some (.deferred current) =>
          if current.id = loader.id then setSlot ref name (.resolved v)
      | _ => pure ()
      pure v

section Reading

variable (read : ItemRef → String → EvalM Value)

def readAll (ref : ItemRef) : List String → EvalM (Fields Value)
  | [] => pure []
  | name :: rest => do
      let v ← read ref name
      return (name, v) :: (← readAll ref rest)

/-- All fields in the order of the schema. -/
def entries (ref : ItemRef) : EvalM (Fields Value) := readAll read ref ref.schema.names

/-- The fields that identify the item, if its schema has any. -/
def identity? (ref : ItemRef) : EvalM (Option (Fields Value)) := do
  if ref.schema.hasIdentity then
    return some (← readAll read ref (ref.schema.identityProperties.map Property.name))
  else pure none

/-- The fields by which an item is told apart from others of its source. -/
def keyFields (ref : ItemRef) : EvalM (Fields Value) := do
  match ← identity? read ref with
  | some fields => pure fields
  | none => entries read ref

def isComplete (fields : Fields Value) : Bool := fields.all fun (_, v) => !v.isNull

/-- Whether two items are equal. Within one source two complete identities
decide it, and otherwise all values do. Items that cannot be loaded are equal
to themselves only. -/
def equal (equalValues : ItemRef → ItemRef → EvalM Bool) (a b : ItemRef) : EvalM Bool := do
  let byValues : EvalM Bool := do
    let left ← EvalM.attempt (entries read a)
    let right ← EvalM.attempt (entries read b)
    match left, right with
    | .ok left, .ok right => Value.equalEntries equalValues left right
    | _, _ => pure false
  if a.cell = b.cell then pure true
  else if a.source.id = b.source.id && a.schema.hasIdentity then
    let left ← EvalM.attempt (readAll read a (a.schema.identityProperties.map Property.name))
    let right ← EvalM.attempt (readAll read b (b.schema.identityProperties.map Property.name))
    match left, right with
    | .ok left, .ok right =>
        if isComplete left && isComplete right then Value.equalEntries equalValues left right
        else byValues
    | _, _ => pure false
  else byValues

/-- What an item contributes to a hash key. Since equal items of one source may
differ outside of their identity, only the identity counts if there is one. -/
def digest (digestItem : ItemRef → EvalM Digest) (ref : ItemRef) : EvalM Digest := do
  return .ofEntries (← Value.digestEntries digestItem (← keyFields read ref))

end Reading

/-- Runs a loader, given how expressions are evaluated. -/
def load (evaluate : Expr → Value → EvalM Value) (loader : Loader) (ref : ItemRef) :
    EvalM Value := do
  modify fun w => { w with calls := w.calls.modify loader.id (· + 1) }
  assignAll ref loader.assign
  evaluate loader.body (.item ref)

end RecordAlgebra.Item
