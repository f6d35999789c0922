import RecordAlgebra.Expr.Basic
import RecordAlgebra.Json.Basic

/-!
# The state of an evaluation

Items are cells of a heap, and a field of an item is either resolved or waits
for a loader. The inputs of evaluations, the contents of sources and the counts
that show what was done are kept beside the heap. A failure leaves the state as
it is at that moment.
-/

namespace RecordAlgebra

/-- Computes the value of a deferred field. It first assigns fields of the item,
and then evaluates an expression with the item as its input. -/
structure Loader where
  id : Nat
  assign : Row
  body : Expr

inductive Slot where
  | resolved (v : Value)
  | deferred (loader : Loader)

/-- The fields of an item in the order of its schema. -/
structure Cell where
  source : SourceRef
  slots : Fields Slot

/-- An input is opened at most once. What was read from it is kept if it is
needed again. -/
inductive InputState where
  | pending
  | materialized (values : List Value)
  | consumed

/-- What a source holds, and how often it was asked for what. -/
structure Store where
  rows : List (Value.Key × Row) := []
  documents : Fields Json := []
  scans : Nat := 0
  natives : Nat := 0
  offered : List String := []

/-- What a source holds, apart from what it was asked for. -/
def Store.contents (store : Store) : List (Value.Key × Row) × Fields Json :=
  (store.rows, store.documents)

/-- Something that happens to a field of an item: its loader starts, or it is
assigned. -/
inductive ItemEvent where
  | loading (cell : Nat) (name : String)
  | assigned (cell : Nat) (name : String) (v : Value)

structure World where
  cells : Array Cell := #[]
  inputs : Array InputState := #[]
  stores : Array Store := #[]
  /-- How often each loader was run. -/
  calls : Array Nat := #[]
  /-- What happened to the fields of items, the latest first. -/
  history : List ItemEvent := []
  /-- How many elements were pulled from metered sequences. -/
  pulled : Nat := 0
  /-- How many lazy inputs were opened. -/
  opened : Nat := 0

namespace World

def cell? (w : World) (ref : ItemRef) : Option Cell := w.cells[ref.cell]?

def slot? (w : World) (ref : ItemRef) (name : String) : Option Slot :=
  (w.cell? ref).bind fun cell => cell.slots.get? name

def setSlot (w : World) (ref : ItemRef) (name : String) (slot : Slot) : World :=
  { w with
    cells := w.cells.modify ref.cell fun cell =>
      { cell with slots := cell.slots.insert name slot } }

def isDeferred : Slot → Bool
  | .resolved _ => false
  | .deferred _ => true

def deferredCount (w : World) : Nat :=
  w.cells.foldl (fun n cell => n + cell.slots.countP fun (_, slot) => isDeferred slot) 0

/-- The text of an item. Deferred fields are not loaded for it. Items are shown
inside of items only so many levels deep. -/
def itemText (w : World) : Nat → ItemRef → String
  | 0, _ => ""
  | depth + 1, ref =>
      let slotText (slot : String × Slot) : String :=
        slot.1 ++ ": " ++ match slot.2 with
          | .resolved v => v.render (itemText w depth)
          | .deferred _ => "<deferred>"
      match w.cell? ref with
      | none => ""
      | some cell => "\x7b" ++ String.intercalate ", " (cell.slots.map slotText) ++ "\x7d"

/-- The text of items at this moment. No chain of items inside of items is
longer than the heap, unless an item contains itself. -/
def view (w : World) : ItemRef → String := w.itemText (w.cells.size + 1)

end World

/-- Why an evaluation has no result: an error was raised, or it does not end. -/
inductive Stop where
  | raised (error : Error)
  | diverged

abbrev EvalM := ExceptT Stop (StateM World)

namespace EvalM

def raise {α : Type} (error : Error) : EvalM α := throwThe Stop (.raised error)

def fail {α : Type} (cause : Cause) : EvalM α := raise (.ofCause cause)

def diverge {α : Type} : EvalM α := throwThe Stop .diverged

/-- Errors become results. What does not end still does not end. -/
def attempt {α : Type} (action : EvalM α) : EvalM (Except Error α) :=
  ExceptT.mk fun w =>
    match action.run w with
    | (.ok a, w) => (.ok (.ok a), w)
    | (.error (.raised error), w) => (.ok (.error error), w)
    | (.error .diverged, w) => (.error .diverged, w)

def lift {α : Type} (result : Except Error α) : EvalM α :=
  match result with
  | .ok a => pure a
  | .error error => raise error

def view : EvalM (ItemRef → String) := do return (← get).view

instance : MonadExceptOf Error EvalM where
  throw := raise
  tryCatch action handler := do
    match ← attempt action with
    | .ok a => pure a
    | .error error => handler error

end EvalM

end RecordAlgebra
