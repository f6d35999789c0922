import RecordAlgebra.Eval.Basic
import RecordAlgebra.Item.Basic

/-!
# Access to items

Reading a field may run a loader, which evaluates an expression, which may read
other fields. Access of level `n` allows for `n` loads and looks into items
inside of one another, and whatever goes deeper does not end. As long as no
loader waits for itself and no item contains itself, a level that is larger
than the heap allows for everything.
-/

namespace RecordAlgebra.ItemAccess

/-- Access for expressions that hold no items. -/
def blocked : ItemAccess EvalM where
  field _ _ := EvalM.diverge
  entries _ := EvalM.diverge
  equal _ _ := EvalM.diverge
  digest _ := EvalM.diverge
  view := EvalM.view

def atLevel : Nat → ItemAccess EvalM
  | 0 => blocked
  | n + 1 =>
      let run (loader : Loader) (ref : ItemRef) : EvalM Value :=
        Item.load (fun e v => do (← e.runValue (atLevel n) v).intoValue) loader ref
      { field := fun ref name => Item.read run ref name
        entries := fun ref => Item.entries (Item.read run) ref
        equal := fun a b =>
          Item.equal (Item.read run) (fun a b => (atLevel n).equal a b) a b
        digest := fun ref =>
          Item.digest (Item.read run) (fun ref => (atLevel n).digest ref) ref
        view := EvalM.view }

/-- A level that no chain of loads of different fields and of items inside of
items reaches. -/
def levelFor (w : World) : Nat := (w.deferredCount + 1) * (w.cells.size + 1) + 1

/-- Access at the level that the heap asks for at the moment. -/
def live : ItemAccess EvalM where
  field ref name := do (atLevel (levelFor (← get))).field ref name
  entries ref := do (atLevel (levelFor (← get))).entries ref
  equal a b := do (atLevel (levelFor (← get))).equal a b
  digest ref := do (atLevel (levelFor (← get))).digest ref
  view := EvalM.view

end RecordAlgebra.ItemAccess
