import RecordAlgebra.Negotiation
import RecordAlgebra.Proofs.Eval.Running

/-!
# Faithful sources

A source is faithful if its rows are the same whenever it is read and show known
data, and if what it answers to an offer agrees with the meaning of the offered
expression over these data. Which offers it declines is left to the source.
-/

namespace RecordAlgebra

open Datum.Elements (ofData)

/-- The action succeeds. It may add items and count what it does, but it reads no input
and changes nothing that a source holds. -/
def Succeeds {α : Type} (w : World) (m : EvalM α) (R : World → α → Prop) : Prop :=
  ∃ a w', m.run w = (.ok a, w') ∧ w.Extends w' ∧ w'.inputs = w.inputs ∧ R w' a

theorem Succeeds.computes {α : Type} {shared : Shared} {start : World} {m : EvalM α}
    {R : World → α → Prop} (h : ∀ w, start.Extends w → Succeeds w m R) :
    Computes shared none start m (fun w a (_ : Unit) => R w a) (.ok ()) := by
  intro w hw hholds _
  obtain ⟨a, w', hrun, hheap, hinputs, ha⟩ := h w hw
  rw [hrun]
  exact ⟨.of_extends hholds hheap hinputs, ha⟩

namespace Item

/-- The state with one more item. -/
def stateAdded (w : World) (cell : Cell) : World := { w with cells := w.cells.push cell }

theorem extends_stateAdded (w : World) (cell : Cell) : w.Extends (stateAdded w cell) := by
  refine ⟨fun i other h => ?_, fun _ => rfl⟩
  have hlt := (Array.getElem?_eq_some_iff.1 h).1
  rw [stateAdded, Array.getElem?_push, if_neg (Nat.ne_of_lt hlt)]
  exact h

theorem stateAdded_self (w : World) (cell : Cell) :
    (stateAdded w cell).cells[w.cells.size]? = some cell := by
  rw [stateAdded, Array.getElem?_push, if_pos rfl]

theorem run_create {source : SourceRef} {row : Row}
    (listed : ∀ name ∈ Fields.names row, source.schema.contains name = true) (w : World) :
    (create source row []).run w =
      (.ok { cell := w.cells.size, source },
        stateAdded w { source, slots := initialSlots source.schema row [] }) := by
  have hrow : (Fields.names row).find? (fun name => !source.schema.contains name) = none := by
    rw [List.find?_eq_none]
    intro name hname
    rw [listed name hname]
    simp
  simp only [create, hrow]
  rfl

end Item

namespace Source

variable (source : Source)

/-- The fields of the item for a row. What the row lacks is null. -/
def rowFields (schema : Schema) (row : Row) : Fields Value :=
  schema.names.map fun name => (name, (row.get? name).getD .null)

theorem names_rowFields (schema : Schema) (row : Row) :
    (rowFields schema row).names = schema.names := by
  rw [rowFields, Fields.names, List.map_map]
  exact List.map_id _

theorem initialSlots_eq (schema : Schema) (row : Row) :
    Item.initialSlots schema row [] = World.loadedSlots (rowFields schema row) := by
  rw [Item.initialSlots, World.loadedSlots, rowFields, List.map_map]
  refine List.map_congr_left fun name _ => ?_
  simp only [Function.comp_apply, Prod.mk.injEq, true_and]
  cases row.get? name <;> rfl

/-- The item for the row will show the datum. Its fields are loaded and all belong to the
schema. -/
structure ShowsRow (w : World) (row : Row) (d : Datum) : Prop where
  loaded : source.loadersFor row = []
  listed : ∀ name ∈ Fields.names row, source.ref.schema.contains name = true
  fields : ∃ ds, d = .item source.ref ds ∧
    List.Forall₂ w.ShowsField (rowFields source.ref.schema row) ds

variable {source} {shared : Shared} {start : World} {row : Row} {d : Datum}

theorem ShowsRow.mono (h : source.ShowsRow start row d) {w : World} (hw : start.Extends w) :
    source.ShowsRow w row d := by
  obtain ⟨ds, hd, hds⟩ := h.fields
  exact ⟨h.loaded, h.listed, ds, hd, World.forall₂_showsField_mono hds hw⟩

theorem computes_wrap (h : source.ShowsRow start row d) :
    Computes shared none start (do return .item (← source.wrap row)) World.Shows (.ok d) := by
  obtain ⟨ds, rfl, hds⟩ := h.fields
  intro w hw hholds _
  rw [wrap, h.loaded, EvalM.run_bind_ok (Item.run_create h.listed w), initialSlots_eq]
  have hheap := Item.extends_stateAdded w
    { source := source.ref, slots := World.loadedSlots (rowFields source.ref.schema row) }
  refine ⟨.of_extends hholds hheap rfl, ?_⟩
  exact World.shows_item.2 ⟨rfl, _, Item.stateAdded_self _ _, names_rowFields _ _,
    World.forall₂_showsField_mono hds (hw.trans hheap)⟩

/-- Rows yield the items that they become. -/
theorem yields_itemsOf {rows : List Row} {data : List Datum}
    (h : List.Forall₂ (source.ShowsRow start) rows data) :
    Yields shared start (source.itemsOf rows) (ofData data) := by
  refine yields_ofActions ?_
  rw [ofData, List.forall₂_map_left_iff, List.forall₂_map_right_iff]
  exact h.imp fun _ _ hrow => computes_wrap hrow

theorem opens_all {rows : List Row} {data : List Datum}
    (scan : ∀ w, start.Extends w → Succeeds w source.scan fun _ found => found = rows)
    (h : List.Forall₂ (source.ShowsRow start) rows data) : Opens start source.all data := by
  refine (Succeeds.computes scan).map_ok fun found w hw hfound => ?_
  rw [hfound]
  exact yields_itemsOf (h.imp fun _ _ hrow => hrow.mono hw)

variable (source)

/-- Whether an answer agrees with what an expression means over the data of the source. An
accepted expression is given by the output. A remainder that is evaluated over the
output ends as the expression does. -/
def Answers (lit : Value → Datum) (data : List Datum) (e : Expr) (w : World) :
    Execution → Prop
  | .accepted output =>
      ∃ r, e.denote lit [.input data] = .ok r ∧ Gives .empty w (source.output output) r
  | .partly output remainder =>
      ∀ shared w', w.Extends w' → w'.Holds shared →
        Settles shared w' (Negotiation.runRemainder .live remainder (source.output output)) Gives
          (e.denote lit [.input data])
  | .declined => True

/-- Every scan gives the same rows, and every answer to an expression that is offered agrees
with its meaning. -/
structure Faithful (lit : Value → Datum) (w : World) (data : List Datum) : Prop where
  scan : ∃ rows, List.Forall₂ (source.ShowsRow w) rows data ∧
    ∀ w', w.Extends w' → Succeeds w' source.scan fun _ found => found = rows
  offer : ∀ e : Expr, e.inputReferences.isSingleDirect = true → e.isContext = false →
    (∀ v, e.HasLiteral v → w.Shows v (lit v)) →
      ∀ w', w.Extends w' → Succeeds w' (source.offer e) (source.Answers lit data e)

variable {source} {lit : Value → Datum} {w : World} {data : List Datum}

theorem Faithful.opens (h : source.Faithful lit w data) {w' : World} (hw : w.Extends w') :
    Opens w' source.all data := by
  obtain ⟨rows, hrows, hscan⟩ := h.scan
  exact (opens_all hscan hrows).mono hw

/-- What an output is as an input. -/
def BindsAs (w : World) : Output → Meaning → Prop
  | .value v, .value d => w.Shows v d
  | .sequence s, .input data => Yields .empty w s (ofData data)
  | _, _ => False

/-- A partial answer is right if the remainder means over the output what the expression
means over the whole. -/
theorem answers_partly {e remainder : Expr} {output : NativeOutput} {meaning : Meaning}
    (binds : BindsAs w (source.output output) meaning)
    (literals : ∀ v, remainder.HasLiteral v → w.Shows v (lit v))
    (means : remainder.denote lit [meaning] = e.denote lit [.input data]) :
    source.Answers lit data e w (.partly output remainder) := by
  intro shared w' hw hholds
  rw [← means]
  have hliterals (v : Value) (hv : remainder.HasLiteral v) := (literals v hv).mono hw
  cases houtput : source.output output with
  | value v =>
      rw [houtput] at binds
      cases meaning with
      | value d =>
          exact Expr.runValue_settles ItemAccess.live_readsLoaded hholds
            (World.Shows.mono binds hw) hliterals
      | input data => exact binds.elim
  | sequence s =>
      rw [houtput] at binds
      cases meaning with
      | value d => exact binds.elim
      | input data =>
          exact Expr.run_settles ItemAccess.live_readsLoaded hholds (Yields.mono binds hw)
            hliterals

end Source

end RecordAlgebra
