import RecordAlgebra.Proofs.Document.Stored
import RecordAlgebra.Proofs.Item.Life
import RecordAlgebra.Proofs.Item.Shows

/-!
# Changes of what a source holds

A source changes what it holds in one step, after everything that can fail: fields are read
before, which may run loaders, but nothing is stored meanwhile. A row that was read from a
source becomes an item that holds what the row says.
-/

namespace RecordAlgebra

namespace Allowance

/-- Nothing is stored or removed. -/
def storing (stores : Array Store) : Allowance where
  holds _ w := w.stores = stores
  stuck w := w.stores = stores
  error _ := True
  holds_of_succ _ _ h := h
  stuck_of_holds _ h := h

theorem keptByItems_storing (stores : Array Store) :
    Allowance.KeptByItems fun _ : Unit => storing stores :=
  keptByItems_of_steps fun _ =>
    { counted := fun h _ => h
      assigned := fun h _ _ => h
      started := fun h _ => h
      loaded := fun h _ _ => h }

end Allowance

theorem ItemAccess.live_stores (stores : Array Store) : live.Keeps (.storing stores) :=
  live_keeps (Allowance.keptByItems_storing stores) (fun _ _ _ => trivial) ()

theorem Spends.stores_eq {α : Type} {P : α → Prop} {m : EvalM α} {w : World}
    (h : Spends (.storing w.stores) 0 P m) : (m.run w).2.stores = w.stores := by
  have hends := h 0 w rfl
  rcases hrun : m.run w with ⟨(e | _) | a, w'⟩ <;> rw [hrun] at hends
  · exact hends.1
  · exact hends
  · exact hends.1

theorem Spends.stores_of_run {α : Type} {P : α → Prop} {m : EvalM α} {w w' : World}
    {r : Except Stop α} (h : Spends (.storing w.stores) 0 P m) (hrun : m.run w = (r, w')) :
    w'.stores = w.stores := by
  have hstores := h.stores_eq
  rwa [hrun] at hstores

namespace Source

variable {source : Source} {ref : SourceRef} {item : ItemRef} {row : Row} {w : World}

theorem store_spends (ref : SourceRef) (stores : Array Store) :
    Spends (.storing stores) 0 (fun _ => True) ref.store :=
  .get fun _ => .pure trivial

theorem checkOwned_spends (source : Source) (stores : Array Store) (item : ItemRef) :
    Spends (.storing stores) 0 (fun _ => True) (source.checkOwned item) := by
  rw [checkOwned]
  split
  · exact .pure trivial
  · exact .raise trivial

theorem checkOwned_ok {w' : World} (h : (source.checkOwned item).run w = (.ok (), w')) : w' = w := by
  rw [checkOwned] at h
  split at h
  · cases h
    rfl
  · cases h

theorem checkOwned_run (hsource : item.source = source.ref) :
    (source.checkOwned item).run w = (.ok (), w) := by
  rw [checkOwned, if_pos (by rw [hsource])]
  rfl

/-- A change that is prepared happens in one step, or not at all. -/
theorem change_cases {α : Type} {prepare : EvalM α} (f : α → Store → Store)
    (h : Spends (.storing w.stores) 0 (fun _ => True) prepare) :
    (∃ stop w₁, (prepare >>= fun a => ref.modifyStore (f a)).run w = (.error stop, w₁) ∧
      w₁.stores = w.stores) ∨
    ∃ a w₁, prepare.run w = (.ok a, w₁) ∧ w₁.stores = w.stores ∧
      (prepare >>= fun a => ref.modifyStore (f a)).run w =
        (.ok (), { w₁ with stores := w₁.stores.modify ref.id (f a) }) := by
  have hstores := h.stores_eq
  rcases hrun : prepare.run w with ⟨stop | a, w₁⟩ <;> rw [hrun] at hstores
  · exact .inl ⟨stop, w₁, EvalM.run_bind_error hrun _, hstores⟩
  · exact .inr ⟨a, w₁, rfl, hstores, EvalM.run_bind_ok hrun _⟩

/-- A change that fails has changed nothing. -/
theorem stores_of_change_error {α : Type} {prepare : EvalM α} (f : α → Store → Store)
    (h : Spends (.storing w.stores) 0 (fun _ => True) prepare) {stop : Stop} {w' : World}
    (hrun : (prepare >>= fun a => ref.modifyStore (f a)).run w = (.error stop, w')) :
    w'.stores = w.stores := by
  rcases change_cases f h with ⟨_, w₁, hrun', hstores⟩ | ⟨_, w₁, -, -, hrun'⟩
  · cases hrun.symm.trans hrun'
    exact hstores
  · cases hrun.symm.trans hrun'

/-- All fields of the item hold what the row says. -/
def HoldsRow (item : ItemRef) (row : Row) (w : World) : Prop :=
  ∀ name ∈ item.schema.names, w.slot? item name = some (.resolved (Document.valueIn row name))

/-- Without deferred fields, a row always becomes an item that holds it. -/
theorem exists_wrap_run (hdeferred : source.deferred = [])
    (hnames : ∀ name ∈ row.names, name ∈ source.ref.schema.names) (w : World) :
    ∃ item w', (source.wrap row).run w = (.ok item, w') ∧ item.source = source.ref ∧
      HoldsRow item row w' := by
  have hloaders : source.loadersFor row = [] := by rw [loadersFor, hdeferred, List.filter_nil]
  have hrow : (row.names.find? fun name => !source.ref.schema.contains name) = none := by
    apply List.find?_eq_none.2
    intro name hname
    obtain ⟨property, hproperty, hsame⟩ := List.mem_map.1 (hnames name hname)
    have hcontains : source.ref.schema.contains name = true :=
      List.any_eq_true.2 ⟨property, hproperty, by simp [hsame]⟩
    simp [hcontains]
  have hrun : ∃ item w', (source.wrap row).run w = (.ok item, w') := by
    rw [wrap, Item.create, hloaders]
    simp only [hrow]
    exact ⟨_, _, rfl⟩
  obtain ⟨item, w', hrun⟩ := hrun
  have hcreated : (Item.create source.ref row (source.loadersFor row ++ [])).run w =
      (.ok item, w') := by
    rw [List.append_nil]
    exact hrun
  obtain ⟨hsource, hcell⟩ := create_run hcreated
  refine ⟨item, w', hrun, hsource, ?_⟩
  intro name hname
  have hfirst : source.firstSlot row [] name = .resolved (Document.valueIn row name) := by
    rw [firstSlot, Document.valueIn, hdeferred]
    cases row.get? name with
    | none => rfl
    | some v => rfl
  rw [ItemRef.schema, hsource] at hname
  rw [World.slot?, hcell, ← hfirst]
  apply Fields.get?_eq_some_of_mem
  · have hnodup : source.ref.schema.names.Nodup := source.ref.schema.distinct
    simpa [Fields.names, Function.comp_def] using hnodup
  · exact List.mem_map_of_mem (f := fun name => (name, source.firstSlot row [] name)) hname

theorem wrap_extends {w' : World} (h : (source.wrap row).run w = (.ok item, w')) :
    w.Extends w' ∧ w'.stores = w.stores := by
  rw [wrap, Item.create] at h
  split at h
  · cases h
  · split at h
    · cases h
    · rw [EvalM.run_bind_ok (EvalM.run_get w)] at h
      cases h
      refine ⟨⟨fun i cell hcell => ?_, fun _ => rfl⟩, rfl⟩
      have hlt := (Array.getElem?_eq_some_iff.1 hcell).1
      simp only [Array.getElem?_push_lt hlt]
      rwa [Array.getElem?_eq_getElem hlt] at hcell

theorem HoldsRow.mono {w' : World} (h : HoldsRow item row w) (hw : w.Extends w') :
    HoldsRow item row w' := by
  intro name hname
  have hslot := h name hname
  rw [World.slot?] at hslot ⊢
  obtain ⟨cell, hcell, hslot⟩ := Option.bind_eq_some_iff.1 hslot
  rw [hw.cell? hcell]
  exact hslot

/-- The items of some rows hold these rows, in their order. -/
theorem collect_itemsOf {rows : List Row} (hdeferred : source.deferred = [])
    (hnames : ∀ row ∈ rows, ∀ name ∈ row.names, name ∈ source.ref.schema.names) (w : World) :
    ∃ items w', (source.itemsOf rows).collect.run w = (.ok (items.map .item), w') ∧
      w'.stores = w.stores ∧
      List.Forall₂ (fun item row => item.source = source.ref ∧ HoldsRow item row w') items rows := by
  have hfold (found : List Value) : ∃ items w',
      (Sequence.foldOf (fun found v => pure (v :: found))
        (rows.map fun row => do return .item (← source.wrap row)) [] found).run w =
          (.ok ((items.map Value.item).reverse ++ found), w') ∧
      w.Extends w' ∧ w'.stores = w.stores ∧
      List.Forall₂ (fun item row => item.source = source.ref ∧ HoldsRow item row w') items rows := by
    induction rows generalizing w found with
    | nil => exact ⟨[], w, rfl, .refl w, rfl, .nil⟩
    | cons row rest ih =>
        obtain ⟨hrow, hrest⟩ := List.forall_mem_cons.1 hnames
        obtain ⟨item, w₁, hwrap, hsource, hholds⟩ := exists_wrap_run hdeferred hrow w
        obtain ⟨hextends, hstores⟩ := wrap_extends hwrap
        obtain ⟨items, w', hrun, hextends', hstores', hitems⟩ := ih hrest w₁ (.item item :: found)
        have hattempt : (EvalM.attempt (do return Value.item (← source.wrap row))).run w =
            (.ok (.ok (.item item)), w₁) :=
          EvalM.run_attempt_ok (EvalM.run_bind_ok hwrap _)
        refine ⟨item :: items, w', ?_, hextends.trans hextends', hstores'.trans hstores,
          .cons ⟨hsource, hholds.mono hextends'⟩ hitems⟩
        rw [List.map_cons, Sequence.foldOf]
        simp only [Sequence.isSpent, List.any_nil, Bool.false_eq_true, if_false]
        rw [EvalM.run_bind_ok hattempt]
        simpa [Stage.pushAll] using hrun
  obtain ⟨items, w', hrun, -, hstores, hitems⟩ := hfold []
  refine ⟨items, w', ?_, hstores, hitems⟩
  have hcollect : (source.itemsOf rows).collect = (do
      return (← Sequence.foldOf (fun found v => pure (v :: found))
        (rows.map fun row => do return .item (← source.wrap row)) [] []).reverse) := rfl
  rw [hcollect, EvalM.run_bind_ok hrun]
  simp

theorem readAll_run {access : ItemAccess EvalM} (haccess : access.IsOpen) {names : List String}
    {values : String → Value}
    (h : ∀ name ∈ names, w.slot? item name = some (.resolved (values name))) :
    (Item.readAll access.field item names).run w =
      (.ok (names.map fun name => (name, values name)), w) := by
  induction names with
  | nil => rfl
  | cons name rest ih =>
      obtain ⟨hname, hrest⟩ := List.forall_mem_cons.1 h
      rw [Item.readAll, EvalM.run_bind_ok (haccess.field_resolved hname),
        EvalM.run_bind_ok (ih hrest)]
      rfl

end Source

end RecordAlgebra
