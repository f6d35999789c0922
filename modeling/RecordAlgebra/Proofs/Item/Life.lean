import RecordAlgebra.Proofs.Item.History
import RecordAlgebra.Source.Basic

/-!
# The life of an item

An item starts with the fields of its schema. Whatever is done with items from then on,
it goes on having exactly these. A field that was read or assigned has its value until it
is assigned again, and its loader does not start any more. What fails changes nothing on
its own.
-/

namespace RecordAlgebra

/-- What can be done with an item. -/
inductive ItemOperation where
  | get (name : String)
  | set (name : String) (v : Value)
  | remove (name : String)
  | contains (name : String)
  | isLoaded (name : String)
  | values
  | identity
  | display

/-- Performs an operation. What it gives is left out here. -/
def ItemOperation.perform (access : ItemAccess EvalM) (ref : ItemRef) : ItemOperation → EvalM Unit
  | .get name => do let _ ← access.field ref name
  | .set name v => Item.assign ref name v
  | .remove name => Item.remove ref name
  | .contains name => do let _ := Item.contains ref name
  | .isLoaded name => do let _ ← Item.isLoaded ref name
  | .values => do let _ ← access.entries ref
  | .identity => do let _ ← Item.identity? access.field ref
  | .display => do let _ := (← access.view) ref

/-- Access as programs have it, or as loaders have it inside of one another. -/
def ItemAccess.IsOpen (access : ItemAccess EvalM) : Prop :=
  access = live ∨ ∃ level, access = atLevel (level + 1)

/-- What is done with items leads from the one state to the other one, which may also be a
state in the middle of a load. -/
inductive World.LeadsTo (start : World) : World → Prop
  | start : LeadsTo start start
  | operation {w : World} {access : ItemAccess EvalM} (h : LeadsTo start w) (haccess : access.IsOpen)
      (ref : ItemRef) (operation : ItemOperation) :
      LeadsTo start ((operation.perform access ref).run w).2
  | loading {w : World} {ref : ItemRef} {name : String} {loader : Loader} (h : LeadsTo start w)
      (hslot : w.slot? ref name = some (.deferred loader)) : LeadsTo start (w.startLoading ref name)
  | aside {w w' : World} (h : LeadsTo start w) (hcells : w'.cells = w.cells)
      (hhistory : w'.history = w.history) : LeadsTo start w'

theorem ItemAccess.IsOpen.follows {access : ItemAccess EvalM} (h : access.IsOpen) (start : World) :
    access.Keeps (.since start) := by
  rcases h with rfl | ⟨level, rfl⟩
  · exact live_follows start
  · exact atLevel_follows (level + 1) start

theorem ItemOperation.perform_spends {access : ItemAccess EvalM} (h : access.IsOpen) (start : World)
    (ref : ItemRef) (operation : ItemOperation) :
    Spends (.since start) 0 (fun _ => True) (operation.perform access ref) := by
  have hkeeps := h.follows start
  cases operation with
  | get name => exact (hkeeps.field ref name).map fun _ _ => trivial
  | set name v =>
      exact Item.assign_spends Allowance.keptByItems_since Allowance.since_admitsFailures start ref name v
  | remove name => exact .raise trivial
  | contains name => exact .pure trivial
  | isLoaded name =>
      have hget : Spends (.since start) 0 (fun _ => True) (Item.isLoaded ref name) := by
        refine .get fun w => ?_
        split <;> exact .pure trivial
      exact hget.map fun _ _ => trivial
  | values => exact (hkeeps.entries ref).map fun _ _ => trivial
  | identity => exact (Item.identity?_spends hkeeps.field ref).map fun _ _ => trivial
  | display =>
      show Spends _ 0 _ (access.view >>= _)
      rw [hkeeps.view]
      exact .view fun _ => .pure trivial

/-- Whatever an action that keeps the past ends with, the state that it leads to follows. -/
theorem Spends.follows {α : Type} {P : α → Prop} {m : EvalM α} {w : World}
    (h : Spends (.since w) 0 P m) : ∃ events, w.Follows events (m.run w).2 := by
  have hends := h 0 w ⟨[], .refl w⟩
  rcases hrun : m.run w with ⟨(e | _) | a, w'⟩ <;> rw [hrun] at hends
  · exact hends.1
  · exact hends
  · exact hends.1

theorem World.LeadsTo.follows {start w : World} (h : start.LeadsTo w) :
    ∃ events, start.Follows events w := by
  induction h with
  | start => exact ⟨[], .refl start⟩
  | @operation w access _ haccess ref operation ih =>
      obtain ⟨events, hevents⟩ := ih
      obtain ⟨newer, hnewer⟩ := (operation.perform_spends haccess w ref).follows
      exact ⟨newer ++ events, hevents.trans hnewer⟩
  | loading _ hslot ih =>
      obtain ⟨events, hevents⟩ := ih
      exact ⟨_, hevents.trans (follows_startLoading hslot)⟩
  | aside _ hcells hhistory ih =>
      obtain ⟨events, hevents⟩ := ih
      exact ⟨_, hevents.trans (follows_of_same hcells hhistory)⟩

/-- What a load leaves behind if it gave this value: a field that still waits gets it. -/
def World.finishLoading (w : World) (ref : ItemRef) (name : String) (loader : Loader) (v : Value) :
    World :=
  match w.slot? ref name with
  | some (.deferred current) => if current.id = loader.id then w.setSlot ref name (.resolved v) else w
  | _ => w

section Field

variable {access : ItemAccess EvalM} {ref : ItemRef} {name : String} {w : World}

/-- Every access to fields is a read that runs loaders in one way or another, and that keeps
the past. -/
theorem ItemAccess.IsOpen.exists_run (h : access.IsOpen) (w : World) :
    ∃ run : Loader → ItemRef → EvalM Value,
      (∀ start loader ref, Spends (.since start) 0 (fun _ => True) (run loader ref)) ∧
        ∀ ref name, (access.field ref name).run w = (Item.read run ref name).run w := by
  have atSome (level : Nat) (start : World) :=
    Item.load_spends Allowance.keptByItems_since Allowance.since_admitsFailures start
      (atLevel_follows level start)
  rcases h with rfl | ⟨level, rfl⟩
  · refine ⟨_, atSome ((w.deferredCount + 1) * (w.cells.size + 1)), fun ref name => ?_⟩
    rw [live, EvalM.run_bind_ok (EvalM.run_get w), levelFor, atLevel]
  · exact ⟨_, atSome level, fun _ _ => rfl⟩

theorem ItemAccess.IsOpen.field_missing (h : access.IsOpen) (hslot : w.slot? ref name = none) :
    ∃ e, (access.field ref name).run w = (.error (.raised e), w) := by
  obtain ⟨run, -, hrun⟩ := h.exists_run w
  rw [hrun, Item.read, EvalM.run_bind_ok (EvalM.run_get w), hslot]
  exact ⟨_, rfl⟩

theorem ItemAccess.IsOpen.field_resolved (h : access.IsOpen) {v : Value}
    (hslot : w.slot? ref name = some (.resolved v)) :
    (access.field ref name).run w = (.ok v, w) := by
  obtain ⟨run, -, hrun⟩ := h.exists_run w
  rw [hrun, Item.read, EvalM.run_bind_ok (EvalM.run_get w), hslot]
  rfl

/-- A field that waits is loaded. What happens meanwhile comes after the start of its loader. -/
theorem ItemAccess.IsOpen.field_deferred (h : access.IsOpen) {loader : Loader}
    (hslot : w.slot? ref name = some (.deferred loader)) :
    ∃ nested w', (w.startLoading ref name).Follows nested w' ∧
      ((∃ stop, (access.field ref name).run w = (.error stop, w')) ∨
        ∃ v, (access.field ref name).run w = (.ok v, w'.finishLoading ref name loader v)) := by
  obtain ⟨run, hruns, hrun⟩ := h.exists_run w
  obtain ⟨nested, hnested⟩ := (hruns (w.startLoading ref name) loader ref).follows
  have hrecord : (Item.record (.loading ref.cell name)).run w = (.ok (), w.startLoading ref name) :=
    rfl
  rw [hrun, Item.read, EvalM.run_bind_ok (EvalM.run_get w), hslot]
  simp only
  rw [EvalM.run_bind_ok hrecord, EvalM.run_bind]
  refine ⟨nested, _, hnested, ?_⟩
  rcases hload : (run loader ref).run (w.startLoading ref name) with ⟨stop | v, w'⟩
  · exact .inl ⟨stop, rfl⟩
  · refine .inr ⟨v, ?_⟩
    simp only
    rw [EvalM.run_bind_ok (EvalM.run_get w'), World.finishLoading]
    cases hslot' : w'.slot? ref name with
    | none => rfl
    | some slot =>
        cases slot with
        | resolved _ => rfl
        | deferred current =>
            simp only
            split
            · rfl
            · rfl

end Field

/-- Whatever is done from now on, the loader of the field does not start, and until it is
assigned reading it gives this value and does nothing else. -/
def World.Settled (w : World) (ref : ItemRef) (name : String) (v : Value) : Prop :=
  ∀ w', w.LeadsTo w' → ∃ events, w'.history = events ++ w.history ∧
    (∀ event ∈ events, event.loads ref.cell name = false) ∧
    ((∀ event ∈ events, event.assigns ref.cell name = false) →
      ∀ access : ItemAccess EvalM, access.IsOpen → (access.field ref name).run w' = (.ok v, w'))

theorem World.settled_of_resolved {w : World} {ref : ItemRef} {name : String} {v : Value}
    (hslot : w.slot? ref name = some (.resolved v)) : w.Settled ref name v := by
  intro w' hw'
  obtain ⟨events, hfollows⟩ := hw'.follows
  obtain ⟨slot, hslot', hhistory⟩ := hfollows.slot ref name _ hslot
  refine ⟨events, hfollows.history, hhistory.of_resolved.2, ?_⟩
  intro hassigns access haccess
  rw [hhistory.eq_of_unassigned hassigns] at hslot'
  exact haccess.field_resolved hslot'

/-- What a field of an item is bound to from some state on. -/
structure ItemRef.FieldBehaves (ref : ItemRef) (name : String) (w : World) : Prop where
  /-- A value that was read stays, unless the field was assigned during its load. The load
  must not have come round to the same field. -/
  get (access : ItemAccess EvalM) (v : Value) (w' : World) (events : List ItemEvent) :
    access.IsOpen → (access.field ref name).run w = (.ok v, w') → w'.history = events ++ w.history →
    (∀ event ∈ events, event.assigns ref.cell name = false) →
    events.countP (ItemEvent.loads ref.cell name) ≤ 1 → w'.Settled ref name v
  /-- A field of the schema can be assigned, and then it has this value. -/
  set (v : Value) : name ∈ ref.schema.names →
    ∃ w', (Item.assign ref name v).run w = (.ok (), w') ∧ w'.Settled ref name v
  /-- Of whatever happened, even in the middle of a load, the last assignment counts, and the
  loader has not started since. -/
  setMeanwhile (v : Value) (w' : World) (newer older : List ItemEvent) :
    name ∈ ref.schema.names → w.LeadsTo w' →
    w'.history = newer ++ .assigned ref.cell name v :: (older ++ w.history) →
    (∀ event ∈ newer, event.assigns ref.cell name = false) →
    (∀ event ∈ newer, event.loads ref.cell name = false) ∧ w'.Settled ref name v
  /-- If reading fails, fields that were neither loaded nor assigned are what they were, and
  the field itself goes on waiting if it was not assigned. Without a loader nothing happens. -/
  getFailed (access : ItemAccess EvalM) (stop : Stop) (w' : World) :
    access.IsOpen → (access.field ref name).run w = (.error stop, w') →
    ∃ events, w'.history = events ++ w.history ∧
      (∀ (other : ItemRef) field slot, w.slot? other field = some slot →
        (∀ event ∈ events, event.loads other.cell field = false) →
        (∀ event ∈ events, event.assigns other.cell field = false) →
        w'.slot? other field = some slot) ∧
      (∀ loader, w.slot? ref name = some (.deferred loader) →
        (∀ event ∈ events, event.assigns ref.cell name = false) →
        events.countP (ItemEvent.loads ref.cell name) ≤ 1 →
        w'.slot? ref name = some (.deferred loader)) ∧
      ((∀ loader, w.slot? ref name ≠ some (.deferred loader)) → w' = w)
  setFailed (v : Value) (stop : Stop) (w' : World) :
    (Item.assign ref name v).run w = (.error stop, w') → w' = w
  removeFailed : ∃ e, (Item.remove ref name).run w = (.error (.raised e), w)

section Behaves

variable {access : ItemAccess EvalM} {ref : ItemRef} {name : String} {w w' : World}

/-- What happened during a load that came round to its own field no more than this once. -/
theorem World.loads_eq_false_of_countP {nested : List ItemEvent}
    (h : (nested ++ [ItemEvent.loading ref.cell name]).countP (ItemEvent.loads ref.cell name) ≤ 1) :
    ∀ event ∈ nested, event.loads ref.cell name = false := by
  have hself : ItemEvent.loads ref.cell name (.loading ref.cell name) = true := by
    simp [ItemEvent.loads]
  have hnone : nested.countP (ItemEvent.loads ref.cell name) = 0 := by
    rw [List.countP_append, List.countP_singleton, if_pos hself] at h
    omega
  intro event hevent
  have hnot := List.countP_eq_zero.1 hnone event hevent
  simpa using hnot

theorem World.history_finishLoading (w : World) (ref : ItemRef) (name : String) (loader : Loader)
    (v : Value) : (w.finishLoading ref name loader v).history = w.history := by
  rw [finishLoading]
  split
  · split
    · rfl
    · rfl
  · rfl

/-- Since the loader started, nothing has happened that would end the waiting. -/
theorem World.Follows.still_deferred {loader : Loader} {nested events : List ItemEvent}
    (h : (w.startLoading ref name).Follows nested w')
    (hslot : w.slot? ref name = some (.deferred loader))
    (hevents : events = nested ++ [.loading ref.cell name])
    (hassigns : ∀ event ∈ events, event.assigns ref.cell name = false)
    (hloads : events.countP (ItemEvent.loads ref.cell name) ≤ 1) :
    w'.slot? ref name = some (.deferred loader) := by
  obtain ⟨slot, hslot', hhistory⟩ := h.slot ref name _ hslot
  rw [hevents] at hassigns hloads
  have hnested : ∀ event ∈ nested, event.assigns ref.cell name = false := fun event hevent =>
    hassigns event (List.mem_append_left _ hevent)
  have hsame := hhistory.eq_of_untouched (loads_eq_false_of_countP hloads) hnested
  rw [hslot', hsame]

theorem ItemAccess.IsOpen.settled_of_field (h : access.IsOpen) {v : Value} {events : List ItemEvent}
    (hrun : (access.field ref name).run w = (.ok v, w'))
    (hhistory : w'.history = events ++ w.history)
    (hassigns : ∀ event ∈ events, event.assigns ref.cell name = false)
    (hloads : events.countP (ItemEvent.loads ref.cell name) ≤ 1) : w'.Settled ref name v := by
  cases hslot : w.slot? ref name with
  | none =>
      obtain ⟨e, hmissing⟩ := h.field_missing hslot
      rw [hmissing] at hrun
      cases hrun
  | some slot =>
      cases slot with
      | resolved u =>
          rw [h.field_resolved hslot] at hrun
          cases hrun
          exact World.settled_of_resolved hslot
      | deferred loader =>
          obtain ⟨nested, w₁, hfollows, ⟨stop, hstop⟩ | ⟨u, hok⟩⟩ := h.field_deferred hslot
          · rw [hstop] at hrun
            cases hrun
          · rw [hok] at hrun
            cases hrun
            rw [World.history_finishLoading, hfollows.history] at hhistory
            have hevents : events = nested ++ [.loading ref.cell name] := by
              refine List.append_cancel_right (hhistory.symm.trans ?_)
              simp [World.startLoading]
            have hstill := hfollows.still_deferred hslot hevents hassigns hloads
            apply World.settled_of_resolved
            rw [World.finishLoading, hstill]
            simp only [if_true]
            exact World.slot?_setSlot_self _ hstill

theorem ItemAccess.IsOpen.field_failed (h : access.IsOpen) {stop : Stop}
    (hrun : (access.field ref name).run w = (.error stop, w')) :
    ∃ events, w.Follows events w' ∧
      (∀ loader, w.slot? ref name = some (.deferred loader) →
        (∀ event ∈ events, event.assigns ref.cell name = false) →
        events.countP (ItemEvent.loads ref.cell name) ≤ 1 →
        w'.slot? ref name = some (.deferred loader)) ∧
      ((∀ loader, w.slot? ref name ≠ some (.deferred loader)) → w' = w) := by
  cases hslot : w.slot? ref name with
  | none =>
      obtain ⟨e, hmissing⟩ := h.field_missing hslot
      rw [hmissing] at hrun
      cases hrun
      exact ⟨[], .refl w, nofun, fun _ => rfl⟩
  | some slot =>
      cases slot with
      | resolved u =>
          rw [h.field_resolved hslot] at hrun
          cases hrun
      | deferred loader =>
          obtain ⟨nested, w₁, hfollows, ⟨stop', hstop⟩ | ⟨u, hok⟩⟩ := h.field_deferred hslot
          · rw [hstop] at hrun
            cases hrun
            refine ⟨_, (World.follows_startLoading hslot).trans hfollows, ?_, ?_⟩
            · intro current hcurrent hassigns hloads
              rw [← hcurrent]
              exact hfollows.still_deferred hslot rfl hassigns hloads
            · intro hnot
              exact (hnot loader rfl).elim
          · rw [hok] at hrun
            cases hrun

theorem Item.assign_run_of_slot {slot : Slot} (hslot : w.slot? ref name = some slot) (v : Value) :
    (Item.assign ref name v).run w = (.ok (), w.assignSlot ref name v) := by
  rw [Item.assign, EvalM.run_bind_ok (EvalM.run_get w), hslot]
  rfl

theorem Item.assign_run_of_none (hslot : w.slot? ref name = none) (v : Value) :
    ∃ e, (Item.assign ref name v).run w = (.error (.raised e), w) := by
  rw [Item.assign, EvalM.run_bind_ok (EvalM.run_get w), hslot]
  exact ⟨_, rfl⟩

/-- The item has exactly the fields of its schema, in this order. -/
def ItemRef.IsWhole (ref : ItemRef) (w : World) : Prop :=
  ∃ cell, w.cell? ref = some cell ∧ cell.source = ref.source ∧ cell.slots.names = ref.schema.names

theorem ItemRef.IsWhole.exists_slot (h : ref.IsWhole w) (hname : name ∈ ref.schema.names) :
    ∃ slot, w.slot? ref name = some slot := by
  obtain ⟨cell, hcell, -, hnames⟩ := h
  rw [← hnames] at hname
  obtain ⟨slot, hslot⟩ := Fields.exists_get?_of_mem_names hname
  refine ⟨slot, ?_⟩
  rw [World.slot?, hcell]
  exact hslot

theorem ItemRef.IsWhole.of_leadsTo (h : ref.IsWhole w) (hw' : w.LeadsTo w') : ref.IsWhole w' := by
  obtain ⟨cell, hcell, hsource, hnames⟩ := h
  obtain ⟨events, hfollows⟩ := hw'.follows
  obtain ⟨cell', hcell', hsource', hnames'⟩ := hfollows.cell ref cell hcell
  exact ⟨cell', hcell', hsource'.trans hsource, hnames'.trans hnames⟩

theorem ItemRef.IsWhole.fieldBehaves (h : ref.IsWhole w) (name : String) :
    ref.FieldBehaves name w where
  get access v w' events haccess := haccess.settled_of_field
  set v hname := by
    obtain ⟨slot, hslot⟩ := h.exists_slot hname
    refine ⟨_, Item.assign_run_of_slot hslot v, World.settled_of_resolved ?_⟩
    exact World.slot?_setSlot_self _ hslot
  setMeanwhile v w' newer older hname hw' hhistory hassigns := by
    obtain ⟨first, hfirst⟩ := h.exists_slot hname
    obtain ⟨events, hfollows⟩ := hw'.follows
    obtain ⟨slot, hslot, hslots⟩ := hfollows.slot ref name first hfirst
    have hevents : newer ++ .assigned ref.cell name v :: older = events := by
      apply hfollows.events_eq
      simpa using hhistory
    obtain ⟨hlast, hloads⟩ := hslots.of_assigned hevents.symm hassigns
    rw [hlast] at hslot
    exact ⟨hloads, World.settled_of_resolved hslot⟩
  getFailed access stop w' haccess hrun := by
    obtain ⟨events, hfollows, hdeferred, hnothing⟩ := haccess.field_failed hrun
    refine ⟨events, hfollows.history, ?_, hdeferred, hnothing⟩
    intro other field slot hslot hloads hassigns
    obtain ⟨slot', hslot', hhistory⟩ := hfollows.slot other field slot hslot
    rw [hslot', hhistory.eq_of_untouched hloads hassigns]
  setFailed v stop w' hrun := by
    cases hslot : w.slot? ref name with
    | none =>
        obtain ⟨e, herror⟩ := Item.assign_run_of_none hslot v
        rw [herror] at hrun
        cases hrun
        rfl
    | some slot =>
        rw [Item.assign_run_of_slot hslot] at hrun
        cases hrun
  removeFailed := ⟨_, rfl⟩

end Behaves

namespace Source

/-- What a field of a new item holds: what the row says, else its loader among those given, else
that of the source, else null. -/
def firstSlot (source : Source) (row : Row) (loaders : List (String × Loader)) (name : String) :
    Slot :=
  match row.get? name, (Fields.ofList loaders).get? name, (Fields.ofList source.deferred).get? name with
  | some v, _, _ => .resolved v
  | none, some loader, _ => .deferred loader
  | none, none, some loader => .deferred loader
  | none, none, none => .resolved .null

variable {source : Source} {row : Row} {loaders : List (String × Loader)} {start w₀ : World}
  {ref : ItemRef}

theorem initialSlots_eq_firstSlot (source : Source) (row : Row) (loaders : List (String × Loader)) :
    Item.initialSlots source.ref.schema row (Fields.ofList (source.loadersFor row ++ loaders)) =
      source.ref.schema.names.map fun name => (name, source.firstSlot row loaders name) := by
  apply List.map_congr_left
  intro name _
  rw [Fields.get?_ofList_append, firstSlot]
  cases hrow : row.get? name with
  | some v => rfl
  | none =>
      have hcontains : row.contains name = false := by
        rw [Fields.contains_eq_isSome_get?, hrow]
        rfl
      have hsource : (Fields.ofList (source.loadersFor row)).get? name =
          (Fields.ofList source.deferred).get? name :=
        Fields.get?_ofList_filter (p := fun name => !row.contains name) (by simp [hcontains]) _
      rw [hsource]
      cases (Fields.ofList loaders).get? name with
      | some loader => rfl
      | none => cases (Fields.ofList source.deferred).get? name <;> rfl

theorem create_run (hcreated : (Item.create source.ref row (source.loadersFor row ++ loaders)).run
      start = (.ok ref, w₀)) :
    ref.source = source.ref ∧ w₀.cell? ref = some
      { source := source.ref
        slots := source.ref.schema.names.map fun name => (name, source.firstSlot row loaders name) } := by
  rw [Item.create] at hcreated
  split at hcreated
  · cases hcreated
  · split at hcreated
    · cases hcreated
    · rw [EvalM.run_bind_ok (EvalM.run_get start)] at hcreated
      cases hcreated
      refine ⟨rfl, ?_⟩
      rw [← initialSlots_eq_firstSlot]
      simp [World.cell?]

end Source

end RecordAlgebra
