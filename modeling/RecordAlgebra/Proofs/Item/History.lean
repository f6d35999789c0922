import RecordAlgebra.Proofs.Item.Keeping

/-!
# How fields came to be what they are

What happened to a field since some state explains what it holds now. A field that waits
goes on waiting until it is assigned or its loader has started and ended, and a field that
has a value changes only when it is assigned. Every action on items leads from a state to
one that follows it, and so does every part of a load.
-/

namespace RecordAlgebra

namespace ItemEvent

/-- Whether this is the start of the loader of the field. -/
def loads (cell : Nat) (name : String) : ItemEvent → Bool
  | .loading c n => c == cell && n == name
  | .assigned _ _ _ => false

/-- Whether the field is assigned. -/
def assigns (cell : Nat) (name : String) : ItemEvent → Bool
  | .loading _ _ => false
  | .assigned c n _ => c == cell && n == name

end ItemEvent

/-- What a field that was in one slot may hold after these events, the latest of which comes
first. -/
inductive SlotHistory (cell : Nat) (name : String) (first : Slot) : List ItemEvent → Slot → Prop
  | first : SlotHistory cell name first [] first
  | other {events : List ItemEvent} {slot : Slot} {event : ItemEvent}
      (h : SlotHistory cell name first events slot) (hloads : event.loads cell name = false)
      (hassigns : event.assigns cell name = false) :
      SlotHistory cell name first (event :: events) slot
  | assigned {events : List ItemEvent} {slot : Slot} (h : SlotHistory cell name first events slot)
      (v : Value) : SlotHistory cell name first (.assigned cell name v :: events) (.resolved v)
  | loading {events : List ItemEvent} {loader : Loader}
      (h : SlotHistory cell name first events (.deferred loader)) :
      SlotHistory cell name first (.loading cell name :: events) (.deferred loader)
  | loaded {events : List ItemEvent} {loader : Loader}
      (h : SlotHistory cell name first events (.deferred loader))
      (hloading : ∃ event ∈ events, event.loads cell name) (v : Value) :
      SlotHistory cell name first events (.resolved v)

namespace SlotHistory

variable {cell : Nat} {name : String} {first slot : Slot} {events newer : List ItemEvent}

theorem trans {last : Slot} (h : SlotHistory cell name first events slot)
    (hlast : SlotHistory cell name slot newer last) :
    SlotHistory cell name first (newer ++ events) last := by
  induction hlast with
  | first => exact h
  | other _ hloads hassigns ih => exact .other ih hloads hassigns
  | assigned _ v ih => exact .assigned ih v
  | loading _ ih => exact .loading ih
  | loaded _ hloading v ih =>
      obtain ⟨event, hevent, hloads⟩ := hloading
      exact .loaded ih ⟨event, List.mem_append_left _ hevent, hloads⟩ v

/-- What nothing happens to stays. -/
theorem eq_of_untouched (h : SlotHistory cell name first events slot)
    (hloads : ∀ event ∈ events, event.loads cell name = false)
    (hassigns : ∀ event ∈ events, event.assigns cell name = false) : slot = first := by
  induction h with
  | first => rfl
  | other _ _ _ ih =>
      exact ih (List.forall_mem_cons.1 hloads).2 (List.forall_mem_cons.1 hassigns).2
  | assigned _ _ _ =>
      have hnot := (List.forall_mem_cons.1 hassigns).1
      simp [ItemEvent.assigns] at hnot
  | loading _ _ =>
      have hnot := (List.forall_mem_cons.1 hloads).1
      simp [ItemEvent.loads] at hnot
  | loaded _ hloading _ _ =>
      obtain ⟨event, hevent, hyes⟩ := hloading
      rw [hloads event hevent] at hyes
      cases hyes

/-- Once a field has a value it goes on having one, and its loader does not start. -/
theorem of_resolved {v : Value} (h : SlotHistory cell name (.resolved v) events slot) :
    (∃ u, slot = .resolved u) ∧ ∀ event ∈ events, event.loads cell name = false := by
  induction h with
  | first => exact ⟨⟨v, rfl⟩, nofun⟩
  | other _ hloads _ ih => exact ⟨ih.1, List.forall_mem_cons.2 ⟨hloads, ih.2⟩⟩
  | assigned _ u ih => exact ⟨⟨u, rfl⟩, List.forall_mem_cons.2 ⟨rfl, ih.2⟩⟩
  | loading _ ih =>
      obtain ⟨u, hu⟩ := ih.1
      cases hu
  | loaded _ _ _ ih =>
      obtain ⟨u, hu⟩ := ih.1
      cases hu

/-- And it keeps its value unless it is assigned. -/
theorem eq_of_unassigned {v : Value} (h : SlotHistory cell name (.resolved v) events slot)
    (hassigns : ∀ event ∈ events, event.assigns cell name = false) : slot = .resolved v :=
  h.eq_of_untouched h.of_resolved.2 hassigns

/-- A field holds what was assigned last, whatever happened before, and its loader does not
start any more. -/
theorem of_assigned {older : List ItemEvent} {v : Value}
    (h : SlotHistory cell name first events slot)
    (hevents : events = newer ++ .assigned cell name v :: older)
    (hassigns : ∀ event ∈ newer, event.assigns cell name = false) :
    slot = .resolved v ∧ ∀ event ∈ newer, event.loads cell name = false := by
  induction h generalizing newer with
  | first => simp at hevents
  | other _ hloads hnot ih =>
      cases newer with
      | nil =>
          obtain ⟨rfl, -⟩ := List.cons.inj hevents
          simp [ItemEvent.assigns] at hnot
      | cons event newer =>
          obtain ⟨rfl, hrest⟩ := List.cons.inj hevents
          have hrest := ih hrest (List.forall_mem_cons.1 hassigns).2
          exact ⟨hrest.1, List.forall_mem_cons.2 ⟨hloads, hrest.2⟩⟩
  | assigned _ u _ =>
      cases newer with
      | nil =>
          obtain ⟨hsame, -⟩ := List.cons.inj hevents
          cases hsame
          exact ⟨rfl, nofun⟩
      | cons event newer =>
          obtain ⟨rfl, -⟩ := List.cons.inj hevents
          have hnot := (List.forall_mem_cons.1 hassigns).1
          simp [ItemEvent.assigns] at hnot
  | loading _ ih =>
      cases newer with
      | nil => cases (List.cons.inj hevents).1
      | cons event newer =>
          have hrest := ih (List.cons.inj hevents).2 (List.forall_mem_cons.1 hassigns).2
          cases hrest.1
  | loaded _ _ _ ih => cases (ih hevents hassigns).1

end SlotHistory

/-- The one state comes after the other one, and these are the events between them. -/
structure World.Follows (start : World) (events : List ItemEvent) (w : World) : Prop where
  history : w.history = events ++ start.history
  cell : ∀ ref cell, start.cell? ref = some cell → ∃ cell', w.cell? ref = some cell' ∧
    cell'.source = cell.source ∧ cell'.slots.names = cell.slots.names
  slot : ∀ ref name slot, start.slot? ref name = some slot → ∃ slot', w.slot? ref name = some slot' ∧
    SlotHistory ref.cell name slot events slot'

namespace World

variable {start w w' : World} {events newer : List ItemEvent} {ref : ItemRef} {name : String}

theorem Follows.refl (w : World) : w.Follows [] w where
  history := rfl
  cell _ cell hcell := ⟨cell, hcell, rfl, rfl⟩
  slot _ _ slot hslot := ⟨slot, hslot, .first⟩

theorem Follows.trans (h : start.Follows events w) (h' : w.Follows newer w') :
    start.Follows (newer ++ events) w' where
  history := by rw [h'.history, h.history, List.append_assoc]
  cell ref cell hcell := by
    obtain ⟨middle, hmiddle, hsource, hnames⟩ := h.cell ref cell hcell
    obtain ⟨last, hlast, hsource', hnames'⟩ := h'.cell ref middle hmiddle
    exact ⟨last, hlast, hsource'.trans hsource, hnames'.trans hnames⟩
  slot ref name slot hslot := by
    obtain ⟨middle, hmiddle, hfirst⟩ := h.slot ref name slot hslot
    obtain ⟨last, hlast, hsecond⟩ := h'.slot ref name middle hmiddle
    exact ⟨last, hlast, hfirst.trans hsecond⟩

/-- The events are determined by the two states. -/
theorem Follows.events_eq (h : start.Follows events w) (hhistory : w.history = newer ++ start.history) :
    newer = events :=
  List.append_cancel_right (hhistory.symm.trans h.history)

/-- Nothing happens to items. -/
theorem follows_of_same (hcells : w.cells = start.cells) (hhistory : w.history = start.history) :
    start.Follows [] w where
  history := hhistory
  cell _ cell hcell := ⟨cell, by rw [cell?, hcells]; exact hcell, rfl, rfl⟩
  slot _ _ slot hslot := by
    refine ⟨slot, ?_, .first⟩
    rw [slot?, cell?, hcells]
    exact hslot

theorem names_setSlot {slot old : Slot} {cell : Cell} (hcell : w.cell? ref = some cell)
    (hslot : w.slot? ref name = some old) :
    (cell.slots.insert name slot).names = cell.slots.names := by
  rw [slot?, hcell, Option.bind_some] at hslot
  exact Fields.names_insert_of_mem slot (Fields.mem_names_of_get? hslot)

theorem cell?_setSlot (w : World) (ref other : ItemRef) (name : String) (slot : Slot) :
    (w.setSlot ref name slot).cell? other =
      if ref.cell = other.cell then
        (w.cell? other).map fun cell => { cell with slots := cell.slots.insert name slot }
      else w.cell? other := by
  simp only [cell?, setSlot, Array.getElem?_modify]

theorem slot?_setSlot_of_ne {other : ItemRef} {field : String} (slot : Slot)
    (h : ref.cell = other.cell → field ≠ name) :
    (w.setSlot ref name slot).slot? other field = w.slot? other field := by
  rw [slot?, cell?_setSlot, slot?]
  split
  · next hcell =>
      rw [Option.bind_map]
      congr 1
      funext cell
      exact Fields.get?_insert_of_ne (h hcell) slot cell.slots
  · rfl

theorem slot?_setSlot_self {old : Slot} (slot : Slot) (h : w.slot? ref name = some old) :
    (w.setSlot ref name slot).slot? ref name = some slot := by
  rw [slot?, Option.bind_eq_some_iff] at h
  obtain ⟨cell, hcell, -⟩ := h
  rw [slot?, cell?_setSlot, if_pos rfl, hcell]
  exact Fields.get?_insert_self name slot cell.slots

/-- A field gets another slot, and the events explain that. -/
theorem Follows.setSlot {old slot : Slot} (h : start.Follows events w) (hcells : w'.cells = w.cells)
    (hhistory : w'.history = newer ++ start.history) (hslot : w.slot? ref name = some old)
    (hself : ∀ first, SlotHistory ref.cell name first events old →
      SlotHistory ref.cell name first newer slot)
    (hothers : ∀ cell field first kept, (ref.cell = cell → field ≠ name) →
      SlotHistory cell field first events kept → SlotHistory cell field first newer kept) :
    start.Follows newer (w'.setSlot ref name slot) where
  history := hhistory
  cell other cell hcell := by
    obtain ⟨middle, hmiddle, hsource, hnames⟩ := h.cell other cell hcell
    have hmiddle' : w'.cell? other = some middle := by rw [cell?, hcells]; exact hmiddle
    rw [cell?_setSlot, hmiddle']
    split
    · next hsame =>
        have hself : w.cell? ref = some middle := by rw [cell?, hsame]; exact hmiddle
        exact ⟨_, rfl, hsource, (names_setSlot hself hslot).trans hnames⟩
    · exact ⟨middle, rfl, hsource, hnames⟩
  slot other field first hfirst := by
    obtain ⟨middle, hmiddle, hmiddlehistory⟩ := h.slot other field first hfirst
    by_cases hsame : ref.cell = other.cell ∧ field = name
    · obtain ⟨hcell, rfl⟩ := hsame
      have hmiddle_eq : middle = old := by
        rw [slot?, cell?, ← hcell] at hmiddle
        exact Option.some.inj (hmiddle.symm.trans hslot)
      have hset : (w'.setSlot ref field slot).slot? other field = some slot := by
        rw [slot?, cell?, ← hcell]
        have hold : w'.slot? ref field = some old := by
          rw [slot?, cell?, hcells]
          exact hslot
        exact slot?_setSlot_self slot hold
      rw [← hcell, hmiddle_eq] at hmiddlehistory
      rw [← hcell]
      exact ⟨slot, hset, hself first hmiddlehistory⟩
    · have hne : ref.cell = other.cell → field ≠ name := fun hcell hname => hsame ⟨hcell, hname⟩
      rw [slot?_setSlot_of_ne slot hne, slot?, cell?, hcells]
      exact ⟨middle, hmiddle, hothers _ _ first middle hne hmiddlehistory⟩

theorem follows_assignSlot {slot : Slot} (hslot : w.slot? ref name = some slot) (v : Value) :
    w.Follows [.assigned ref.cell name v] (w.assignSlot ref name v) := by
  refine (Follows.refl w).setSlot rfl rfl hslot (fun _ h => .assigned h v) ?_
  intro cell field _ _ hne h
  refine .other h rfl ?_
  simp only [ItemEvent.assigns, Bool.and_eq_false_imp, beq_iff_eq, beq_eq_false_iff_ne]
  exact fun hcell hname => hne hcell hname.symm

/-- A field that waited has been loaded since its loader started. -/
theorem Follows.loaded {loader : Loader} (h : start.Follows events w)
    (hslot : w.slot? ref name = some (.deferred loader))
    (hloading : ∃ event ∈ events, event.loads ref.cell name) (v : Value) :
    start.Follows events (w.setSlot ref name (.resolved v)) :=
  h.setSlot rfl h.history hslot (fun _ hold => .loaded hold hloading v) fun _ _ _ _ _ hold => hold

theorem follows_startLoading {loader : Loader} (hslot : w.slot? ref name = some (.deferred loader)) :
    w.Follows [.loading ref.cell name] (w.startLoading ref name) where
  history := rfl
  cell _ cell hcell := ⟨cell, hcell, rfl, rfl⟩
  slot other field slot hother := by
    refine ⟨slot, hother, ?_⟩
    by_cases hsame : ref.cell = other.cell ∧ field = name
    · obtain ⟨hcell, rfl⟩ := hsame
      rw [slot?, cell?, ← hcell] at hother
      cases Option.some.inj (hother.symm.trans hslot)
      rw [hcell]
      exact .loading .first
    · refine .other .first ?_ rfl
      simp only [ItemEvent.loads, Bool.and_eq_false_imp, beq_iff_eq, beq_eq_false_iff_ne]
      exact fun hcell hname => hsame ⟨hcell, hname.symm⟩

end World

/-- States that follow the one with which an action started. -/
def Allowance.since (start : World) : Allowance where
  holds _ w := ∃ events, start.Follows events w
  stuck w := ∃ events, start.Follows events w
  error _ := True
  holds_of_succ _ _ h := h
  stuck_of_holds _ h := h

/-- Items change in steps that events explain. What happens while a field is loaded comes
after the start of its loader. -/
theorem Allowance.keptByItems_since : Allowance.KeptByItems Allowance.since where
  counted h id := by
    obtain ⟨events, h⟩ := h
    exact ⟨_, h.trans (World.follows_of_same rfl rfl)⟩
  assigned h hslot v := by
    obtain ⟨events, h⟩ := h
    exact ⟨_, h.trans (World.follows_assignSlot hslot v)⟩
  loading {start k w ref name loader} h hslot := by
    obtain ⟨events, h⟩ := h
    have hstarted := h.trans (World.follows_startLoading hslot)
    have hwithin (w' : World) (h' : ∃ events, (w.startLoading ref name).Follows events w') :
        ∃ events, start.Follows events w' := by
      obtain ⟨nested, hnested⟩ := h'
      exact ⟨_, hstarted.trans hnested⟩
    refine ⟨w.startLoading ref name, 0, ⟨[], .refl _⟩, ⟨hwithin, hwithin, fun _ h => h⟩, ?_⟩
    rintro w' current v ⟨nested, hnested⟩ hcurrent
    refine ⟨_, (hstarted.trans hnested).loaded hcurrent ⟨.loading ref.cell name, ?_, ?_⟩ v⟩
    · simp
    · simp [ItemEvent.loads]

theorem Allowance.since_admitsFailures (start : World) : (since start).AdmitsFailures :=
  fun _ _ => trivial

/-- Whatever is done with items leads to states that follow. -/
theorem ItemAccess.live_follows (start : World) : live.Keeps (.since start) :=
  live_keeps Allowance.keptByItems_since Allowance.since_admitsFailures start

theorem ItemAccess.atLevel_follows (level : Nat) (start : World) :
    (atLevel level).Keeps (.since start) :=
  atLevel_keeps Allowance.keptByItems_since Allowance.since_admitsFailures level start

end RecordAlgebra
