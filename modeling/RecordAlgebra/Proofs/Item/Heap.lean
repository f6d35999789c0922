import RecordAlgebra.Item.Access
import RecordAlgebra.Proofs.Typing.Sound

/-!
# Items that fit their schemas

An item fits its schema if its fields do, and a field that waits for a loader does if
everything that the loader assigns fits and its expression has a type that the
property allows. Reading fields of such items at any level keeps this, because a
loader runs at a lower level and its expression is sound there.
-/

namespace RecordAlgebra

/-- What a field of an item holds, or will hold, fits the property. -/
inductive Slot.Fits (known : ItemRef → Prop) (schema : Schema) (name : String) : Slot → Prop
  | resolved {v : Value} : v.FitsProperty known schema name → Fits known schema name (.resolved v)
  | deferred {loader : Loader} {t : DataType} :
      (∀ field ∈ loader.assign, field.2.FitsProperty known schema field.1) →
        Expr.Typed (Expr.sound known []) [.item schema] loader.body t →
          (∀ v : Value, v.Fits known t → v.FitsProperty known schema name) →
            Fits known schema name (.deferred loader)

/-- All fields of known items fit. -/
def World.ItemsFit (known : ItemRef → Prop) (w : World) : Prop :=
  ∀ ref cell, known ref → w.cell? ref = some cell → cell.source = ref.source ∧
    ∀ name slot, cell.slots.get? name = some slot → slot.Fits known ref.schema name

/-- Known items fit, and inputs are as they were. -/
def World.Quiet (known : ItemRef → Prop) (inputs : Array InputState) (w : World) : Prop :=
  w.ItemsFit known ∧ w.inputs = inputs

variable {known : ItemRef → Prop} {w : World} {ref : ItemRef} {name : String}

theorem World.ItemsFit.slot? (h : w.ItemsFit known) (href : known ref) {slot : Slot}
    (hslot : w.slot? ref name = some slot) : slot.Fits known ref.schema name := by
  rw [World.slot?, Option.bind_eq_some_iff] at hslot
  obtain ⟨cell, hcell, hslot⟩ := hslot
  exact (h ref cell href hcell).2 name slot hslot

theorem World.ItemsFit.setSlot (h : w.ItemsFit known) (href : known ref) {slot : Slot}
    (hslot : slot.Fits known ref.schema name) : (w.setSlot ref name slot).ItemsFit known := by
  intro other cell hother hcell
  rw [World.cell?, World.setSlot] at hcell
  simp only [Array.getElem?_modify] at hcell
  split at hcell
  · next hsame =>
      obtain ⟨old, hold, rfl⟩ := Option.map_eq_some_iff.1 hcell
      obtain ⟨hsource, hslots⟩ := h other old hother hold
      have hsource' := (h ref old href (by rw [World.cell?, hsame]; exact hold)).1
      refine ⟨hsource, fun field found hfound => ?_⟩
      by_cases hname : field = name
      · subst hname
        rw [Fields.get?_insert_self] at hfound
        cases hfound
        rw [ItemRef.schema, ← hsource, hsource']
        exact hslot
      · rw [Fields.get?_insert_of_ne hname] at hfound
        exact hslots field found hfound
  · exact h other cell hother hcell

namespace Item

variable {inputs : Array InputState} {I : World → Prop}

theorem setSlot_ensures (href : known ref) {slot : Slot}
    (hslot : slot.Fits known ref.schema name) :
    Ensures (World.Quiet known inputs) (fun _ => True) (setSlot ref name slot) :=
  .modified (fun _ hw => ⟨hw.1.setSlot href hslot, hw.2⟩) trivial

theorem record_ensures (event : ItemEvent) :
    Ensures (World.Quiet known inputs) (fun _ => True) (record event) :=
  .modified (fun _ hw => hw) trivial

theorem assignAll_ensures (href : known ref) {row : Row}
    (hrow : ∀ field ∈ row, field.2.FitsProperty known ref.schema field.1) :
    Ensures (World.Quiet known inputs) (fun _ => True) (assignAll ref row) := by
  induction row with
  | nil => exact .pure trivial
  | cons field rest ih =>
      obtain ⟨name, v⟩ := field
      obtain ⟨hfield, hrest⟩ := List.forall_mem_cons.1 hrow
      refine Ensures.bind (P := fun _ => True) ?_ fun _ _ => ih hrest
      refine .get fun w _ => ?_
      split
      · exact (record_ensures _).bind fun _ _ => setSlot_ensures href (.resolved hfield)
      · exact .raise _

section Read

variable {run : Loader → ItemRef → EvalM Value}
  (runs : ∀ loader ref name, known ref → Slot.Fits known ref.schema name (.deferred loader) →
    Ensures (World.Quiet known inputs) (Value.FitsProperty known ref.schema name) (run loader ref))

include runs

theorem read_ensures (href : known ref) :
    Ensures (World.Quiet known inputs) (Value.FitsProperty known ref.schema name)
      (read run ref name) := by
  refine .get fun w hw => ?_
  split
  · exact .raise _
  · next v hv =>
      cases hw.1.slot? href hv with
      | resolved hfits => exact .pure hfits
  · next loader hloader =>
      refine (record_ensures _).bind fun _ _ => ?_
      refine (runs loader ref name href (hw.1.slot? href hloader)).bind fun v hv => .get fun w' _ => ?_
      split
      · split
        · exact (setSlot_ensures href (.resolved hv)).bind fun _ _ => .pure hv
        · exact .pure hv
      · exact .pure hv

theorem readAll_ensures (href : known ref) (names : List String) :
    Ensures (World.Quiet known inputs) (fun fields => Fields.names fields = names ∧
      ∀ field ∈ fields, Value.FitsProperty known ref.schema field.1 field.2)
      (readAll (read run) ref names) := by
  induction names with
  | nil => exact .pure ⟨rfl, by simp⟩
  | cons name rest ih =>
      refine (read_ensures runs href).bind fun v hv => ih.map fun fields hfields => ?_
      refine ⟨?_, List.forall_mem_cons.2 ⟨hv, hfields.2⟩⟩
      rw [← hfields.1]
      rfl

theorem keyFields_ensures (href : known ref) :
    Ensures (World.Quiet known inputs)
      (fun fields => ∀ field ∈ fields, Value.FitsProperty known ref.schema field.1 field.2)
      (keyFields (read run) ref) := by
  have hidentity : Ensures (World.Quiet known inputs) (fun found => ∀ fields, found = some fields →
      ∀ field ∈ fields, Value.FitsProperty known ref.schema field.1 field.2)
      (identity? (read run) ref) := by
    rw [identity?]
    split
    · refine (readAll_ensures runs href _).map fun fields hfields => ?_
      rintro _ ⟨⟩
      exact hfields.2
    · exact .pure fun _ h => by cases h
  refine hidentity.bind fun found hfound => ?_
  cases found with
  | some fields => exact .pure (hfound fields rfl)
  | none => exact (readAll_ensures runs href _).mono fun _ h => h.2

theorem equalByValues_ensures {equalValues : ItemRef → ItemRef → EvalM Bool}
    (hvalues : ∀ a b, known a → known b →
      Ensures (World.Quiet known inputs) (fun _ => True) (equalValues a b))
    {a b : ItemRef} (ha : known a) (hb : known b) :
    Ensures (World.Quiet known inputs) (fun _ => True) (do
      let left ← EvalM.attempt (entries (read run) a)
      let right ← EvalM.attempt (entries (read run) b)
      match left, right with
      | .ok left, .ok right => Value.equalEntries equalValues left right
      | _, _ => pure false) := by
  refine (readAll_ensures runs ha _).attempt.bind fun left hleft => ?_
  refine (readAll_ensures runs hb _).attempt.bind fun right hright => ?_
  split
  · exact equalEntries_ensures fun v hv u hu => RecordAlgebra.equal_ensures hvalues
      ((hleft _ rfl).2 v hv).1 ((hright _ rfl).2 u hu).1
  · exact .pure trivial

theorem equal_ensures {equalValues : ItemRef → ItemRef → EvalM Bool}
    (hvalues : ∀ a b, known a → known b →
      Ensures (World.Quiet known inputs) (fun _ => True) (equalValues a b))
    {a b : ItemRef} (ha : known a) (hb : known b) :
    Ensures (World.Quiet known inputs) (fun _ => True) (equal (read run) equalValues a b) := by
  have byValues := equalByValues_ensures runs hvalues ha hb
  rw [equal]
  split
  · exact .pure trivial
  · split
    · refine (readAll_ensures runs ha _).attempt.bind fun left hleft => ?_
      refine (readAll_ensures runs hb _).attempt.bind fun right hright => ?_
      split
      · split
        · exact equalEntries_ensures fun v hv u hu => RecordAlgebra.equal_ensures hvalues
            ((hleft _ rfl).2 v hv).1 ((hright _ rfl).2 u hu).1
        · exact byValues
      · exact .pure trivial
    · exact byValues

theorem digest_ensures {digests : ItemRef → EvalM Digest}
    (hvalues : ∀ ref, known ref → Ensures (World.Quiet known inputs) (fun _ => True) (digests ref))
    (href : known ref) :
    Ensures (World.Quiet known inputs) (fun _ => True) (digest (read run) digests ref) :=
  (keyFields_ensures runs href).bind fun _ hfields =>
    (digestEntries_ensures fun v hv =>
      RecordAlgebra.digest_ensures hvalues (hfields v hv).1).map fun _ _ => trivial

end Read

/-- A loader gives a value that fits, if expressions are sound at the level at which it
runs. -/
theorem load_ensures {access : ItemAccess EvalM} (reads : access.Reads known (World.Quiet known inputs))
    {loader : Loader} (href : known ref)
    (hloader : Slot.Fits known ref.schema name (.deferred loader)) :
    Ensures (World.Quiet known inputs) (Value.FitsProperty known ref.schema name)
      (load (fun e v => do (← e.runValue access v).intoValue) loader ref) := by
  cases hloader with
  | @deferred _ t hassign htyped hfits =>
      refine Ensures.bind (P := fun _ => True) (.modified (fun _ hw => hw) trivial) fun _ _ => ?_
      refine (assignAll_ensures href hassign).bind fun _ _ => ?_
      have hscope : Scope.Fits known (World.Quiet known inputs) [] [.item ref.schema]
          [.value (.item ref)] := by
        refine ⟨fun depth t ht => ?_, fun binding h => by simp at h, fun depth hdepth => ?_⟩
        · cases depth with
          | zero =>
              cases ht
              exact ⟨.item ref, rfl, .item (Schema.same_refl _) href⟩
          | succ depth => simp at ht
        · exact List.getElem?_eq_none (Nat.le_of_lt hdepth)
      exact (htyped.evalFits reads hscope).value.mono hfits

end Item

namespace ItemAccess

variable {inputs : Array InputState}

theorem atLevel_reads (level : Nat) : (atLevel level).Reads known (World.Quiet known inputs) := by
  induction level with
  | zero =>
      exact ⟨fun _ _ _ => .diverge, fun _ _ => .diverge, fun _ _ _ _ => .diverge,
        fun _ _ => .diverge, rfl⟩
  | succ level ih =>
      have runs (loader : Loader) (ref : ItemRef) (name : String) (href : known ref)
          (hloader : Slot.Fits known ref.schema name (.deferred loader)) :=
        Item.load_ensures ih href hloader
      exact ⟨fun _ _ href => Item.read_ensures runs href,
        fun _ href => Item.readAll_ensures runs href _,
        fun _ _ ha hb => Item.equal_ensures runs ih.equal ha hb,
        fun _ href => Item.digest_ensures runs ih.digest href, rfl⟩

/-- Known items that fit their schemas go on to do so. -/
theorem live_reads_quiet : live.Reads known (World.Quiet known inputs) where
  field ref name href := .get fun w _ => (atLevel_reads (levelFor w)).field ref name href
  entries ref href := .get fun w _ => (atLevel_reads (levelFor w)).entries ref href
  equal a b ha hb := .get fun w _ => (atLevel_reads (levelFor w)).equal a b ha hb
  digest ref href := .get fun w _ => (atLevel_reads (levelFor w)).digest ref href
  view := rfl

end ItemAccess

end RecordAlgebra
