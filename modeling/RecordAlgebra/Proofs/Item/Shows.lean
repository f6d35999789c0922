import RecordAlgebra.Proofs.Datum.Basic
import RecordAlgebra.Proofs.Fields
import RecordAlgebra.World

/-!
# What values show

In a state, a value shows a datum if all items inside of it are loaded and hold
the fields that the datum has. The heap only grows while loaded items are read
and new ones are made, so what a value shows stays the same.
-/

namespace RecordAlgebra

namespace World

/-- The heap of a state is kept by another one, which may have more items, and so is
what the sources hold. -/
structure Extends (w w' : World) : Prop where
  cells : ∀ (i : Nat) (cell : Cell), w.cells[i]? = some cell → w'.cells[i]? = some cell
  stores : ∀ i : Nat, w'.stores[i]?.map Store.contents = w.stores[i]?.map Store.contents

theorem Extends.refl (w : World) : w.Extends w := ⟨fun _ _ h => h, fun _ => rfl⟩

theorem Extends.trans {a b c : World} (hab : a.Extends b) (hbc : b.Extends c) : a.Extends c :=
  ⟨fun i cell h => hbc.cells i cell (hab.cells i cell h),
    fun i => (hbc.stores i).trans (hab.stores i)⟩

theorem Extends.of_eq {w w' : World} (hcells : w'.cells = w.cells)
    (hstores : w'.stores = w.stores) : w.Extends w' := by
  refine ⟨fun i cell hc => ?_, fun i => by rw [hstores]⟩
  rw [hcells]
  exact hc

theorem Extends.cell? {w w' : World} (h : w.Extends w') {ref : ItemRef} {cell : Cell}
    (hc : w.cell? ref = some cell) : w'.cell? ref = some cell :=
  h.cells ref.cell cell hc

/-- The slots of an item that holds these values. -/
def loadedSlots (fields : Fields Value) : Fields Slot :=
  fields.map fun field => (field.1, .resolved field.2)

mutual

/-- The value stands for the datum in this state. Records have distinct names,
and items have the fields of their schema. -/
def Shows (w : World) (v : Value) : Datum → Prop
  | .null => v = .null
  | .bool b => v = .bool b
  | .int n => v = .int n
  | .float x => v = .float x
  | .text s => v = .text s
  | .bytes octets => v = .bytes octets
  | .timestamp t => v = .timestamp t
  | .list ds => ∃ vs, v = .list vs ∧ ShowsAll w vs ds
  | .record fs => ∃ vs, v = .record vs ∧ (Fields.names vs).Nodup ∧ ShowsFields w vs fs
  | .item source fs =>
      ∃ ref vs, v = .item ref ∧ ref.source = source ∧
        w.cell? ref = some { source, slots := loadedSlots vs } ∧
        Fields.names vs = source.schema.names ∧ ShowsFields w vs fs

def ShowsAll (w : World) (vs : List Value) : List Datum → Prop
  | [] => vs = []
  | d :: ds => ∃ v rest, vs = v :: rest ∧ Shows w v d ∧ ShowsAll w rest ds

def ShowsFields (w : World) (vs : Fields Value) : List (String × Datum) → Prop
  | [] => vs = []
  | (name, d) :: ds => ∃ v rest, vs = (name, v) :: rest ∧ Shows w v d ∧ ShowsFields w rest ds

end

/-- A field shows a field of the same name. -/
def ShowsField (w : World) (v : String × Value) (d : String × Datum) : Prop :=
  v.1 = d.1 ∧ w.Shows v.2 d.2

variable {w w' : World} {v : Value} {d : Datum}

theorem showsAll_iff {vs : List Value} {ds : List Datum} :
    w.ShowsAll vs ds ↔ List.Forall₂ w.Shows vs ds := by
  induction ds generalizing vs with
  | nil => exact List.forall₂_nil_right_iff.symm
  | cons d ds ih =>
      show (∃ v rest, vs = v :: rest ∧ w.Shows v d ∧ w.ShowsAll rest ds) ↔ _
      rw [List.forall₂_cons_right_iff]
      constructor
      · rintro ⟨v, rest, rfl, hv, hrest⟩
        exact ⟨v, rest, hv, ih.1 hrest, rfl⟩
      · rintro ⟨v, rest, hv, hrest, rfl⟩
        exact ⟨v, rest, rfl, hv, ih.2 hrest⟩

theorem showsFields_iff {vs : Fields Value} {ds : Fields Datum} :
    w.ShowsFields vs ds ↔ List.Forall₂ w.ShowsField vs ds := by
  induction ds generalizing vs with
  | nil => exact List.forall₂_nil_right_iff.symm
  | cons d ds ih =>
      obtain ⟨name, d⟩ := d
      show (∃ v rest, vs = (name, v) :: rest ∧ w.Shows v d ∧ w.ShowsFields rest ds) ↔ _
      rw [List.forall₂_cons_right_iff]
      constructor
      · rintro ⟨v, rest, rfl, hv, hrest⟩
        exact ⟨(name, v), rest, ⟨rfl, hv⟩, ih.1 hrest, rfl⟩
      · rintro ⟨⟨name, v⟩, rest, ⟨rfl, hv⟩, hrest, rfl⟩
        exact ⟨v, rest, rfl, hv, ih.2 hrest⟩

theorem shows_list_iff {ds : List Datum} :
    w.Shows v (.list ds) ↔ ∃ vs, v = .list vs ∧ List.Forall₂ w.Shows vs ds := by
  show (∃ vs, v = .list vs ∧ w.ShowsAll vs ds) ↔ _
  simp only [showsAll_iff]

theorem shows_record_iff {ds : Fields Datum} :
    w.Shows v (.record ds) ↔
      ∃ vs, v = .record vs ∧ (Fields.names vs).Nodup ∧ List.Forall₂ w.ShowsField vs ds := by
  show (∃ vs, v = .record vs ∧ (Fields.names vs).Nodup ∧ w.ShowsFields vs ds) ↔ _
  simp only [showsFields_iff]

theorem shows_item_iff {source : SourceRef} {ds : Fields Datum} :
    w.Shows v (.item source ds) ↔
      ∃ ref vs, v = .item ref ∧ ref.source = source ∧
        w.cell? ref = some { source, slots := loadedSlots vs } ∧
        Fields.names vs = source.schema.names ∧ List.Forall₂ w.ShowsField vs ds := by
  show (∃ ref vs, v = .item ref ∧ ref.source = source ∧
    w.cell? ref = some { source, slots := loadedSlots vs } ∧
    Fields.names vs = source.schema.names ∧ w.ShowsFields vs ds) ↔ _
  simp only [showsFields_iff]

theorem shows_list {vs : List Value} {ds : List Datum} :
    w.Shows (.list vs) (.list ds) ↔ List.Forall₂ w.Shows vs ds := by
  simp [shows_list_iff]

theorem shows_record {vs : Fields Value} {ds : Fields Datum} :
    w.Shows (.record vs) (.record ds) ↔
      (Fields.names vs).Nodup ∧ List.Forall₂ w.ShowsField vs ds := by
  simp [shows_record_iff]

theorem shows_item {ref : ItemRef} {source : SourceRef} {ds : Fields Datum} :
    w.Shows (.item ref) (.item source ds) ↔
      ref.source = source ∧ ∃ vs : Fields Value,
        w.cell? ref = some { source, slots := loadedSlots vs } ∧
        vs.names = source.schema.names ∧ List.Forall₂ w.ShowsField vs ds := by
  rw [shows_item_iff]
  constructor
  · rintro ⟨_, vs, href, hsource, hrest⟩
    cases href
    exact ⟨hsource, vs, hrest⟩
  · rintro ⟨hsource, vs, hrest⟩
    exact ⟨ref, vs, rfl, hsource, hrest⟩

/-- Fields are related part by part if the data have the relation to whatever
stands for them. -/
theorem forall₂_field_mp {S R : Value → Datum → Prop} {vs : Fields Value} {ds : Fields Datum}
    (h : List.Forall₂ (fun v d => v.1 = d.1 ∧ S v.2 d.2) vs ds)
    (step : ∀ d ∈ ds.map Prod.snd, ∀ v, S v d → R v d) :
    List.Forall₂ (fun v d => v.1 = d.1 ∧ R v.2 d.2) vs ds := by
  induction h with
  | nil => exact .nil
  | cons hfield _ ih =>
      refine .cons ⟨hfield.1, step _ (by simp) _ hfield.2⟩ (ih ?_)
      intro d hd
      exact step d (by simp only [List.map_cons, List.mem_cons]; exact Or.inr hd)

theorem forall₂_mp {S R : Value → Datum → Prop} {vs : List Value} {ds : List Datum}
    (h : List.Forall₂ S vs ds) (step : ∀ d ∈ ds, ∀ v, S v d → R v d) :
    List.Forall₂ R vs ds := by
  induction h with
  | nil => exact .nil
  | cons hv _ ih =>
      refine .cons (step _ (by simp) _ hv) (ih ?_)
      intro d hd
      exact step d (by simp [hd])

/-- What a value shows does not change while the heap grows. -/
theorem Shows.mono (h : w.Shows v d) (hw : w.Extends w') : w'.Shows v d := by
  induction d using Datum.partsInduction generalizing v with
  | step d ih =>
      cases d with
      | list ds =>
          obtain ⟨vs, rfl, hvs⟩ := shows_list_iff.1 h
          exact shows_list.2 (forall₂_mp hvs fun d hd v hv => ih d hd hv)
      | record ds =>
          obtain ⟨vs, rfl, hnames, hvs⟩ := shows_record_iff.1 h
          exact shows_record.2 ⟨hnames, forall₂_field_mp hvs fun d hd v hv => ih d hd hv⟩
      | item source ds =>
          obtain ⟨ref, vs, rfl, hsource, hcell, hnames, hvs⟩ := shows_item_iff.1 h
          exact shows_item_iff.2 ⟨ref, vs, rfl, hsource, hw.cell? hcell, hnames,
            forall₂_field_mp hvs fun d hd v hv => ih d hd hv⟩
      | _ => exact h

theorem forall₂_shows_mono {vs : List Value} {ds : List Datum} (h : List.Forall₂ w.Shows vs ds)
    (hw : w.Extends w') : List.Forall₂ w'.Shows vs ds :=
  h.imp fun _ _ hv => hv.mono hw

theorem forall₂_showsField_mono {vs : Fields Value} {ds : Fields Datum}
    (h : List.Forall₂ w.ShowsField vs ds) (hw : w.Extends w') :
    List.Forall₂ w'.ShowsField vs ds :=
  h.imp fun _ _ hv => ⟨hv.1, hv.2.mono hw⟩

theorem loadedSlots_injective {vs vs' : Fields Value} (h : loadedSlots vs = loadedSlots vs') :
    vs = vs' := by
  refine List.map_injective_iff.2 ?_ h
  rintro ⟨name, v⟩ ⟨name', v'⟩ hfield
  simp only [Prod.mk.injEq, Slot.resolved.injEq] at hfield
  rw [hfield.1, hfield.2]

theorem forall₂_field_unique {vs : Fields Value} {ds ds' : Fields Datum}
    (h : List.Forall₂ w.ShowsField vs ds) (h' : List.Forall₂ w.ShowsField vs ds')
    (unique : ∀ d ∈ ds.map Prod.snd, ∀ v d', w.Shows v d → w.Shows v d' → d = d') : ds = ds' := by
  induction h generalizing ds' with
  | nil => exact (List.forall₂_nil_left_iff.1 h').symm
  | cons hfield hrest ih =>
      obtain ⟨d', rest', hfield', hrest', rfl⟩ := List.forall₂_cons_left_iff.1 h'
      have hd := unique _ (by simp) _ _ hfield.2 hfield'.2
      have hname := hfield.1.symm.trans hfield'.1
      rw [ih hrest' fun d hd => unique d (by
        simp only [List.map_cons, List.mem_cons]
        exact Or.inr hd), Prod.ext hname hd]

theorem forall₂_unique {vs : List Value} {ds ds' : List Datum}
    (h : List.Forall₂ w.Shows vs ds) (h' : List.Forall₂ w.Shows vs ds')
    (unique : ∀ d ∈ ds, ∀ v d', w.Shows v d → w.Shows v d' → d = d') : ds = ds' := by
  induction h generalizing ds' with
  | nil => exact (List.forall₂_nil_left_iff.1 h').symm
  | cons hv hrest ih =>
      obtain ⟨d', rest', hv', hrest', rfl⟩ := List.forall₂_cons_left_iff.1 h'
      rw [unique _ (by simp) _ _ hv hv', ih hrest' fun d hd => unique d (by simp [hd])]

/-- A value shows one datum only. -/
theorem Shows.unique {d' : Datum} (h : w.Shows v d) (h' : w.Shows v d') : d = d' := by
  induction d using Datum.partsInduction generalizing v d' with
  | step d ih =>
      cases d with
      | list ds =>
          obtain ⟨vs, rfl, hvs⟩ := shows_list_iff.1 h
          cases d' with
          | list ds' =>
              rw [forall₂_unique hvs (shows_list.1 h') fun d hd v d' hv hv' => ih d hd hv hv']
          | _ => simp [Shows] at h'
      | record ds =>
          obtain ⟨vs, rfl, -, hvs⟩ := shows_record_iff.1 h
          cases d' with
          | record ds' =>
              rw [forall₂_field_unique hvs (shows_record.1 h').2
                fun d hd v d' hv hv' => ih d hd hv hv']
          | _ => simp [Shows] at h'
      | item source ds =>
          obtain ⟨ref, vs, rfl, hsource, hcell, -, hvs⟩ := shows_item_iff.1 h
          cases d' with
          | item source' ds' =>
              obtain ⟨hsource', vs', hcell', -, hvs'⟩ := shows_item.1 h'
              rw [hcell] at hcell'
              simp only [Option.some.injEq, Cell.mk.injEq] at hcell'
              rw [← loadedSlots_injective hcell'.2] at hvs'
              rw [forall₂_field_unique hvs hvs' fun d hd v d' hv hv' => ih d hd hv hv', hcell'.1]
          | _ => simp [Shows] at h'
      | _ =>
          simp only [Shows] at h
          subst h
          cases d' <;> simp_all [Shows]

end World

end RecordAlgebra
