import Mathlib.Data.Fin.Pigeonhole
import RecordAlgebra.Item.Access
import RecordAlgebra.Proofs.Item.Shows

/-!
# Items inside of items

The depth of a datum says how many items lie inside of one another in it. A
loaded item of depth `n` has items of every smaller depth inside of it, which
are different cells of the heap. So no datum is deeper than the heap is large,
and the level of `ItemAccess.live` is enough for all of them.
-/

namespace RecordAlgebra

namespace Datum

mutual

def depth : Datum → Nat
  | .list elements => depths elements
  | .record fields => fieldsDepth fields
  | .item _ fields => fieldsDepth fields + 1
  | _ => 0

def depths : List Datum → Nat
  | [] => 0
  | d :: rest => max (depth d) (depths rest)

def fieldsDepth : List (String × Datum) → Nat
  | [] => 0
  | (_, d) :: rest => max (depth d) (fieldsDepth rest)

end

theorem depth_le_fieldsDepth {d : Datum} {fields : Fields Datum} (h : d ∈ fields.map Prod.snd) :
    d.depth ≤ fieldsDepth fields := by
  induction fields with
  | nil => cases h
  | cons first rest ih =>
      rw [fieldsDepth]
      rcases List.mem_cons.1 h with rfl | hrest
      · exact Nat.le_max_left _ _
      · exact Nat.le_trans (ih hrest) (Nat.le_max_right _ _)

theorem exists_of_lt_depths {k : Nat} {ds : List Datum} (h : k < depths ds) :
    ∃ d ∈ ds, k < d.depth := by
  induction ds with
  | nil => simp [depths] at h
  | cons first rest ih =>
      rw [depths] at h
      rcases lt_max_iff.1 h with hfirst | hrest
      · exact ⟨first, by simp, hfirst⟩
      · obtain ⟨d, hd, hk⟩ := ih hrest
        exact ⟨d, by simp [hd], hk⟩

theorem exists_of_lt_fieldsDepth {k : Nat} {fields : Fields Datum} (h : k < fieldsDepth fields) :
    ∃ d ∈ fields.map Prod.snd, k < d.depth := by
  induction fields with
  | nil => simp [fieldsDepth] at h
  | cons first rest ih =>
      rw [fieldsDepth] at h
      rcases lt_max_iff.1 h with hfirst | hrest
      · exact ⟨first.2, by simp, hfirst⟩
      · obtain ⟨d, hd, hk⟩ := ih hrest
        exact ⟨d, List.mem_cons_of_mem _ hd, hk⟩

theorem fieldsDepth_filter_le (keep : String × Datum → Bool) (fields : Fields Datum) :
    fieldsDepth (fields.filter keep) ≤ fieldsDepth fields := by
  induction fields with
  | nil => exact Nat.le_refl _
  | cons field rest ih =>
      rw [List.filter_cons, fieldsDepth]
      split
      · rw [fieldsDepth]
        exact max_le_max (Nat.le_refl _) ih
      · exact Nat.le_trans ih (Nat.le_max_right _ _)

end Datum

namespace World

variable {w : World} {v : Value} {d : Datum}

theorem exists_shows_of_mem_parts (h : w.Shows v d) {part : Datum} (hpart : part ∈ d.parts) :
    ∃ u, w.Shows u part := by
  have pick {vs : Fields Value} {ds : Fields Datum} (hvs : List.Forall₂ w.ShowsField vs ds)
      (hmem : part ∈ ds.map Prod.snd) : ∃ u, w.Shows u part := by
    induction hvs with
    | nil => cases hmem
    | cons hfield _ ih =>
        rcases List.mem_cons.1 hmem with rfl | hrest
        · exact ⟨_, hfield.2⟩
        · exact ih hrest
  cases d with
  | list ds =>
      obtain ⟨vs, rfl, hvs⟩ := shows_list_iff.1 h
      clear pick h
      simp only [Datum.parts] at hpart
      induction hvs with
      | nil => cases hpart
      | cons hv _ ih =>
          rcases List.mem_cons.1 hpart with rfl | hrest
          · exact ⟨_, hv⟩
          · exact ih hrest
  | record ds =>
      obtain ⟨vs, rfl, -, hvs⟩ := shows_record_iff.1 h
      exact pick hvs hpart
  | item source ds =>
      obtain ⟨ref, vs, rfl, -, -, -, hvs⟩ := shows_item_iff.1 h
      exact pick hvs hpart
  | _ => cases hpart

/-- Inside of a datum there are items of every smaller depth. -/
theorem exists_item_of_lt_depth (h : w.Shows v d) {k : Nat} (hk : k < d.depth) :
    ∃ ref x, w.Shows (.item ref) x ∧ x.depth = k + 1 := by
  induction d using Datum.partsInduction generalizing v with
  | step d ih =>
      have inside (hparts : ∃ part ∈ d.parts, k < part.depth) :
          ∃ ref x, w.Shows (.item ref) x ∧ x.depth = k + 1 := by
        obtain ⟨part, hpart, hlt⟩ := hparts
        obtain ⟨u, hu⟩ := exists_shows_of_mem_parts h hpart
        exact ih part hpart hu hlt
      cases d with
      | list ds => exact inside (Datum.exists_of_lt_depths hk)
      | record ds => exact inside (Datum.exists_of_lt_fieldsDepth hk)
      | item source ds =>
          rw [Datum.depth] at hk
          rcases Nat.lt_succ_iff_lt_or_eq.1 hk with hlt | rfl
          · exact inside (Datum.exists_of_lt_fieldsDepth hlt)
          · obtain ⟨ref, vs, rfl, -⟩ := shows_item_iff.1 h
            exact ⟨ref, _, h, rfl⟩
      | _ => simp [Datum.depth] at hk

theorem cell_lt_of_shows {ref : ItemRef} (h : w.Shows (.item ref) d) :
    ref.cell < w.cells.size := by
  cases d with
  | item source ds =>
      obtain ⟨-, vs, hcell, -⟩ := shows_item.1 h
      exact (Array.getElem?_eq_some_iff.1 hcell).1
  | _ => simp [Shows] at h

/-- The cell of a loaded item tells what the item shows. -/
theorem eq_of_cell_eq {a b : ItemRef} {x y : Datum} (ha : w.Shows (.item a) x)
    (hb : w.Shows (.item b) y) (hcell : a.cell = b.cell) : x = y := by
  cases x with
  | item s ds =>
      cases y with
      | item t es =>
          obtain ⟨hs, vs, hca, -⟩ := shows_item.1 ha
          obtain ⟨ht, us, hcb, -⟩ := shows_item.1 hb
          have hst : s = t := by
            simp only [World.cell?, ← hcell] at hca hcb
            rw [hca] at hcb
            simp only [Option.some.injEq, Cell.mk.injEq] at hcb
            exact hcb.1
          have href : a = b := by
            cases a
            cases b
            simp_all
          rw [← href] at hb
          exact ha.unique hb
      | _ => simp [Shows] at hb
  | _ => simp [Shows] at ha

theorem depth_le_size (h : w.Shows v d) : d.depth ≤ w.cells.size := by
  have items (k : Fin d.depth) : ∃ ref x, w.Shows (.item ref) x ∧ x.depth = k.val + 1 :=
    exists_item_of_lt_depth h k.isLt
  choose ref x hshows hdepth using items
  let place (k : Fin d.depth) : Fin w.cells.size := ⟨(ref k).cell, cell_lt_of_shows (hshows k)⟩
  have injective : Function.Injective place := by
    intro j k hjk
    have hx := eq_of_cell_eq (hshows j) (hshows k) (congrArg Fin.val hjk)
    have hj := hdepth j
    rw [hx, hdepth k] at hj
    exact Fin.ext (by omega)
  exact Fin.le_of_injective place injective

theorem depth_lt_levelFor (h : w.Shows v d) : d.depth < ItemAccess.levelFor w := by
  have hsize := depth_le_size h
  have hfactor : w.cells.size + 1 ≤ (w.deferredCount + 1) * (w.cells.size + 1) :=
    Nat.le_mul_of_pos_left _ (Nat.succ_pos _)
  rw [ItemAccess.levelFor]
  omega

end World

end RecordAlgebra
