import RecordAlgebra.Proofs.Item.Reading

/-!
# Access to a loaded heap

`ItemAccess.live` reads loaded items as `ItemAccess.ReadsLoaded` demands. That
an item is taken to equal itself without a look at its fields makes no
difference, because what is shown equals itself.
-/

namespace RecordAlgebra

namespace Item

variable {w : World} (run : Loader → ItemRef → EvalM Value) {ref : ItemRef} {source : SourceRef}
  {vs : Fields Value} {ds : Fields Datum}

theorem slot?_eq (hcell : w.cell? ref = some { source, slots := World.loadedSlots vs })
    (name : String) : w.slot? ref name = (vs.get? name).map Slot.resolved := by
  rw [World.slot?, hcell, Option.bind_some]
  exact Fields.get?_map_snd Slot.resolved vs name

theorem read_run (hcell : w.cell? ref = some { source, slots := World.loadedSlots vs })
    (hvs : List.Forall₂ w.ShowsField vs ds) (name : String) :
    Reads w (read run ref name) w.Shows (Datum.field (.item source ds) name) := by
  have hget := Fields.rel_get?_of_forall₂ hvs name
  rw [Reads, read, EvalM.run_bind_ok (EvalM.run_get w), slot?_eq hcell name, Datum.field]
  generalize vs.get? name = v, ds.get? name = d at hget ⊢
  cases hget with
  | none => exact ⟨_, rfl, rfl⟩
  | some hvd => exact ⟨_, rfl, hvd⟩

end Item

/-- Items that are loaded load without failing, and the state stays as it is. -/
theorem World.holdings_loads (w : World) : w.holdings.Loads (· = w) 1 := by
  constructor
  · rintro (_ | n) hn ref ds h field hfield _ rfl
    · cases hn
    · have hshows := holdings_eq_some_iff.1 h
      obtain ⟨-, vs, hcell, hnames, hvs⟩ := shows_item.1 hshows
      rw [Fields.names_eq_of_forall₂ hvs] at hnames
      have hdistinct : ds.names.Nodup := hnames ▸ ref.source.schema.distinct
      obtain ⟨x, hrun, hends⟩ := Item.read_run _ hcell hvs field.1
      rw [Datum.field, Fields.get?_eq_some_of_mem hdistinct hfield] at hends
      obtain ⟨v, rfl, hv⟩ := hends.ok_right
      exact ⟨v, _, hrun, rfl, hv.means⟩
  · rintro _ rfl ref ds h
    have hdepth := depth_lt_levelFor (holdings_eq_some_iff.1 h)
    omega

namespace ItemAccess

variable {w : World}

theorem levelFor_eq (w : World) :
    levelFor w = (w.deferredCount + 1) * (w.cells.size + 1) + 1 := rfl

theorem live_field_reads {ref : ItemRef} {d : Datum} (h : w.Shows (.item ref) d)
    (name : String) : Reads w (live.field ref name) w.Shows (d.field name) := by
  cases d with
  | item s ds =>
      obtain ⟨hs, vs, hcell, -, hvs⟩ := World.shows_item.1 h
      have hrun := run_atLevelFor (fun access => access.field ref name) w
      rw [levelFor_eq] at hrun
      obtain ⟨x, hx, hends⟩ := Item.read_run _ hcell hvs name
      exact ⟨x, hrun.trans hx, hends⟩
  | _ => simp [World.Shows] at h

theorem live_entries_reads {ref : ItemRef} {d : Datum} (h : w.Shows (.item ref) d) :
    Reads w (live.entries ref) (List.Forall₂ w.ShowsField) d.entries := by
  obtain ⟨ds, hds, rfl⟩ := Holdings.exists_of_means_item h.means
  obtain ⟨vs, _, hrun, rfl, hvs⟩ := w.holdings_loads.live_entries_finds hds w rfl
  exact ⟨_, hrun, hvs.imp fun _ _ hv => ⟨hv.1, World.holdings_means_iff.1 hv.2⟩⟩

/-- Access at the level of the heap reads loaded items. -/
theorem live_readsLoaded : ReadsLoaded live where
  field := live_field_reads
  entries := live_entries_reads
  equal {w _ _ _ _} ha hb := finds_iff_run.1 (w.holdings_loads.live_equal_finds ha.means hb.means)
  digest {w _ _} h := finds_iff_run.1 (w.holdings_loads.live_digest_finds h.means)
  view := rfl

end ItemAccess

end RecordAlgebra
