import RecordAlgebra.Proofs.Item.Holdings

/-!
# Reading loaded items

Looking into values that show data gives what the data have, and changes nothing. The laws of
`ItemAccess.ReadsLoaded` say so for the items, and from them it follows for all values. What a
value shows in a state is what it stands for, given what the loaded items hold, and the family
of states has only the one.
-/

namespace RecordAlgebra

/-- The state is read and stays as it is. -/
def Reads {α β : Type} (w : World) (m : EvalM α) (R : α → β → Prop) (r : Except ErrorKind β) :
    Prop :=
  ∃ x, m.run w = (x, w) ∧ EndsAs R x r

theorem finds_iff_run {α : Type} {w : World} {m : EvalM α} {a : α} :
    Finds (· = w) (· = a) m ↔ m.run w = (.ok a, w) := by
  constructor
  · intro h
    obtain ⟨_, _, hrun, rfl, rfl⟩ := h w rfl
    exact hrun
  · rintro hrun _ rfl
    exact ⟨a, _, hrun, rfl, rfl⟩

namespace World

variable {w : World} {v : Value} {d : Datum}

/-- What is shown is formed. -/
theorem Shows.isFormed (h : w.Shows v d) : d.IsFormed := by
  induction d using Datum.partsInduction generalizing v with
  | step d ih =>
      have hparts : ∀ part ∈ d.parts, part.IsFormed := by
        intro part hpart
        obtain ⟨u, hu⟩ := exists_shows_of_mem_parts h hpart
        exact ih part hpart hu
      cases d with
      | list ds => exact .list hparts
      | record ds =>
          obtain ⟨vs, rfl, hnames, hvs⟩ := shows_record_iff.1 h
          rw [Fields.names_eq_of_forall₂ hvs] at hnames
          exact .record hnames (List.forall_mem_map.1 hparts)
      | item source ds =>
          obtain ⟨ref, vs, rfl, -, -, hnames, hvs⟩ := shows_item_iff.1 h
          rw [Fields.names_eq_of_forall₂ hvs] at hnames
          exact .item (hnames ▸ source.schema.distinct) (List.forall_mem_map.1 hparts)
      | _ => exact .single rfl

/-- What is shown equals itself. -/
theorem Shows.equal_self (h : w.Shows v d) : d.equal d = true := h.isFormed.equal_self

open Classical in
/-- What the items that are loaded in a state hold. -/
noncomputable def holdings (w : World) : Holdings where
  fields? cell :=
    if h : ∃ held : SourceRef × Fields Datum,
        w.Shows (.item { cell, source := held.1 }) (.item held.1 held.2) then
      some h.choose
    else none
  names {cell source ds} h := by
    obtain ⟨hshows, hheld⟩ := Option.dite_none_right_eq_some.1 h
    have hspec := hshows.choose_spec
    rw [Option.some.inj hheld] at hspec
    obtain ⟨-, vs, -, hnames, hvs⟩ := shows_item.1 hspec
    rw [← Fields.names_eq_of_forall₂ hvs, hnames]
  formed {cell source ds} h := by
    obtain ⟨hshows, hheld⟩ := Option.dite_none_right_eq_some.1 h
    have hspec := hshows.choose_spec
    rw [Option.some.inj hheld] at hspec
    exact (Datum.isFormed_item.1 hspec.isFormed).2

theorem holdings_eq_some_iff {cell : Nat} {source : SourceRef} {ds : Fields Datum} :
    w.holdings.fields? cell = some (source, ds) ↔
      w.Shows (.item { cell, source }) (.item source ds) := by
  rw [holdings, Option.dite_none_right_eq_some]
  constructor
  · rintro ⟨hshows, hheld⟩
    have hspec := hshows.choose_spec
    rwa [Option.some.inj hheld] at hspec
  · intro h
    have hshows : ∃ held : SourceRef × Fields Datum,
        w.Shows (.item { cell, source := held.1 }) (.item held.1 held.2) := ⟨(source, ds), h⟩
    have hdatum := eq_of_cell_eq hshows.choose_spec h rfl
    rw [Datum.item.injEq] at hdatum
    exact ⟨hshows, congrArg some (Prod.ext hdatum.1 hdatum.2)⟩

/-- What is shown is what the value stands for. -/
theorem Shows.means (h : w.Shows v d) : w.holdings.Means v d := by
  induction d using Datum.partsInduction generalizing v with
  | step d ih =>
      cases d with
      | list ds =>
          obtain ⟨vs, rfl, hvs⟩ := shows_list_iff.1 h
          exact .list (forall₂_mp hvs fun d hd v hv => ih d hd hv)
      | record ds =>
          obtain ⟨vs, rfl, hnames, hvs⟩ := shows_record_iff.1 h
          rw [Fields.names_eq_of_forall₂ hvs] at hnames
          have hmeans := forall₂_field_mp hvs fun d hd v hv => ih d hd hv
          exact Holdings.means_record_iff.2 ⟨vs, rfl, hnames, hmeans⟩
      | item source ds =>
          obtain ⟨⟨cell, source⟩, vs, rfl, rfl, -⟩ := shows_item_iff.1 h
          exact .item (holdings_eq_some_iff.2 h)
      | _ => exact .of_bare h rfl

/-- Given what the loaded items hold, a value stands for what it shows. -/
theorem holdings_means_iff : w.holdings.Means v d ↔ w.Shows v d := by
  refine ⟨fun h => ?_, Shows.means⟩
  induction d using Datum.partsInduction generalizing v with
  | step d ih =>
      cases h with
      | single hsingle => cases d <;> first | rfl | cases hsingle
      | list hvs => exact shows_list.2 (forall₂_mp hvs fun d hd v hv => ih d hd hv)
      | record hdistinct hnames hvs =>
          have hfields := Fields.forall₂_iff_names.2 ⟨hnames, hvs⟩
          exact shows_record.2 ⟨hnames ▸ hdistinct,
            forall₂_field_mp hfields fun d hd v hv => ih d hd hv⟩
      | item h => exact holdings_eq_some_iff.1 h

end World

/-- How access to items has to behave where they are loaded. -/
structure ItemAccess.ReadsLoaded (access : ItemAccess EvalM) : Prop where
  field {w : World} {ref : ItemRef} {d : Datum} (h : w.Shows (.item ref) d) (name : String) :
    Reads w (access.field ref name) w.Shows (d.field name)
  entries {w : World} {ref : ItemRef} {d : Datum} (h : w.Shows (.item ref) d) :
    Reads w (access.entries ref) (List.Forall₂ w.ShowsField) d.entries
  equal {w : World} {a b : ItemRef} {d e : Datum} (ha : w.Shows (.item a) d)
    (hb : w.Shows (.item b) e) : (access.equal a b).run w = (.ok (d.equal e), w)
  digest {w : World} {ref : ItemRef} {d : Datum} (h : w.Shows (.item ref) d) :
    (access.digest ref).run w = (.ok d.digest, w)
  view : access.view = EvalM.view

namespace Value

variable {access : ItemAccess EvalM} (reads : access.ReadsLoaded) {w : World} {v u : Value}
  {d e : Datum}

include reads

theorem equal_reads (hv : w.Shows v d) (hu : w.Shows u e) :
    (Value.equal access.equal v u).run w = (.ok (d.equal e), w) := by
  have hitems (a b : ItemRef) (x y : Datum) (ha : w.holdings.Means (.item a) x)
      (hb : w.holdings.Means (.item b) y) : Finds (· = w) (· = x.equal y) (access.equal a b) :=
    finds_iff_run.2 (reads.equal (World.holdings_means_iff.1 ha) (World.holdings_means_iff.1 hb))
  exact finds_iff_run.1 (equal_finds (fun a b x y ha hb _ _ => hitems a b x y ha hb) d v u e
    hv.means hu.means (Nat.le_max_left _ _) (Nat.le_max_right _ _))

theorem digest_reads (hv : w.Shows v d) : (v.digest access.digest).run w = (.ok d.digest, w) := by
  have hitems (ref : ItemRef) (x : Datum) (h : w.holdings.Means (.item ref) x) :
      Finds (· = w) (· = x.digest) (access.digest ref) :=
    finds_iff_run.2 (reads.digest (World.holdings_means_iff.1 h))
  exact finds_iff_run.1
    (digest_finds (fun ref x h _ => hitems ref x h) d v hv.means (Nat.le_refl _))

theorem field_reads (hv : w.Shows v d) (name : String) :
    Reads w (v.field access name) w.Shows (d.field name) := by
  cases d with
  | record ds =>
      obtain ⟨vs, rfl, -, hvs⟩ := World.shows_record_iff.1 hv
      have hget := Fields.rel_get?_of_forall₂ hvs name
      rw [Value.field, Datum.field]
      generalize Fields.get? vs name = u, Fields.get? ds name = e at hget ⊢
      cases hget with
      | none => exact ⟨_, rfl, rfl⟩
      | some hue => exact ⟨_, rfl, hue⟩
  | item source ds =>
      obtain ⟨ref, vs, rfl, -⟩ := World.shows_item_iff.1 hv
      exact reads.field hv name
  | list ds =>
      obtain ⟨vs, rfl, -⟩ := World.shows_list_iff.1 hv
      exact ⟨_, rfl, rfl⟩
  | _ => cases hv; exact ⟨_, rfl, rfl⟩

omit reads in
/-- What is no mapping is reported as such. -/
theorem mapping_expected (hview : access.view = EvalM.view) (v : Value) :
    Reads w (do throwThe Error (unexpected (← access.view) "mapping" v))
      (List.Forall₂ w.ShowsField) (.error .typeMismatch) := by
  rw [hview]
  exact ⟨_, rfl, rfl⟩

theorem entries_reads (hv : w.Shows v d) :
    Reads w (v.entries access) (List.Forall₂ w.ShowsField) d.entries := by
  cases d with
  | record ds =>
      obtain ⟨vs, rfl, -, hvs⟩ := World.shows_record_iff.1 hv
      exact ⟨_, rfl, hvs⟩
  | item source ds =>
      obtain ⟨ref, vs, rfl, -⟩ := World.shows_item_iff.1 hv
      exact reads.entries hv
  | list ds =>
      obtain ⟨vs, rfl, -⟩ := World.shows_list_iff.1 hv
      exact mapping_expected reads.view _
  | _ => cases hv; exact mapping_expected reads.view _

end Value

end RecordAlgebra
