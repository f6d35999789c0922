import RecordAlgebra.Proofs.Expr.Denotation
import RecordAlgebra.Proofs.Sequence.Gathering

/-!
# Outputs and bindings

What an output stands for is a datum or a list of elements, and a list can take
the place of a sequence without errors. A binding stands for a datum or for the
data of an input. Reading the input is where a state says whether it was read
before.
-/

namespace RecordAlgebra

open Datum.Elements (ofData)

theorem Datum.Elements.collect_ofData (ds : List Datum) : collect (ofData ds) = .ok ds := by
  induction ds with
  | nil => rfl
  | cons d ds ih =>
      refine (congrArg (Except.map (d :: ·)) ih).trans ?_
      rfl

/-- What an output stands for. A list and a sequence of the same elements stand
for each other. -/
def Gives (shared : Shared) (w : World) : Output → Result → Prop
  | .value v, .value d => w.Shows v d
  | .value v, .sequence xs => ∃ ds, xs = ofData ds ∧ w.Shows v (.list ds)
  | .sequence s, .sequence xs => Yields shared w s xs
  | .sequence s, .value d => ∃ ds, d = .list ds ∧ Yields shared w s (ofData ds)

section

variable {shared : Shared} {start : World}

theorem Gives.mono {output : Output} {r : Result} (h : Gives shared start output r) {w : World}
    (hw : start.Extends w) : Gives shared w output r := by
  cases output with
  | value v =>
      cases r with
      | value d => exact World.Shows.mono h hw
      | sequence xs =>
          obtain ⟨ds, hxs, hv⟩ := h
          exact ⟨ds, hxs, hv.mono hw⟩
  | sequence s =>
      cases r with
      | value d =>
          obtain ⟨ds, hd, hs⟩ := h
          exact ⟨ds, hd, hs.mono hw⟩
      | sequence xs => exact Yields.mono h hw

theorem Gives.within {output : Output} {r : Result} {others : Shared}
    (h : Gives shared start output r) (hs : shared.Within others) :
    Gives others start output r := by
  cases output with
  | value v => cases r <;> exact h
  | sequence s =>
      cases r with
      | value d =>
          obtain ⟨ds, hd, hyields⟩ := h
          exact ⟨ds, hd, hyields.within hs⟩
      | sequence xs => exact Yields.within h hs

theorem computes_collectList {s : Sequence} {xs : List Datum.Element}
    (hs : Yields shared start s xs) :
    Computes shared none start (do return .list (← s.collect)) World.Shows
      ((Datum.Elements.collect xs).map .list) :=
  (computes_collect hs).map fun _ _ _ _ h => World.shows_list.2 h

theorem computes_intoValue {output : Output} {r : Result} (h : Gives shared start output r) :
    Computes shared none start output.intoValue World.Shows r.intoValue := by
  cases output with
  | value v =>
      cases r with
      | value d => exact .pure fun w hw => World.Shows.mono h hw
      | sequence xs =>
          obtain ⟨ds, rfl, hv⟩ := h
          rw [Result.intoValue, Datum.Elements.collect_ofData]
          exact .pure fun w hw => hv.mono hw
  | sequence s =>
      cases r with
      | value d =>
          obtain ⟨ds, rfl, hs⟩ := h
          have hcollect := computes_collectList hs
          rw [Datum.Elements.collect_ofData] at hcollect
          exact hcollect
      | sequence xs => exact computes_collectList h

theorem computes_intoSequence {output : Output} {r : Result} (h : Gives shared start output r) :
    Computes shared none start output.intoSequence (Yields shared) r.intoSequence := by
  cases output with
  | value v =>
      cases r with
      | value d =>
          cases d with
          | list ds =>
              obtain ⟨vs, rfl, hvs⟩ := World.shows_list_iff.1 h
              exact .pure fun w hw => yields_ofValues (World.forall₂_shows_mono hvs hw)
          | record ds =>
              obtain ⟨vs, rfl, -⟩ := World.shows_record_iff.1 h
              exact .raise rfl
          | item source ds =>
              obtain ⟨ref, vs, rfl, -⟩ := World.shows_item_iff.1 h
              exact .raise rfl
          | _ =>
              cases h
              exact .raise rfl
      | sequence xs =>
          obtain ⟨ds, rfl, hv⟩ := h
          obtain ⟨vs, rfl, hvs⟩ := World.shows_list_iff.1 hv
          exact .pure fun w hw => yields_ofValues (World.forall₂_shows_mono hvs hw)
  | sequence s =>
      cases r with
      | value d =>
          obtain ⟨ds, rfl, hs⟩ := h
          exact .pure fun w hw => hs.mono hw
      | sequence xs => exact .pure fun w hw => Yields.mono h hw

end

/-- Opening gives a sequence of these data, and needs no input for it. -/
def Opens (start : World) (source : EvalM Sequence) (data : List Datum) : Prop :=
  Computes .empty none start source (fun w s (_ : Unit) => Yields .empty w s (ofData data)) (.ok ())

/-- What a binding stands for. An input that is kept is shared. -/
def BindingGives (shared : Shared) (w : World) : Binding → Meaning → Prop
  | .value v, .value d => w.Shows v d
  | .input input, .input data =>
      Opens w input.source data ∧ (input.materialize = true → shared input.cell = some data)
  | _, _ => False

theorem BindingGives.mono {shared : Shared} {w w' : World} {binding : Binding}
    {meaning : Meaning} (h : BindingGives shared w binding meaning) (hw : w.Extends w') :
    BindingGives shared w' binding meaning := by
  cases binding with
  | value v =>
      cases meaning with
      | value d => exact World.Shows.mono h hw
      | input data => exact h.elim
  | input input =>
      cases meaning with
      | value d => exact h.elim
      | input data => exact ⟨h.1.mono hw, h.2⟩

namespace Input

variable {shared : Shared} {start : World} {input : Input} {data : List Datum}

/-- The state in which the input is in the given state. -/
def stateSet (input : Input) (state : InputState) (w : World) : World :=
  { w with inputs := w.inputs.setIfInBounds input.cell state }

theorem run_setState (state : InputState) (w : World) :
    (input.setState state).run w = (.ok (), input.stateSet state w) := rfl

theorem extends_stateSet (state : InputState) (w : World) : w.Extends (input.stateSet state w) :=
  .of_eq rfl rfl

theorem stateSet_of_ne {i : Nat} (h : i ≠ input.cell) (state : InputState) (w : World) :
    (input.stateSet state w).inputs[i]? = w.inputs[i]? := by
  rw [stateSet]
  exact Array.getElem?_setIfInBounds_ne (Ne.symm h)

theorem read_pending {w : World} (h : w.inputs[input.cell]? = some .pending) :
    input.read.run w = (do
      let s ← input.source
      if input.materialize then
        let values ← s.collect
        input.setState (.materialized values)
        pure (.ofValues values)
      else pure s : EvalM Sequence).run (input.stateSet .consumed w) := by
  rw [read, EvalM.run_bind_ok (EvalM.run_get w), h]
  simp only
  rw [EvalM.run_bind_ok (run_setState .consumed w)]

/-- An input that is not kept gives its data to whoever reads it first. -/
theorem computes_read_once (hopens : Opens start input.source data)
    (hkept : input.materialize = false) :
    Computes shared (some input.cell) start input.read
      (fun w s (_ : Unit) => Yields shared w s (ofData data)) (.ok ()) := by
  intro w hw hholds hready
  obtain ⟨hnone, hpending⟩ := hready input.cell rfl
  have hne {i : Nat} {ds : List Datum} (hi : shared i = some ds) : i ≠ input.cell := by
    rintro rfl
    rw [hnone] at hi
    cases hi
  have hset : w.Leads shared (some input.cell) (input.stateSet .consumed w) := by
    refine ⟨extends_stateSet _ w, fun i ds hi => ?_, fun i _ honce => ?_⟩
    · exact (hholds i ds hi).mono (stateSet_of_ne (hne hi) _ w) (extends_stateSet _ w)
    · refine stateSet_of_ne ?_ _ w
      rintro rfl
      exact honce rfl
  obtain ⟨hleads, hends⟩ := ((hopens.within (Shared.empty_within shared)).imp
    fun w s _ _ hs => Yields.within hs (Shared.empty_within shared)) _
      (hw.trans hset.heap) hset.holds (.none _ shared)
  rw [read_pending hpending, hkept, EvalM.run_bind]
  rcases hm : input.source.run (input.stateSet .consumed w) with ⟨(e | _) | s, w'⟩ <;>
    rw [hm] at hleads hends
  · exact hends.elim
  · exact hends.elim
  · exact ⟨hset.trans hleads.weaken, hends⟩

/-- An input that is kept gives its data to everyone. -/
theorem computes_read_shared (hopens : Opens start input.source data)
    (hkept : input.materialize = true) (hshared : shared input.cell = some data) :
    Computes shared none start input.read
      (fun w s (_ : Unit) => Yields shared w s (ofData data)) (.ok ()) := by
  intro w hw hholds _
  rcases hholds input.cell data hshared with hpending | ⟨vs, hvs, hshows⟩
  · -- While the input is read, it is not among the inputs that others may read.
    have hset : (input.stateSet .consumed w).Holds (shared.erase input.cell) := by
      intro i ds hi
      rw [Shared.erase] at hi
      split at hi
      · cases hi
      · next hne => exact (hholds i ds hi).mono (stateSet_of_ne hne _ w) (extends_stateSet _ w)
    have hcollect : Computes (shared.erase input.cell) none start
        (do (← input.source).collect) (fun w => List.Forall₂ w.Shows) (.ok data) := by
      refine (hopens.within (Shared.empty_within _)).bind_ok (.first none) fun s w' _ hs => ?_
      have hcollected := computes_collect (Yields.within hs
        (Shared.empty_within (shared.erase input.cell)))
      rw [Datum.Elements.collect_ofData] at hcollected
      exact hcollected
    obtain ⟨hleads, hends⟩ := hcollect _ (hw.trans (extends_stateSet _ w)) hset (.none _ _)
    obtain ⟨vs, hvs, hshows⟩ := hends.ok_right
    rw [read_pending hpending, hkept]
    simp only [if_true]
    rw [← bind_assoc, EvalM.run_bind]
    rcases hm : (do (← input.source).collect : EvalM (List Value)).run
      (input.stateSet .consumed w) with ⟨x, w'⟩
    rw [hm] at hleads hvs hshows
    cases hvs
    simp only [EvalM.run_bind_ok (run_setState _ _)]
    have hheap : w.Extends (input.stateSet (.materialized vs) w') :=
      ((extends_stateSet _ w).trans hleads.heap).trans (extends_stateSet _ w')
    have hvalues : List.Forall₂ (input.stateSet (.materialized vs) w').Shows vs data :=
      World.forall₂_shows_mono hshows (extends_stateSet _ w')
    have hbound : input.cell < w'.inputs.size := by
      have hsame := hleads.others input.cell (by rw [Shared.erase, if_pos rfl]) (by simp)
      rw [stateSet, Array.getElem?_setIfInBounds_self_of_lt (Array.getElem?_eq_some_iff.1 hpending).1]
        at hsame
      exact (Array.getElem?_eq_some_iff.1 hsame).1
    refine ⟨⟨hheap, fun i ds hi => ?_, fun i hi _ => ?_⟩, yields_ofValues hvalues⟩
    · by_cases hcell : i = input.cell
      · subst hcell
        rw [hshared] at hi
        cases hi
        refine .inr ⟨vs, ?_, hvalues⟩
        rw [stateSet]
        exact Array.getElem?_setIfInBounds_self_of_lt hbound
      · have hothers := hleads.holds i ds (by rw [Shared.erase, if_neg hcell]; exact hi)
        exact hothers.mono (stateSet_of_ne hcell _ w') (extends_stateSet _ w')
    · have hcell : i ≠ input.cell := by
        rintro rfl
        rw [hshared] at hi
        cases hi
      have hothers := hleads.others i (by rw [Shared.erase, if_neg hcell]; exact hi) (by simp)
      exact (stateSet_of_ne hcell _ w').trans (hothers.trans (stateSet_of_ne hcell _ w))
  · rw [read, EvalM.run_bind_ok (EvalM.run_get w), hvs]
    exact ⟨.refl hholds, yields_ofValues hshows⟩

end Input

end RecordAlgebra
