import RecordAlgebra.Proofs.Datum.Elements
import RecordAlgebra.Proofs.Eval.Computes
import RecordAlgebra.Proofs.Sequence.Next

/-!
# What sequences yield

A sequence yields a list of data and kinds of errors if pulling gives them one
after the other, whatever happens between two pulls. A stage turns what a
sequence yields into what its function makes of it: this is shown once for all
stages, from what the stage does with one element.
-/

namespace RecordAlgebra

open Datum.Elements (ofData)

theorem agrees_shows_mono {w w' : World} {element : Element} {x : Datum.Element}
    (h : Agrees w.Shows element x) (hw : w.Extends w') : Agrees w'.Shows element x :=
  h.mono fun _ _ hv => hv.mono hw

/-- A pull gives the first of these elements, and the rest can be pulled later. -/
def NextYields (shared : Shared) (w : World) (next : Option (Element × Sequence)) :
    List Datum.Element → Prop
  | [] => next = none
  | x :: xs => ∃ element rest, next = some (element, rest) ∧ Agrees w.Shows element x ∧
      rest.isFinite = true ∧
      Computes shared none w rest.next (fun w next (_ : Unit) => NextYields shared w next xs)
        (.ok ())

/-- Pulling from any state after `start` gives these elements. -/
def Yields (shared : Shared) (start : World) (s : Sequence) (xs : List Datum.Element) : Prop :=
  s.isFinite = true ∧
    Computes shared none start s.next (fun w next (_ : Unit) => NextYields shared w next xs)
      (.ok ())

section

variable {shared : Shared} {start : World} {s : Sequence} {xs : List Datum.Element}

theorem Yields.mono (h : Yields shared start s xs) {later : World}
    (hlater : start.Extends later) : Yields shared later s xs :=
  ⟨h.1, h.2.mono hlater⟩

theorem nextYields_cons {w : World} {next : Option (Element × Sequence)} {x : Datum.Element} :
    NextYields shared w next (x :: xs) ↔ ∃ element rest, next = some (element, rest) ∧
      Agrees w.Shows element x ∧ Yields shared w rest xs := Iff.rfl

theorem Yields.within {others : Shared} (h : Yields shared start s xs)
    (hs : shared.Within others) : Yields others start s xs := by
  induction xs generalizing start s with
  | nil => exact ⟨h.1, h.2.within hs⟩
  | cons x xs ih =>
      refine ⟨h.1, (h.2.within hs).imp fun w next _ _ hnext => ?_⟩
      obtain ⟨element, rest, rfl, hx, hrest⟩ := nextYields_cons.1 hnext
      exact nextYields_cons.2 ⟨element, rest, rfl, hx, ih hrest⟩

theorem yields_nil (hfinite : s.isFinite = true)
    (h : ∀ w, start.Extends w → s.next.run w = (.ok none, w)) : Yields shared start s [] :=
  ⟨hfinite, .of_run_eq h fun _ _ => rfl⟩

/-- Actions in a row yield what each of them computes. -/
theorem yields_ofActions {actions : List (EvalM Value)}
    (h : List.Forall₂ (fun action x => Computes shared none start action World.Shows x)
      actions xs) : Yields shared start (.ofActions actions) xs := by
  induction h with
  | nil => exact yields_nil rfl fun _ _ => rfl
  | @cons action x actions xs hfirst hrest ih =>
      refine ⟨rfl, ?_⟩
      have hnext : (Sequence.ofActions (action :: actions)).next =
          (do return some (← action.attempt, Sequence.ofActions actions)) := by
        rw [Sequence.ofActions, Sequence.next_actions]
        simp [Sequence.nextOf, Sequence.isSpent, Stage.pushAll, Sequence.ofActions]
      rw [hnext]
      exact hfirst.attempt.map_ok fun element w hw hagrees =>
        ⟨element, _, rfl, hagrees, ih.mono hw⟩

theorem yields_ofValues {vs : List Value} {ds : List Datum}
    (h : List.Forall₂ start.Shows vs ds) :
    Yields shared start (.ofValues vs) (ofData ds) := by
  refine yields_ofActions ?_
  rw [ofData, List.forall₂_map_left_iff, List.forall₂_map_right_iff]
  exact h.imp fun v d hv => .pure fun w hw => hv.mono hw

theorem yields_ofElements {elements : List Element}
    (h : List.Forall₂ (Agrees start.Shows) elements xs) :
    Yields shared start (.ofElements elements) xs := by
  refine yields_ofActions ?_
  rw [List.forall₂_map_left_iff]
  exact h.imp fun element x hx => .lift fun w hw => agrees_shows_mono hx hw

/-- What a stage does to single elements, for a function of lists of elements. It
may have become another stage, with another function, when the next one comes. -/
structure Stage.Implements (shared : Shared)
    (P : World → Stage → (List Datum.Element → List Datum.Element) → Prop) : Prop where
  mono {w w' : World} {stage : Stage} {F : List Datum.Element → List Datum.Element}
    (h : P w stage F) (hw : w.Extends w') : P w' stage F
  nil {w : World} {stage : Stage} {F : List Datum.Element → List Datum.Element}
    (h : P w stage F) : F [] = []
  spent {w : World} {stage : Stage} {F : List Datum.Element → List Datum.Element}
    (h : P w stage F) (hspent : stage.isSpent = true) (xs : List Datum.Element) : F xs = []
  push {w : World} {stage : Stage} {F : List Datum.Element → List Datum.Element}
    (h : P w stage F) (hspent : stage.isSpent = false) {element : Element} {x : Datum.Element}
    (hx : Agrees w.Shows element x) :
    Computes shared none w (stage.push element) (fun w out (_ : Unit) =>
      ∃ F', P w out.2 F' ∧
        match out.1 with
        | none => ∀ xs, F (x :: xs) = F' xs
        | some result => ∃ y, Agrees w.Shows result y ∧ ∀ xs, F (x :: xs) = y :: F' xs) (.ok ())

theorem isFinite_then (hfinite : s.isFinite = true) (stage : Stage) :
    (s.then_ stage).isFinite = true := hfinite

/-- A sequence with one more stage yields what the function of the stage makes of
what the sequence yields. -/
theorem yields_then {P : World → Stage → (List Datum.Element → List Datum.Element) → Prop}
    (hP : Stage.Implements shared P) {stage : Stage}
    {F : List Datum.Element → List Datum.Element} (hstage : P start stage F)
    (hs : Yields shared start s xs) : Yields shared start (s.then_ stage) (F xs) := by
  induction xs generalizing start s stage F with
  | nil =>
      obtain ⟨hfinite, hnext⟩ := hs
      refine ⟨isFinite_then hfinite stage, ?_⟩
      rw [Sequence.next_then hfinite, hP.nil hstage]
      split
      · exact .pure fun _ _ => rfl
      · refine hnext.bind_ok (.first none) ?_
        rintro _ w hw rfl
        exact .pure fun _ _ => rfl
  | cons x xs ih =>
      obtain ⟨hfinite, hnext⟩ := hs
      refine ⟨isFinite_then hfinite stage, ?_⟩
      rw [Sequence.next_then hfinite]
      by_cases hspent : stage.isSpent = true
      · rw [if_pos hspent, hP.spent hstage hspent]
        exact .pure fun _ _ => rfl
      · rw [if_neg hspent]
        refine hnext.bind_ok (.first none) fun next w hw hyields => ?_
        obtain ⟨element, rest, rfl, hx, hrest⟩ := nextYields_cons.1 hyields
        refine (hP.push (hP.mono hstage hw) (by simpa using hspent) hx).bind_ok (.first none) ?_
        rintro ⟨_ | result, stage'⟩ w' hw' ⟨F', hstage', hF⟩
        · rw [hF xs]
          exact (ih hstage' (hrest.mono hw')).2
        · obtain ⟨y, hy, hF⟩ := hF
          refine .pure fun w'' hw'' => ?_
          rw [hF xs]
          exact nextYields_cons.2 ⟨result, _, rfl, agrees_shows_mono hy hw'',
            (ih hstage' (hrest.mono hw')).mono hw''⟩

end

end RecordAlgebra
