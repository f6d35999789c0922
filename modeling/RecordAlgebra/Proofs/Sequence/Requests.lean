import RecordAlgebra.Proofs.Runs
import RecordAlgebra.Proofs.Sequence.Sorted

/-!
# Requests

Stages request the elements of a source one after the other until one of them comes through.
Here this is a relation, which does not say how long it may go on, and in which the requests are
counted. A sequence is pulled by requests to its feed. If stages are put at its end, what they
hand on is found by requests to the sequence.
-/

namespace RecordAlgebra

/-- How a source answers a request: that it has ended, or with an element and what is left. -/
abbrev Answers (σ : Type) := σ → World → Option (Element × σ) → World → Prop

open Sequence (isSpent)
open Stage (pushAll)

/-- The stages hand on one element of the source, or nothing more, after so many requests. To
be told of the end takes a request too, and a spent stage requests nothing. -/
inductive Draws {σ : Type} (answers : Answers σ) :
    List Stage → σ → World → Option (Element × List Stage × σ) → Nat → World → Prop
  | spent {stages : List Stage} {source : σ} {w : World} (h : isSpent stages = true) :
      Draws answers stages source w none 0 w
  | ended {stages : List Stage} {source : σ} {w w' : World} (hopen : isSpent stages = false)
      (h : answers source w none w') : Draws answers stages source w none 1 w'
  | handed {stages others : List Stage} {source rest : σ} {element result : Element}
      {w w₁ w' : World} (hopen : isSpent stages = false)
      (h : answers source w (some (element, rest)) w₁)
      (hpush : (pushAll stages element).run w₁ = (.ok (some result, others), w')) :
      Draws answers stages source w (some (result, others, rest)) 1 w'
  | dropped {stages others : List Stage} {source rest : σ} {element : Element} {w w₁ w₂ w' : World}
      {found : Option (Element × List Stage × σ)} {requests : Nat}
      (hopen : isSpent stages = false) (h : answers source w (some (element, rest)) w₁)
      (hpush : (pushAll stages element).run w₁ = (.ok (none, others), w₂))
      (hrest : Draws answers others rest w₂ found requests w') :
      Draws answers stages source w found (requests + 1) w'

/-- Nothing comes through spent stages, and nothing is requested. -/
theorem Draws.of_spent {σ : Type} {answers : Answers σ} {stages : List Stage} {source : σ}
    {w w' : World} {found : Option (Element × List Stage × σ)} {requests : Nat}
    (h : Draws answers stages source w found requests w') (hspent : isSpent stages = true) :
    found = none ∧ requests = 0 ∧ w = w' := by
  cases h with
  | spent => exact ⟨rfl, rfl, rfl⟩
  | ended hopen => cases hopen.symm.trans hspent
  | handed hopen => cases hopen.symm.trans hspent
  | dropped hopen => cases hopen.symm.trans hspent

section Append

variable {σ : Type} {answers : Answers σ} {stages others stages' others' : List Stage}
  {source rest : σ} {element result : Element} {w w₁ w' : World} {requests : Nat}
  {found : Option (Element × List Stage × σ)}

theorem run_pushAll_dropped (h : (pushAll stages element).run w = (.ok (none, stages'), w')) :
    (pushAll (stages ++ others) element).run w = (.ok (none, stages' ++ others), w') := by
  rw [Stage.pushAll_append_stages, EvalM.run_bind_ok h]
  rfl

theorem run_pushAll_handed {outcome : Option Element}
    (h : (pushAll stages element).run w = (.ok (some result, stages'), w₁))
    (hothers : (pushAll others result).run w₁ = (.ok (outcome, others'), w')) :
    (pushAll (stages ++ others) element).run w = (.ok (outcome, stages' ++ others'), w') := by
  rw [Stage.pushAll_append_stages, EvalM.run_bind_ok h, EvalM.run_bind_ok hothers]
  rfl

theorem exists_of_run_pushAll_append {outcome : Option Element} {together : List Stage}
    (h : (pushAll (stages ++ others) element).run w = (.ok (outcome, together), w')) :
    (∃ stages', (pushAll stages element).run w = (.ok (none, stages'), w') ∧ outcome = none ∧
        together = stages' ++ others) ∨
      ∃ result stages' w₁ others',
        (pushAll stages element).run w = (.ok (some result, stages'), w₁) ∧
          (pushAll others result).run w₁ = (.ok (outcome, others'), w') ∧
          together = stages' ++ others' := by
  rw [Stage.pushAll_append_stages] at h
  obtain ⟨⟨_ | result, stages'⟩, w₁, hstages, h⟩ := EvalM.exists_of_run_bind h
  · cases h
    exact .inl ⟨stages', hstages, rfl, rfl⟩
  · obtain ⟨⟨outcome', others'⟩, w₂, hothers, h⟩ := EvalM.exists_of_run_bind h
    cases h
    exact .inr ⟨result, stages', w₁, others', hstages, hothers, rfl⟩

theorem isSpent_append_right (h : isSpent others = true) : isSpent (stages ++ others) = true := by
  rw [isSpent, List.any_append, Bool.or_eq_true]
  exact .inr h

theorem isSpent_append_left (h : isSpent stages = true) : isSpent (stages ++ others) = true := by
  rw [isSpent, List.any_append, Bool.or_eq_true]
  exact .inl h

theorem isSpent_append_eq_false :
    isSpent (stages ++ others) = false ↔ isSpent stages = false ∧ isSpent others = false := by
  rw [isSpent, List.any_append, Bool.or_eq_false_iff, isSpent, isSpent]

/-- No more comes through the first stages, so no more comes through all of them. -/
theorem Draws.append_none (h : Draws answers stages source w none requests w')
    (hopen : isSpent others = false) :
    ∃ requests, Draws answers (stages ++ others) source w none requests w' := by
  generalize hfound : (none : Option (Element × List Stage × σ)) = found at h
  induction h with
  | spent hspent => exact ⟨0, .spent (isSpent_append_left hspent)⟩
  | ended hstages h => exact ⟨1, .ended (isSpent_append_eq_false.2 ⟨hstages, hopen⟩) h⟩
  | handed => cases hfound
  | dropped hstages h hpush _ ih =>
      obtain ⟨requests, hrest⟩ := ih hfound
      exact ⟨_, .dropped (isSpent_append_eq_false.2 ⟨hstages, hopen⟩) h
        (run_pushAll_dropped hpush) hrest⟩

/-- An element that comes through the first stages goes on to the others. -/
theorem Draws.append_some
    (h : Draws answers stages source w (some (result, stages', rest)) requests w₁)
    (hopen : isSpent others = false) :
    (∀ outcome others', (pushAll others result).run w₁ = (.ok (some outcome, others'), w') →
      ∃ requests, Draws answers (stages ++ others) source w
        (some (outcome, stages' ++ others', rest)) requests w') ∧
    ∀ others' w₂ found more,
      (pushAll others result).run w₁ = (.ok (none, others'), w₂) →
      Draws answers (stages' ++ others') rest w₂ found more w' →
      ∃ requests, Draws answers (stages ++ others) source w found requests w' := by
  generalize hfound : some (result, stages', rest) = found at h
  induction h with
  | spent => cases hfound
  | ended => cases hfound
  | handed hstages h hpush =>
      cases hfound
      have hboth := isSpent_append_eq_false.2 ⟨hstages, hopen⟩
      exact ⟨fun _ _ hothers => ⟨_, .handed hboth h (run_pushAll_handed hpush hothers)⟩,
        fun _ _ _ _ hothers hrest => ⟨_, .dropped hboth h (run_pushAll_handed hpush hothers) hrest⟩⟩
  | dropped hstages h hpush _ ih =>
      have hboth := isSpent_append_eq_false.2 ⟨hstages, hopen⟩
      obtain ⟨hhanded, hdropped⟩ := ih hfound
      refine ⟨fun outcome others' hothers => ?_, fun others' w₂ found more hothers hrest => ?_⟩
      · obtain ⟨requests, hdraws⟩ := hhanded outcome others' hothers
        exact ⟨_, .dropped hboth h (run_pushAll_dropped hpush) hdraws⟩
      · obtain ⟨requests, hdraws⟩ := hdropped others' w₂ found more hothers hrest
        exact ⟨_, .dropped hboth h (run_pushAll_dropped hpush) hdraws⟩

end Append

/-- A source answers each request in one way. -/
def Answers.Unique {σ : Type} (answers : Answers σ) : Prop :=
  ∀ source w r r' w' w'', answers source w r w' → answers source w r' w'' → r = r' ∧ w' = w''

theorem Draws.unique {σ : Type} {answers : Answers σ} (hunique : Answers.Unique answers)
    {stages : List Stage} {source : σ} {w w' w'' : World} {requests more : Nat}
    {found other : Option (Element × List Stage × σ)}
    (h : Draws answers stages source w found requests w')
    (hother : Draws answers stages source w other more w'') :
    found = other ∧ requests = more ∧ w' = w'' := by
  induction h generalizing more with
  | spent hspent =>
      obtain ⟨rfl, rfl, rfl⟩ := hother.of_spent hspent
      exact ⟨rfl, rfl, rfl⟩
  | ended hopen h =>
      cases hother with
      | spent hspent => cases hopen.symm.trans hspent
      | ended _ hsame =>
          obtain ⟨-, rfl⟩ := hunique _ _ _ _ _ _ h hsame
          exact ⟨rfl, rfl, rfl⟩
      | handed _ hsame => cases (hunique _ _ _ _ _ _ h hsame).1
      | dropped _ hsame => cases (hunique _ _ _ _ _ _ h hsame).1
  | handed hopen h hpush =>
      cases hother with
      | spent hspent => cases hopen.symm.trans hspent
      | ended _ hsame => cases (hunique _ _ _ _ _ _ h hsame).1
      | handed _ hsame hpushed =>
          obtain ⟨⟨⟩, rfl⟩ := hunique _ _ _ _ _ _ h hsame
          cases hpush.symm.trans hpushed
          exact ⟨rfl, rfl, rfl⟩
      | dropped _ hsame hpushed =>
          obtain ⟨⟨⟩, rfl⟩ := hunique _ _ _ _ _ _ h hsame
          cases hpush.symm.trans hpushed
  | dropped hopen h hpush _ ih =>
      cases hother with
      | spent hspent => cases hopen.symm.trans hspent
      | ended _ hsame => cases (hunique _ _ _ _ _ _ h hsame).1
      | handed _ hsame hpushed =>
          obtain ⟨⟨⟩, rfl⟩ := hunique _ _ _ _ _ _ h hsame
          cases hpush.symm.trans hpushed
      | dropped _ hsame hpushed hrest =>
          obtain ⟨⟨⟩, rfl⟩ := hunique _ _ _ _ _ _ h hsame
          cases hpush.symm.trans hpushed
          obtain ⟨hfound, rfl, hw⟩ := ih hrest
          exact ⟨hfound, rfl, hw⟩

/-- How a feed answers a request. -/
inductive Feed.Answers : RecordAlgebra.Answers Feed
  | ended (w : World) : Answers (.actions []) w none w
  | action {action : EvalM Value} {rest : List (EvalM Value)} {w w' : World} {element : Element}
      (h : (EvalM.attempt action).run w = (.ok element, w')) :
      Answers (.actions (action :: rest)) w (some (element, .actions rest)) w'
  | deferred {elements : EvalM (List Value)} {actions : List (EvalM Value)} {w w₁ w' : World}
      {answer : Option (Element × Feed)}
      (h : (Sequence.settle elements).run w = (.ok actions, w₁))
      (hactions : Answers (.actions actions) w₁ answer w') :
      Answers (.deferred elements) w answer w'
  | endless {element : Nat → EvalM Value} {position : Nat} {w w' : World} {result : Element}
      (h : (EvalM.attempt (element position)).run w = (.ok result, w')) :
      Answers (.endless element position) w (some (result, .endless element (position + 1))) w'

theorem Feed.answers_unique : Answers.Unique Feed.Answers := by
  intro feed w r r' w' w'' h
  induction h with
  | ended w =>
      intro h
      cases h
      exact ⟨rfl, rfl⟩
  | action h =>
      intro h'
      cases h' with
      | action h' =>
          cases h.symm.trans h'
          exact ⟨rfl, rfl⟩
  | deferred h _ ih =>
      intro h'
      cases h' with
      | deferred h' hactions =>
          cases h.symm.trans h'
          exact ih hactions
  | endless h =>
      intro h'
      cases h' with
      | endless h' =>
          cases h.symm.trans h'
          exact ⟨rfl, rfl⟩

namespace Sequence

/-- What is left of a sequence, given the stages and the feed after an element. -/
def resumed (found : Element × List Stage × Feed) : Element × Sequence :=
  (found.1, { feed := found.2.2, stages := found.2.1 })

/-- One pull, however many elements of the feed are looked at for it. -/
def Pulls : Answers Sequence := fun s w r w' =>
  ∃ found requests, Draws Feed.Answers s.stages s.feed w found requests w' ∧ r = found.map resumed

theorem pulls_of_draws {s : Sequence} {w w' : World} {found : Option (Element × List Stage × Feed)}
    {requests : Nat} (h : Draws Feed.Answers s.stages s.feed w found requests w') :
    s.Pulls w (found.map resumed) w' :=
  ⟨found, requests, h, rfl⟩

theorem pulls_unique : Answers.Unique Pulls := by
  rintro s w _ _ w' w'' ⟨found, requests, h, rfl⟩ ⟨other, more, hother, rfl⟩
  obtain ⟨rfl, -, rfl⟩ := h.unique Feed.answers_unique hother
  exact ⟨rfl, rfl⟩

/-- The sequence with more stages at its end. -/
def through (s : Sequence) (stages : List Stage) : Sequence :=
  { s with stages := s.stages ++ stages }

theorem through_nil (s : Sequence) : s.through [] = s := by rw [through, List.append_nil]

theorem through_through (s : Sequence) (stages others : List Stage) :
    (s.through stages).through others = s.through (stages ++ others) := by
  rw [through, through, through, List.append_assoc]

section Next

variable {stages : List Stage} {w w' : World} {r : Option (Element × Sequence)}

theorem pulls_of_nextOf {actions : List (EvalM Value)}
    (h : (nextOf actions stages).run w = (.ok r, w')) :
    Pulls { feed := .actions actions, stages } w r w' := by
  induction actions generalizing stages w with
  | nil =>
      cases h
      by_cases hspent : isSpent stages = true
      · exact pulls_of_draws (.spent hspent)
      · exact pulls_of_draws (.ended (Bool.eq_false_iff.2 hspent) (.ended _))
  | cons action rest ih =>
      rw [nextOf] at h
      split at h
      · next hspent =>
          cases h
          exact pulls_of_draws (.spent hspent)
      · next hspent =>
          have hopen := Bool.eq_false_iff.2 hspent
          obtain ⟨element, w₁, helement, h⟩ := EvalM.exists_of_run_bind h
          obtain ⟨⟨_ | result, others⟩, w₂, hpush, h⟩ := EvalM.exists_of_run_bind h
          · obtain ⟨found, requests, hrest, rfl⟩ := ih h
            exact pulls_of_draws (.dropped hopen (.action helement) hpush hrest)
          · cases h
            exact pulls_of_draws (.handed hopen (.action helement) hpush)

theorem pulls_of_nextEndless {element : Nat → EvalM Value} {limit position : Nat}
    (h : (nextEndless element limit position stages).run w = (.ok r, w')) :
    Pulls { feed := .endless element position, stages } w r w' := by
  induction limit generalizing position stages w with
  | zero => cases h
  | succ limit ih =>
      rw [nextEndless] at h
      split at h
      · next hspent =>
          cases h
          exact pulls_of_draws (.spent hspent)
      · next hspent =>
          have hopen := Bool.eq_false_iff.2 hspent
          obtain ⟨result, w₁, hresult, h⟩ := EvalM.exists_of_run_bind h
          obtain ⟨⟨_ | pushed, others⟩, w₂, hpush, h⟩ := EvalM.exists_of_run_bind h
          · obtain ⟨found, requests, hrest, rfl⟩ := ih h
            exact pulls_of_draws (.dropped hopen (.endless hresult) hpush hrest)
          · cases h
            exact pulls_of_draws (.handed hopen (.endless hresult) hpush)

/-- What pulling ends with is found by requests. -/
theorem pulls_of_next {s : Sequence} (h : s.next.run w = (.ok r, w')) : s.Pulls w r w' := by
  obtain ⟨feed, stages⟩ := s
  cases feed with
  | actions actions => exact pulls_of_nextOf (next_actions actions stages ▸ h)
  | endless element position =>
      rw [next] at h
      split at h
      · next hspent =>
          cases h
          exact pulls_of_draws (.spent hspent)
      · exact pulls_of_nextEndless h
  | deferred elements =>
      rw [next_deferred] at h
      split at h
      · next hspent =>
          cases h
          exact pulls_of_draws (.spent hspent)
      · next hspent =>
          have hopen := Bool.eq_false_iff.2 hspent
          obtain ⟨actions, w₁, hsettle, h⟩ := EvalM.exists_of_run_bind h
          obtain ⟨found, requests, hpulls, rfl⟩ := pulls_of_nextOf h
          cases hpulls with
          | spent hspent => cases hopen.symm.trans hspent
          | ended _ hfeed => exact pulls_of_draws (.ended hopen (.deferred hsettle hfeed))
          | handed _ hfeed hpush =>
              exact pulls_of_draws (.handed hopen (.deferred hsettle hfeed) hpush)
          | dropped _ hfeed hpush hrest =>
              exact pulls_of_draws (.dropped hopen (.deferred hsettle hfeed) hpush hrest)

theorem nextOf_of_draws {actions : List (EvalM Value)} {requests : Nat}
    {found : Option (Element × List Stage × Feed)}
    (h : Draws Feed.Answers stages (.actions actions) w found requests w') :
    (nextOf actions stages).run w = (.ok (found.map resumed), w') := by
  generalize hfeed : Feed.actions actions = feed at h
  induction h generalizing actions with
  | spent hspent =>
      cases actions with
      | nil => rfl
      | cons action rest => rw [nextOf, if_pos hspent]; rfl
  | ended hopen h =>
      subst hfeed
      cases h
      rfl
  | handed hopen h hpush =>
      subst hfeed
      cases h with
      | action h =>
          rw [nextOf, if_neg (Bool.eq_false_iff.1 hopen), EvalM.run_bind_ok h,
            EvalM.run_bind_ok hpush]
          rfl
  | dropped hopen h hpush _ ih =>
      subst hfeed
      cases h with
      | action h =>
          rw [nextOf, if_neg (Bool.eq_false_iff.1 hopen), EvalM.run_bind_ok h,
            EvalM.run_bind_ok hpush]
          exact ih rfl

theorem nextEndless_of_draws {element : Nat → EvalM Value} {position requests : Nat}
    {found : Option (Element × List Stage × Feed)}
    (h : Draws Feed.Answers stages (.endless element position) w found requests w')
    (limit : Nat) :
    ((nextEndless element limit position stages).run w).1 = .error .diverged ∨
      (nextEndless element limit position stages).run w = (.ok (found.map resumed), w') := by
  generalize hfeed : Feed.endless element position = feed at h
  induction h generalizing limit position with
  | spent hspent =>
      cases limit with
      | zero => exact .inl rfl
      | succ limit => exact .inr (by rw [nextEndless, if_pos hspent]; rfl)
  | ended hopen h =>
      subst hfeed
      cases h
  | handed hopen h hpush =>
      subst hfeed
      cases limit with
      | zero => exact .inl rfl
      | succ limit =>
          cases h with
          | endless h =>
              rw [nextEndless, if_neg (Bool.eq_false_iff.1 hopen), EvalM.run_bind_ok h,
                EvalM.run_bind_ok hpush]
              exact .inr rfl
  | dropped hopen h hpush _ ih =>
      subst hfeed
      cases limit with
      | zero => exact .inl rfl
      | succ limit =>
          cases h with
          | endless h =>
              rw [nextEndless, if_neg (Bool.eq_false_iff.1 hopen), EvalM.run_bind_ok h,
                EvalM.run_bind_ok hpush]
              exact ih limit rfl

/-- What is found by requests is what pulling ends with, unless an endless feed goes on for too
long. -/
theorem Pulls.next {s : Sequence} (h : s.Pulls w r w') :
    (s.isFinite = false ∧ (s.next.run w).1 = .error .diverged) ∨
      s.next.run w = (.ok r, w') := by
  obtain ⟨found, requests, hdraws, rfl⟩ := h
  obtain ⟨feed, stages⟩ := s
  cases feed with
  | actions actions =>
      rw [next_actions]
      exact .inr (nextOf_of_draws hdraws)
  | endless element position =>
      rw [Sequence.next]
      split
      · next hspent =>
          obtain ⟨rfl, -, rfl⟩ := hdraws.of_spent hspent
          exact .inr rfl
      · exact (nextEndless_of_draws hdraws patience).imp_left fun h => ⟨rfl, h⟩
  | deferred elements =>
      rw [next_deferred]
      refine .inr ?_
      cases hdraws with
      | spent hspent => rw [if_pos hspent]; rfl
      | ended hopen h =>
          cases h with
          | deferred hsettle h =>
              rw [if_neg (Bool.eq_false_iff.1 hopen), EvalM.run_bind_ok hsettle]
              exact nextOf_of_draws (.ended hopen h)
      | handed hopen h hpush =>
          cases h with
          | deferred hsettle h =>
              rw [if_neg (Bool.eq_false_iff.1 hopen), EvalM.run_bind_ok hsettle]
              exact nextOf_of_draws (.handed hopen h hpush)
      | dropped hopen h hpush hrest =>
          cases h with
          | deferred hsettle h =>
              rw [if_neg (Bool.eq_false_iff.1 hopen), EvalM.run_bind_ok hsettle]
              exact nextOf_of_draws (.dropped hopen h hpush hrest)

end Next

/-- What is left of a sequence with more stages at its end. -/
def resumedThrough (found : Element × List Stage × Sequence) : Element × Sequence :=
  (found.1, found.2.2.through found.2.1)

section Through

variable {stages : List Stage} {s : Sequence} {w w₁ w' : World} {r : Option (Element × Sequence)}
  {found : Option (Element × List Stage × Sequence)} {requests : Nat}

/-- What stages find by requests to a sequence is what the sequence with the stages at its end
gives. -/
theorem pulls_through_of_draws (h : Draws Pulls stages s w found requests w') :
    (s.through stages).Pulls w (found.map resumedThrough) w' := by
  induction h with
  | spent hspent => exact pulls_of_draws (.spent (isSpent_append_right hspent))
  | ended hopen h =>
      obtain ⟨found, requests, hdraws, hfound⟩ := h
      cases Option.map_eq_none_iff.1 hfound.symm
      obtain ⟨requests, hdraws⟩ := hdraws.append_none hopen
      exact ⟨none, requests, hdraws, rfl⟩
  | handed hopen h hpush =>
      obtain ⟨found, requests, hdraws, hfound⟩ := h
      obtain ⟨⟨element, stages, feed⟩, rfl, hleft⟩ := Option.map_eq_some_iff.1 hfound.symm
      cases hleft
      obtain ⟨requests, hdraws⟩ := (hdraws.append_some hopen).1 _ _ hpush
      exact ⟨some _, requests, hdraws, rfl⟩
  | dropped hopen h hpush _ ih =>
      obtain ⟨found, requests, hdraws, hfound⟩ := h
      obtain ⟨⟨element, stages, feed⟩, rfl, hleft⟩ := Option.map_eq_some_iff.1 hfound.symm
      cases hleft
      obtain ⟨found, more, hrest, hr⟩ := ih
      obtain ⟨requests, hdraws⟩ := (hdraws.append_some hopen).2 _ _ _ _ hpush hrest
      exact ⟨found, requests, hdraws, hr⟩

/-- An element that the stages of the sequence drop is not requested from the sequence. -/
theorem draws_of_dropped {s' : Sequence} (hopen : isSpent stages = false)
    (hpulls : ∀ r w', s'.Pulls w₁ r w' → s.Pulls w r w')
    (h : Draws Pulls stages s' w₁ found requests w') :
    Draws Pulls stages s w found requests w' := by
  cases h with
  | spent hspent => cases hopen.symm.trans hspent
  | ended hopen h => exact .ended hopen (hpulls _ _ h)
  | handed hopen h hpush => exact .handed hopen (hpulls _ _ h) hpush
  | dropped hopen h hpush hrest => exact .dropped hopen (hpulls _ _ h) hpush hrest

/-- What a sequence with stages at its end gives is found by requests of the stages to the
sequence. -/
theorem exists_draws_of_pulls_through (h : (s.through stages).Pulls w r w') :
    ∃ found requests, Draws Pulls stages s w found requests w' ∧ r = found.map resumedThrough := by
  obtain ⟨found, requests, hdraws, rfl⟩ := h
  obtain ⟨feed, first⟩ := s
  simp only [through] at hdraws
  generalize hall : first ++ stages = all at hdraws
  induction hdraws generalizing first stages with
  | @spent all feed w hspent =>
      by_cases hstages : isSpent stages = true
      · exact ⟨none, 0, .spent hstages, rfl⟩
      · have hfirst : isSpent first = true := by
          rw [← hall, isSpent, List.any_append, Bool.or_eq_true] at hspent
          exact hspent.resolve_right hstages
        exact ⟨none, 1, .ended (Bool.eq_false_iff.2 hstages) (pulls_of_draws (.spent hfirst)), rfl⟩
  | ended hopen h =>
      subst hall
      obtain ⟨hfirst, hstages⟩ := isSpent_append_eq_false.1 hopen
      exact ⟨none, 1, .ended hstages (pulls_of_draws (.ended hfirst h)), rfl⟩
  | handed hopen h hpush =>
      subst hall
      obtain ⟨hfirst, hstages⟩ := isSpent_append_eq_false.1 hopen
      rcases exists_of_run_pushAll_append hpush with
        ⟨_, _, hnone, _⟩ | ⟨middle, first', w₁, stages', hdrawn, hhanded, rfl⟩
      · cases hnone
      · exact ⟨some (_, stages', _), 1,
          .handed hstages (pulls_of_draws (.handed hfirst h hdrawn)) hhanded, rfl⟩
  | dropped hopen h hpush _ ih =>
      subst hall
      obtain ⟨hfirst, hstages⟩ := isSpent_append_eq_false.1 hopen
      -- Either the stages of the sequence drop the element, or the others do.
      rcases exists_of_run_pushAll_append hpush with
        ⟨first', hdropped, -, rfl⟩ | ⟨middle, first', w₁, stages', hdrawn, hdropped, rfl⟩
      · obtain ⟨found, requests, hrest, hfound⟩ := ih first' rfl
        refine ⟨found, requests, draws_of_dropped hstages ?_ hrest, hfound⟩
        rintro r w' ⟨found, requests, hdraws, rfl⟩
        exact pulls_of_draws (.dropped hfirst h hdropped hdraws)
      · obtain ⟨found, requests, hrest, hfound⟩ := ih first' rfl
        exact ⟨found, _, .dropped hstages (pulls_of_draws (.handed hfirst h hdrawn)) hdropped hrest,
          hfound⟩

end Through

end Sequence

end RecordAlgebra
