import RecordAlgebra.Sequence

/-!
# Pulling and stages

A sequence with one more stage is pulled by pulling the sequence and pushing
what comes into the stage, and folding pulls until nothing comes. This holds for
all feeds but the endless ones, where it is known how long pulling goes on.
-/

namespace RecordAlgebra

namespace Stage

/-- An element goes through the first stages and, unless they drop it, through the others. -/
theorem pushAll_append_stages (stages others : List Stage) (element : Element) :
    pushAll (stages ++ others) element = (do
      match ← pushAll stages element with
      | (none, stages) => pure (none, stages ++ others)
      | (some element, stages) => do
          let (result, others) ← pushAll others element
          pure (result, stages ++ others)) := by
  induction stages generalizing element with
  | nil => simp [pushAll]
  | cons first rest ih =>
      simp only [List.cons_append, pushAll, bind_assoc]
      congr 1
      funext outcome
      rcases outcome with ⟨_ | result, first⟩
      · simp
      · simp only [ih, bind_assoc, pure_bind]
        congr 1
        funext outcome
        rcases outcome with ⟨_ | result, rest⟩ <;> simp

theorem pushAll_append (stages : List Stage) (stage : Stage) (element : Element) :
    pushAll (stages ++ [stage]) element = (do
      match ← pushAll stages element with
      | (none, stages) => pure (none, stages ++ [stage])
      | (some element, stages) => do
          let (result, stage) ← stage.push element
          pure (result, stages ++ [stage])) := by
  rw [pushAll_append_stages]
  congr 1
  funext outcome
  rcases outcome with ⟨_ | result, stages⟩
  · rfl
  · simp only [pushAll, bind_assoc]
    congr 1
    funext outcome
    rcases outcome with ⟨_ | result, stage⟩ <;> simp

end Stage

namespace Sequence

/-- Whether it is known how long pulling may go on. -/
def isFinite (s : Sequence) : Bool :=
  match s.feed with
  | .endless .. => false
  | _ => true

theorem isSpent_append (stages : List Stage) (stage : Stage) :
    isSpent (stages ++ [stage]) = (isSpent stages || stage.isSpent) := by
  simp [isSpent]

theorem next_actions (elements : List (EvalM Value)) (stages : List Stage) :
    next { feed := .actions elements, stages } = nextOf elements stages := by
  cases elements with
  | nil => simp [next, nextOf]
  | cons action rest =>
      simp only [next, nextOf]
      split <;> rfl

theorem next_deferred (elements : EvalM (List Value)) (stages : List Stage) :
    next { feed := .deferred elements, stages } =
      if isSpent stages then pure none
      else settle elements >>= fun actions => nextOf actions stages := rfl

theorem nextOf_append (elements : List (EvalM Value)) (stages : List Stage) (stage : Stage) :
    nextOf elements (stages ++ [stage]) =
      if stage.isSpent then pure none
      else (do
        match ← nextOf elements stages with
        | none => pure none
        | some (element, rest) => do
            match ← stage.push element with
            | (some result, stage) => pure (some (result, rest.then_ stage))
            | (none, stage) => (rest.then_ stage).next) := by
  induction elements generalizing stages with
  | nil => simp [nextOf]
  | cons action rest ih =>
      by_cases hstage : stage.isSpent = true
      · simp [nextOf, isSpent_append, hstage]
      · simp only [hstage] at ih ⊢
        by_cases hspent : isSpent stages = true
        · simp [nextOf, isSpent_append, hspent]
        · simp only [nextOf, isSpent_append, hstage, hspent, Bool.or_false, Bool.false_eq_true,
            if_false, bind_assoc, Stage.pushAll_append]
          congr 1
          funext element
          congr 1
          funext outcome
          rcases outcome with ⟨_ | result, stages⟩
          · simpa using ih stages
          · simp only [bind_assoc, pure_bind]
            congr 1
            funext outcome
            rcases outcome with ⟨_ | result, stage⟩
            · simp [then_, next_actions]
            · simp [then_]

/-- A stage at the end of a sequence takes what the sequence gives. -/
theorem next_then {s : Sequence} (hfinite : s.isFinite = true) (stage : Stage) :
    (s.then_ stage).next =
      if stage.isSpent then pure none
      else (do
        match ← s.next with
        | none => pure none
        | some (element, rest) => do
            match ← stage.push element with
            | (some result, stage) => pure (some (result, rest.then_ stage))
            | (none, stage) => (rest.then_ stage).next) := by
  obtain ⟨feed, stages⟩ := s
  cases feed with
  | actions elements =>
      rw [next_actions]
      exact (next_actions _ _).trans (nextOf_append elements stages stage)
  | deferred elements =>
      refine (next_deferred elements (stages ++ [stage])).trans ?_
      rw [next_deferred, isSpent_append]
      by_cases hstage : stage.isSpent = true
      · simp [hstage]
      · by_cases hspent : isSpent stages = true
        · simp [hspent]
        · simp only [hstage, hspent, Bool.or_false, Bool.false_eq_true, if_false]
          rw [bind_assoc]
          congr 1
          funext actions
          simp only [nextOf_append, hstage, Bool.false_eq_true, if_false]
  | endless element position => cases hfinite

section Fold

variable {σ : Type} (f : σ → Value → EvalM σ)

theorem fold_actions (elements : List (EvalM Value)) (stages : List Stage) (state : σ) :
    fold f { feed := .actions elements, stages } state = foldOf f elements stages state := by
  cases elements with
  | nil => simp [fold, foldOf]
  | cons action rest =>
      simp only [fold, foldOf]
      split <;> rfl

theorem foldOf_eq (elements : List (EvalM Value)) (stages : List Stage) (state : σ) :
    foldOf f elements stages state = (do
      match ← nextOf elements stages with
      | none => pure state
      | some (.error error, _) => EvalM.raise error
      | some (.ok v, rest) => rest.fold f (← f state v)) := by
  induction elements generalizing stages with
  | nil => simp [foldOf, nextOf]
  | cons action rest ih =>
      by_cases hspent : isSpent stages = true
      · simp [foldOf, nextOf, hspent]
      · simp only [foldOf, nextOf, hspent, Bool.false_eq_true, if_false, bind_assoc]
        congr 1
        funext element
        congr 1
        funext outcome
        rcases outcome with ⟨_ | (error | v), stages⟩
        · exact ih stages
        · simp
        · simp [fold_actions]

/-- Folding pulls an element and folds the rest. -/
theorem fold_eq {s : Sequence} (hfinite : s.isFinite = true) (state : σ) :
    s.fold f state = (do
      match ← s.next with
      | none => pure state
      | some (.error error, _) => EvalM.raise error
      | some (.ok v, rest) => rest.fold f (← f state v)) := by
  obtain ⟨feed, stages⟩ := s
  cases feed with
  | actions elements =>
      rw [fold_actions, next_actions]
      exact foldOf_eq f elements stages state
  | deferred elements =>
      by_cases hspent : isSpent stages = true
      · simp [fold, next, hspent]
      · rw [fold, next]
        simp only [hspent, Bool.false_eq_true, if_false, bind_assoc]
        congr 1
        funext elements
        exact foldOf_eq f elements stages state
  | endless element position => cases hfinite

/-- Folding values that are there is folding the list. -/
theorem foldOf_pure (vs : List Value) (state : σ) :
    foldOf f (vs.map pure) [] state = vs.foldlM f state := by
  induction vs generalizing state with
  | nil => rfl
  | cons v vs ih =>
      rw [List.foldlM_cons, ← funext ih]
      rfl

theorem fold_ofValues (vs : List Value) (state : σ) :
    (ofValues vs).fold f state = vs.foldlM f state :=
  foldOf_pure f vs state

end Fold

end Sequence

end RecordAlgebra
