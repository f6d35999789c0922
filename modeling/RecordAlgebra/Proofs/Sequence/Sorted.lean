import RecordAlgebra.Proofs.Sequence.Next
import RecordAlgebra.Proofs.Runs
import RecordAlgebra.Proofs.Value.Sorting
import RecordAlgebra.Item.Access

/-!
# Sorted sequences

A sorted sequence reads its source on the first pull. What folding reads is what
pulling gives, one element after the other. So if the source gives values only
and all keys can be found, sorting ends with the values in order, or with one
error that stands in front of the end.
-/

namespace RecordAlgebra

namespace Sequence

/-- Pulling from the one state gives these elements and then the end, in the
other state. -/
inductive Delivers : Sequence → World → List Element → World → Prop
  | done {s : Sequence} {w w' : World} (h : s.next.run w = (.ok none, w')) : Delivers s w [] w'
  | more {s rest : Sequence} {w w' w'' : World} {element : Element} {elements : List Element}
      (h : s.next.run w = (.ok (some (element, rest)), w'))
      (hrest : Delivers rest w' elements w'') : Delivers s w (element :: elements) w''

/-- Pulling gives values and then the end, and the keys of each value are found
before the next one is pulled. -/
inductive Gives (keysOf : Value → EvalM (List Value)) :
    Sequence → World → List (Value.Keyed Value) → World → Prop
  | done {s : Sequence} {w w' : World} (h : s.next.run w = (.ok none, w')) :
      Gives keysOf s w [] w'
  | more {s rest : Sequence} {w w₁ w₂ w₃ : World} {v : Value} {keys : List Value}
      {rows : List (Value.Keyed Value)} (h : s.next.run w = (.ok (some (.ok v, rest)), w₁))
      (hkeys : (keysOf v).run w₁ = (.ok keys, w₂)) (hrest : Gives keysOf rest w₂ rows w₃) :
      Gives keysOf s w ({ keys, value := v } :: rows) w₃

section Fold

variable {σ : Type} (f : σ → Value → EvalM σ)

/-- A fold that looks at no more than so many elements of an endless feed. -/
def foldWithin (steps : Nat) (s : Sequence) (initial : σ) : EvalM σ :=
  match s.feed with
  | .endless element position => foldEndless f element steps position s.stages initial
  | _ => s.fold f initial

theorem fold_eq_foldWithin (s : Sequence) (initial : σ) :
    s.fold f initial = s.foldWithin f patience initial := by
  obtain ⟨feed, stages⟩ := s
  cases feed with
  | endless element position =>
      rw [foldWithin, fold]
      by_cases hspent : isSpent stages = true
      · simp [hspent, patience, foldEndless]
      · simp [hspent]
  | actions elements => rfl
  | deferred elements => rfl

variable {f} {w w' : World} {element : Element} {rest : Sequence}

theorem isFinite_of_nextOf {elements : List (EvalM Value)} {stages : List Stage}
    (h : (nextOf elements stages).run w = (.ok (some (element, rest)), w')) :
    rest.isFinite = true := by
  induction elements generalizing stages w with
  | nil => cases h
  | cons action elements ih =>
      rw [nextOf] at h
      split at h
      · cases h
      · obtain ⟨outcome, w₁, -, h⟩ := EvalM.exists_of_run_bind h
        obtain ⟨⟨_ | result, stages⟩, w₂, -, h⟩ := EvalM.exists_of_run_bind h
        · exact ih h
        · cases h
          rfl

theorem isFinite_of_next {s : Sequence} (hfinite : s.isFinite = true)
    (h : s.next.run w = (.ok (some (element, rest)), w')) : rest.isFinite = true := by
  obtain ⟨feed, stages⟩ := s
  cases feed with
  | actions elements =>
      rw [next_actions] at h
      exact isFinite_of_nextOf h
  | deferred elements =>
      rw [next_deferred] at h
      split at h
      · cases h
      · obtain ⟨actions, w₁, -, h⟩ := EvalM.exists_of_run_bind h
        exact isFinite_of_nextOf h
  | endless element position => cases hfinite

/-- How a fold goes on after a pull, unless it runs out of steps before that. -/
def GoesOn (f : σ → Value → EvalM σ) (a : σ) (w : World) :
    Option (Element × Sequence) → Except Stop σ × World → Prop
  | none, outcome => outcome = (.ok a, w)
  | some (.error e, _), outcome => outcome = (.error (.raised e), w)
  | some (.ok v, rest), outcome =>
      ∃ steps, outcome = (do rest.foldWithin f steps (← f a v) : EvalM σ).run w

theorem foldEndless_next {feed : Nat → EvalM Value} {limit position : Nat} {stages : List Stage}
    {pulled : Option (Element × Sequence)}
    (h : (nextEndless feed limit position stages).run w = (.ok pulled, w')) (steps : Nat) (a : σ) :
    ((foldEndless f feed steps position stages a).run w).1 = .error .diverged ∨
      GoesOn f a w' pulled ((foldEndless f feed steps position stages a).run w) := by
  induction limit generalizing steps position stages w with
  | zero => cases h
  | succ limit ih =>
      cases steps with
      | zero => exact .inl rfl
      | succ steps =>
          rw [nextEndless] at h
          rw [foldEndless]
          by_cases hspent : isSpent stages = true
          · rw [if_pos hspent] at h ⊢
            cases h
            exact .inr rfl
          · rw [if_neg hspent] at h ⊢
            obtain ⟨result, w₁, hresult, h⟩ := EvalM.exists_of_run_bind h
            obtain ⟨⟨pushed, later⟩, w₂, hpushed, h⟩ := EvalM.exists_of_run_bind h
            rw [EvalM.run_bind_ok hresult, EvalM.run_bind_ok hpushed]
            rcases pushed with _ | e | v
            · exact ih h steps
            · cases h
              exact .inr rfl
            · cases h
              exact .inr ⟨steps, rfl⟩

theorem foldWithin_next {s : Sequence} {pulled : Option (Element × Sequence)}
    (h : s.next.run w = (.ok pulled, w')) (steps : Nat) (a : σ) :
    (s.isFinite = false ∧ ((s.foldWithin f steps a).run w).1 = .error .diverged) ∨
      GoesOn f a w' pulled ((s.foldWithin f steps a).run w) := by
  by_cases hfinite : s.isFinite = true
  · refine .inr ?_
    have hfold : s.foldWithin f steps a = s.fold f a := by
      obtain ⟨_ | _ | _, stages⟩ := s
      · rfl
      · rfl
      · cases hfinite
    rw [hfold, fold_eq f hfinite, EvalM.run_bind_ok h]
    rcases pulled with _ | ⟨e | v, rest⟩
    · rfl
    · rfl
    · have hrest := isFinite_of_next hfinite h
      refine ⟨steps, ?_⟩
      obtain ⟨_ | _ | _, stages⟩ := rest
      · rfl
      · rfl
      · cases hrest
  · obtain ⟨_ | _ | ⟨feed, position⟩, stages⟩ := s
    · exact absurd rfl hfinite
    · exact absurd rfl hfinite
    · rw [next] at h
      split at h
      · next hspent =>
          cases h
          rw [foldWithin]
          cases steps with
          | zero => exact .inl ⟨rfl, rfl⟩
          | succ steps =>
              refine .inr ?_
              simp only [foldEndless]
              rw [if_pos hspent]
              rfl
      · exact (foldEndless_next h steps a).imp_left fun hdiverged => ⟨rfl, hdiverged⟩

end Fold

section Rows

variable {keysOf : Value → EvalM (List Value)} {s : Sequence} {w w' : World}
  {rows : List (Value.Keyed Value)}

/-- Rows are read as they are pulled, unless an endless feed goes on for too long. -/
theorem keyed_of_gives (h : s.Gives keysOf w rows w') :
    (s.isFinite = false ∧ ((s.keyed keysOf).run w).1 = .error .diverged) ∨
      (s.keyed keysOf).run w = (.ok rows, w') := by
  let step (rows : List (Value.Keyed Value)) (v : Value) : EvalM (List (Value.Keyed Value)) := do
    let found ← keysOf v
    pure ({ keys := found, value := v } :: rows)
  have folded (steps : Nat) (before : List (Value.Keyed Value)) :
      (s.isFinite = false ∧ ((s.foldWithin step steps before).run w).1 = .error .diverged) ∨
        (s.foldWithin step steps before).run w = (.ok (rows.reverse ++ before), w') := by
    induction h generalizing steps before with
    | done h => exact foldWithin_next h steps before
    | @more s rest w w₁ w₂ w₃ v keys rows h hkeys _ ih =>
        rcases foldWithin_next (f := step) h steps before with hdiverged | ⟨left, hleft⟩
        · exact .inl hdiverged
        · have hstep : (step before v).run w₁ = (.ok ({ keys, value := v } :: before), w₂) := by
            rw [EvalM.run_bind_ok hkeys]
            rfl
          rw [hleft, EvalM.run_bind_ok hstep]
          refine (ih left ({ keys, value := v } :: before)).imp ?_ ?_
          · rintro ⟨hrest, hdiverged⟩
            refine ⟨Bool.eq_false_iff.2 fun hfinite => ?_, hdiverged⟩
            rw [isFinite_of_next hfinite h] at hrest
            cases hrest
          · intro hrest
            rw [hrest]
            simp
  have hkeyed : s.keyed keysOf = do return (← s.foldWithin step patience []).reverse := by
    rw [← fold_eq_foldWithin]
    rfl
  rw [hkeyed]
  refine (folded patience []).imp ?_ ?_
  · rintro ⟨hfinite, hdiverged⟩
    refine ⟨hfinite, ?_⟩
    rw [EvalM.run_bind]
    split
    · next heq => rw [heq] at hdiverged; cases hdiverged
    · next heq => rw [heq] at hdiverged; exact hdiverged
  · intro hrows
    rw [EvalM.run_bind_ok hrows]
    simp

/-- The sequence gives these rows, and reading all of them comes to an end. -/
structure ReadsRows (keysOf : Value → EvalM (List Value)) (s : Sequence) (w : World)
    (rows : List (Value.Keyed Value)) (w' : World) : Prop where
  gives : s.Gives keysOf w rows w'
  ends : ((s.keyed keysOf).run w).1 ≠ .error .diverged

theorem ReadsRows.keyed (h : s.ReadsRows keysOf w rows w') :
    (s.keyed keysOf).run w = (.ok rows, w') :=
  (keyed_of_gives h.gives).resolve_left fun hdiverged => h.ends hdiverged.2

/-- A sequence that does not stem from an endless feed can always be read. -/
theorem Gives.readsRows (h : s.Gives keysOf w rows w') (hfinite : s.isFinite = true) :
    s.ReadsRows keysOf w rows w' := by
  refine ⟨h, fun hdiverged => ?_⟩
  rcases keyed_of_gives h with ⟨hendless, -⟩ | hrows
  · rw [hfinite] at hendless
    cases hendless
  · rw [hrows] at hdiverged
    cases hdiverged

theorem Gives.length_keys {n : Nat} (h : s.Gives keysOf w rows w')
    (hlength : ∀ v w keys w', (keysOf v).run w = (.ok keys, w') → keys.length = n) :
    ∀ row ∈ rows, row.keys.length = n := by
  induction h with
  | done _ => simp
  | more _ hkeys _ ih => exact List.forall_mem_cons.2 ⟨hlength _ _ _ _ hkeys, ih⟩

end Rows

section Delivers

variable {s : Sequence} {w w' : World} {m : EvalM (List Value)} {vs : List Value}

theorem Delivers.unique {elements others : List Element} {w'' : World}
    (h : s.Delivers w elements w') (h' : s.Delivers w others w'') :
    elements = others ∧ w' = w'' := by
  induction h generalizing others w'' with
  | done h =>
      cases h' with
      | done h' =>
          rw [h] at h'
          cases h'
          exact ⟨rfl, rfl⟩
      | more h' _ => rw [h] at h'; cases h'
  | more h _ ih =>
      cases h' with
      | done h' => rw [h] at h'; cases h'
      | more h' hrest =>
          rw [h] at h'
          cases h'
          obtain ⟨rfl, rfl⟩ := ih hrest
          exact ⟨rfl, rfl⟩

theorem delivers_ofValues (vs : List Value) (w : World) :
    (ofValues vs).Delivers w (vs.map .ok) w := by
  induction vs with
  | nil => exact .done rfl
  | cons v vs ih => exact .more rfl ih

/-- A deferred feed delivers what it finds. -/
theorem delivers_ofDeferred (h : m.run w = (.ok vs, w')) :
    (ofDeferred m).Delivers w (vs.map .ok) w' := by
  have hsettle : (settle m).run w = (.ok (vs.map pure), w') := by
    rw [settle, EvalM.run_bind_ok (EvalM.run_attempt_ok h)]
    rfl
  have hnext : (ofDeferred m).next.run w = (ofValues vs).next.run w' := by
    rw [ofDeferred, next_deferred, ofValues, ofActions, next_actions]
    exact EvalM.run_bind_ok hsettle _
  cases vs with
  | nil => exact .done hnext
  | cons v vs => exact .more hnext (delivers_ofValues vs w')

/-- If it finds nothing but an error, that is the only element. -/
theorem delivers_ofDeferred_error {e : Error} (h : m.run w = (.error (.raised e), w')) :
    (ofDeferred m).Delivers w [.error e] w' := by
  have hattempt : m.attempt.run w = (.ok (.error e), w') := by rw [EvalM.run_attempt, h]
  have hsettle : (settle m).run w = (.ok [EvalM.raise e], w') := by
    rw [settle, EvalM.run_bind_ok hattempt]
    rfl
  have hnext : (ofDeferred m).next.run w =
      (.ok (some (.error e, { feed := .actions [], stages := [] })), w') := by
    rw [ofDeferred, next_deferred]
    exact EvalM.run_bind_ok hsettle _
  exact .more hnext (.done rfl)

end Delivers

section Sorted

variable {keysOf : Value → EvalM (List Value)} {directions : List Direction} {s : Sequence}
  {w w' : World} {rows : List (Value.Keyed Value)}

theorem delivers_sorted (hreads : s.ReadsRows keysOf w rows w')
    (hsortable : Value.Sortable directions rows) (hall : Value.AllComparable directions rows) :
    ∃ values, (s.sorted keysOf directions).Delivers w (values.map .ok) w' ∧
      Value.IsSorted directions rows values := by
  obtain ⟨values, hvalues, hsorted⟩ := Value.sortKeyed_of_allComparable hsortable hall
  refine ⟨values, delivers_ofDeferred ?_, hsorted⟩
  rw [EvalM.run_bind_ok hreads.keyed, hvalues]
  rfl

theorem delivers_sorted_error (hreads : s.ReadsRows keysOf w rows w')
    (hsortable : Value.Sortable directions rows) (hall : ¬Value.AllComparable directions rows) :
    ∃ e, e.kind = .typeMismatch ∧ (s.sorted keysOf directions).Delivers w [.error e] w' := by
  obtain ⟨e, he, hkind⟩ := Value.sortKeyed_of_not_allComparable hsortable hall
  refine ⟨e, hkind, delivers_ofDeferred_error ?_⟩
  rw [EvalM.run_bind_ok hreads.keyed, he]
  rfl

/-- Whether pulling to the end gives values only. -/
def Succeeds (s : Sequence) (w : World) : Prop :=
  ∃ values w', s.Delivers w (List.map .ok values) w'

theorem succeeds_sorted_iff (hreads : s.ReadsRows keysOf w rows w')
    (hsortable : Value.Sortable directions rows) :
    (s.sorted keysOf directions).Succeeds w ↔ Value.AllComparable directions rows := by
  constructor
  · rintro ⟨values, w'', hdelivers⟩
    refine Classical.byContradiction fun hall => ?_
    obtain ⟨e, -, herror⟩ := delivers_sorted_error hreads hsortable hall
    obtain ⟨heq, -⟩ := hdelivers.unique herror
    cases values <;> cases heq
  · intro hall
    obtain ⟨values, hdelivers, -⟩ := delivers_sorted hreads hsortable hall
    exact ⟨values, w', hdelivers⟩

end Sorted

end Sequence

namespace Expr

variable {access : ItemAccess EvalM} {scope : Scope}

theorem length_evalKeys {keys : List (Expr × Direction)} {w w' : World} {vs : List Value}
    (h : (evalKeys access scope keys).run w = (.ok vs, w')) : vs.length = keys.length := by
  induction keys generalizing w vs with
  | nil =>
      rw [evalKeys] at h
      cases h
      rfl
  | cons key rest ih =>
      obtain ⟨e, direction⟩ := key
      rw [evalKeys] at h
      obtain ⟨output, w₁, -, h⟩ := EvalM.exists_of_run_bind h
      obtain ⟨v, w₂, -, h⟩ := EvalM.exists_of_run_bind h
      obtain ⟨others, w₃, hothers, h⟩ := EvalM.exists_of_run_bind h
      cases h
      simp [ih hothers]

theorem sortable_of_reads {keys : List (Expr × Direction)} {s : Sequence} {w w' : World}
    {rows : List (Value.Keyed Value)}
    (h : s.ReadsRows (fun v => evalKeys access (.value v :: scope) keys) w rows w')
    (hunmixed : ∀ i, Value.Unmixed (Value.column rows i)) :
    Value.Sortable (keys.map Prod.snd) rows where
  length row hrow := by
    rw [List.length_map]
    exact h.gives.length_keys (fun _ _ _ _ hkeys => length_evalKeys hkeys) row hrow
  unmixed := hunmixed

end Expr

end RecordAlgebra
