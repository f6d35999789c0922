import RecordAlgebra.Proofs.Runs

/-!
# What actions use up

A state may allow for something only so many times, such as reading an input that
is handed through as it comes. An action is described by how much it uses up, by
what holds of its result and by the errors that it may end with. An action that
uses up nothing can be repeated at will, and this is how invariants of the state
are kept.
-/

namespace RecordAlgebra

/-- What holds of a state that allows for so many uses more, what holds of a state in
which an action does not come to its end, and which errors an action may end with. -/
structure Allowance where
  holds : Nat → World → Prop
  stuck : World → Prop
  error : Error → Prop
  holds_of_succ : ∀ n w, holds (n + 1) w → holds n w
  stuck_of_holds : ∀ w, holds 0 w → stuck w

namespace Allowance

variable {A : Allowance} {α : Type} {P Q : α → Prop} {k n : Nat} {w : World}

theorem holds_of_le (hn : k ≤ n) (h : A.holds n w) : A.holds k w := by
  induction hn with
  | refl => exact h
  | step _ ih => exact ih (A.holds_of_succ _ _ h)

/-- What is known at the end of an action. -/
def Ends (A : Allowance) (k : Nat) (P : α → Prop) : Except Stop α × World → Prop
  | (.ok a, w) => A.holds k w ∧ P a
  | (.error (.raised e), w) => A.holds k w ∧ A.error e
  | (.error .diverged, w) => A.stuck w

theorem Ends.mono {outcome : Except Stop α × World} (h : A.Ends k P outcome)
    (hPQ : ∀ a, P a → Q a) : A.Ends k Q outcome := by
  obtain ⟨(e | _) | a, w⟩ := outcome
  · exact h
  · exact h
  · exact ⟨h.1, hPQ a h.2⟩

theorem Ends.fewer {outcome : Except Stop α × World} (h : A.Ends n P outcome) (hk : k ≤ n) :
    A.Ends k P outcome := by
  obtain ⟨(e | _) | a, w⟩ := outcome
  · exact ⟨holds_of_le hk h.1, h.2⟩
  · exact h
  · exact ⟨holds_of_le hk h.1, h.2⟩

end Allowance

/-- The action has a result with the property or ends with an admissible error, and
uses up no more than so much. -/
def Spends {α : Type} (A : Allowance) (n : Nat) (P : α → Prop) (m : EvalM α) : Prop :=
  ∀ k w, A.holds (k + n) w → A.Ends k P (m.run w)

section

variable {A : Allowance} {α β : Type} {P : α → Prop} {Q : β → Prop} {m : EvalM α} {n n' : Nat}

namespace Spends

theorem mono {P' : α → Prop} (h : Spends A n P m) (hP : ∀ a, P a → P' a) : Spends A n P' m := by
  intro k w hw
  have hends := h k w hw
  exact hends.mono hP

/-- What uses up little may be said to use up more. -/
theorem weaken (h : Spends A n P m) (hn : n ≤ n') : Spends A n' P m := by
  intro k w hw
  have hless : A.holds (k + n) w := Allowance.holds_of_le (by omega) hw
  exact h k w hless

/-- The one action after the other uses up what both of them do. -/
theorem bind {f : α → EvalM β} (h : Spends A n P m) (step : ∀ a, P a → Spends A n' Q (f a)) :
    Spends A (n + n') Q (m >>= f) := by
  intro k w hw
  have hm : A.holds (k + n' + n) w := by
    rw [Nat.add_assoc, Nat.add_comm n']
    exact hw
  have hends := h (k + n') w hm
  rw [EvalM.run_bind]
  rcases hrun : m.run w with ⟨(e | _) | a, w'⟩ <;> rw [hrun] at hends
  · exact hends.fewer (Nat.le_add_right k n')
  · exact hends
  · exact step a hends.2 k w' hends.1

/-- An action that uses up nothing may come before any other. -/
theorem first {f : α → EvalM β} (h : Spends A 0 P m) (step : ∀ a, P a → Spends A n Q (f a)) :
    Spends A n Q (m >>= f) := by
  have hsum := h.bind step
  rwa [Nat.zero_add] at hsum

/-- And it may come after any other. -/
theorem last {f : α → EvalM β} (h : Spends A n P m) (step : ∀ a, P a → Spends A 0 Q (f a)) :
    Spends A n Q (m >>= f) :=
  h.bind step

theorem pure {a : α} (h : P a) : Spends A n P (pure a) :=
  fun k _ hw => ⟨Allowance.holds_of_le (Nat.le_add_right k n) hw, h⟩

theorem raise {e : Error} (h : A.error e) : Spends A n P (EvalM.raise e) :=
  fun k _ hw => ⟨Allowance.holds_of_le (Nat.le_add_right k n) hw, h⟩

theorem diverge : Spends A n P EvalM.diverge := by
  intro k w hw
  exact A.stuck_of_holds w (Allowance.holds_of_le (Nat.zero_le _) hw)

theorem lift {result : Except Error α} (hok : ∀ a, result = .ok a → P a)
    (herror : ∀ e, result = .error e → A.error e) : Spends A n P (EvalM.lift result) := by
  cases result with
  | ok a => exact pure (hok a rfl)
  | error e => exact raise (herror e rfl)

theorem get {f : World → EvalM β} (h : ∀ w, Spends A n Q (f w)) :
    Spends A n Q (MonadState.get >>= f) := by
  intro k w hw
  rw [EvalM.run_bind_ok (EvalM.run_get w)]
  exact h w k w hw

/-- What comes next may depend on what is known of the state. -/
theorem getAt {f : World → EvalM β}
    (h : ∀ k w, A.holds (k + n) w → A.Ends k Q ((f w).run w)) :
    Spends A n Q (MonadState.get >>= f) := by
  intro k w hw
  rw [EvalM.run_bind_ok (EvalM.run_get w)]
  exact h k w hw

theorem view {f : (ItemRef → String) → EvalM β} (h : ∀ view, Spends A n Q (f view)) :
    Spends A n Q (EvalM.view >>= f) := by
  intro k w hw
  rw [EvalM.run_bind_ok (EvalM.run_view w)]
  exact h w.view k w hw

theorem modified {f : World → World} (h : ∀ k w, A.holds k w → A.holds k (f w)) :
    Spends A 0 (fun _ => True) (modify f : EvalM PUnit) :=
  fun k w hw => ⟨h k w hw, trivial⟩

theorem listMapM {f : α → EvalM β} {as : List α} (h : ∀ a ∈ as, Spends A 0 Q (f a)) :
    Spends A 0 (fun bs => ∀ b ∈ bs, Q b) (as.mapM f) := by
  induction as with
  | nil => exact pure (by simp)
  | cons a as ih =>
      obtain ⟨ha, has⟩ := List.forall_mem_cons.1 h
      rw [List.mapM_cons]
      refine ha.first fun b hb => (ih has).first fun bs hbs => ?_
      exact pure (List.forall_mem_cons.2 ⟨hb, hbs⟩)

theorem map {f : α → β} (h : Spends A n P m) (step : ∀ a, P a → Q (f a)) :
    Spends A n Q (do return f (← m)) :=
  h.last fun a ha => pure (step a ha)

/-- Errors become results. -/
theorem attempt (h : Spends A n P m) :
    Spends A n (fun outcome => (∀ a, outcome = .ok a → P a) ∧ ∀ e, outcome = .error e → A.error e)
      m.attempt := by
  intro k w hw
  have hends := h k w hw
  rw [EvalM.run_attempt]
  rcases hrun : m.run w with ⟨(e | _) | a, w'⟩ <;> rw [hrun] at hends
  · refine ⟨hends.1, by simp, ?_⟩
    intro e' he'
    cases he'
    exact hends.2
  · exact hends
  · refine ⟨hends.1, ?_, by simp⟩
    intro a' ha'
    cases ha'
    exact hends.2

end Spends

/-- What the one allowance says of a state with `l` uses left is all that the other one asks
for with `k` uses left. -/
structure Allowance.Within (A : Allowance) (l : Nat) (B : Allowance) (k : Nat) : Prop where
  holds : ∀ w, A.holds l w → B.holds k w
  stuck : ∀ w, A.stuck w → B.stuck w
  error : ∀ e, A.error e → B.error e

theorem Allowance.Within.refl (A : Allowance) (k : Nat) : A.Within k A k :=
  ⟨fun _ h => h, fun _ h => h, fun _ h => h⟩

theorem Allowance.Within.ends {B : Allowance} {k l : Nat} (h : A.Within l B k)
    {outcome : Except Stop α × World} (hends : A.Ends l P outcome) : B.Ends k P outcome := by
  obtain ⟨(e | _) | a, w⟩ := outcome
  · exact ⟨h.holds w hends.1, h.error e hends.2⟩
  · exact h.stuck w hends
  · exact ⟨h.holds w hends.1, hends.2⟩

/-- Wherever the allowance holds there is a member of the family that holds as well and that
says at least as much. -/
def Allowance.CoveredBy {ι : Type} (A : Allowance) (family : ι → Allowance) : Prop :=
  ∀ k w, A.holds k w → ∃ i, (family i).holds 0 w ∧ (family i).Within 0 A k

/-- What no member of the family sees used up is not used up. -/
theorem Spends.covered {ι : Type} {family : ι → Allowance} (hA : A.CoveredBy family)
    (h : ∀ i, Spends (family i) 0 P m) : Spends A 0 P m := by
  intro k w hw
  obtain ⟨i, hi, hwithin⟩ := hA k w hw
  exact hwithin.ends (h i 0 w hi)

end

end RecordAlgebra
