import RecordAlgebra.Proofs.Runs

/-!
# Results that can be relied on

An action ensures a property of its results if it has the property whenever the
action ends with a result. What is known of the state must hold before the action,
and it holds again after it, even if the action fails.
-/

namespace RecordAlgebra

/-- From every state with the invariant, the action leads to a state with the
invariant, and its result has the property. -/
def Ensures {α : Type} (I : World → Prop) (P : α → Prop) (m : EvalM α) : Prop :=
  ∀ w, I w → I (m.run w).2 ∧ ∀ a, (m.run w).1 = .ok a → P a

namespace Ensures

variable {α β : Type} {I : World → Prop} {P : α → Prop} {Q : β → Prop} {m : EvalM α}

theorem mono {P' : α → Prop} (h : Ensures I P m) (hP : ∀ a, P a → P' a) : Ensures I P' m :=
  fun w hw => ⟨(h w hw).1, fun a ha => hP a ((h w hw).2 a ha)⟩

theorem pure {a : α} (h : P a) : Ensures I P (pure a) := by
  intro w hw
  refine ⟨hw, fun b hb => ?_⟩
  cases hb
  exact h

theorem throw (stop : Stop) : Ensures I P (throwThe Stop stop) :=
  fun _ hw => ⟨hw, fun _ ha => by cases ha⟩

theorem raise (e : Error) : Ensures I P (EvalM.raise e) := throw _

theorem fail (cause : Cause) : Ensures I P (EvalM.fail cause) := throw _

theorem diverge : Ensures I P EvalM.diverge := throw _

theorem lift {result : Except Error α} (h : ∀ a, result = .ok a → P a) :
    Ensures I P (EvalM.lift result) := by
  cases result with
  | ok a => exact pure (h a rfl)
  | error e => exact raise e

theorem bind {f : α → EvalM β} (h : Ensures I P m) (step : ∀ a, P a → Ensures I Q (f a)) :
    Ensures I Q (m >>= f) := by
  intro w hw
  obtain ⟨hafter, hresult⟩ := h w hw
  rw [EvalM.run_bind]
  rcases hm : m.run w with ⟨stop | a, w'⟩ <;> rw [hm] at hafter hresult
  · exact ⟨hafter, fun _ hb => by cases hb⟩
  · exact step a (hresult a rfl) w' hafter

theorem map {f : α → β} (h : Ensures I P m) (step : ∀ a, P a → Q (f a)) :
    Ensures I Q (do return f (← m)) :=
  h.bind fun a ha => pure (step a ha)

/-- An action may depend on the state that it finds. -/
theorem get {f : World → EvalM β} (h : ∀ w, I w → Ensures I Q (f w)) :
    Ensures I Q (MonadState.get >>= f) := by
  intro w hw
  rw [EvalM.run_bind_ok (EvalM.run_get w)]
  exact h w hw w hw

theorem view {f : (ItemRef → String) → EvalM β} (h : ∀ view, Ensures I Q (f view)) :
    Ensures I Q (EvalM.view >>= f) := by
  intro w hw
  rw [EvalM.run_bind_ok (EvalM.run_view w)]
  exact h w.view w hw

theorem modified {f : World → World} {P : PUnit → Prop} (h : ∀ w, I w → I (f w)) (hP : P ()) :
    Ensures I P (modify f) :=
  fun w hw => ⟨h w hw, fun _ _ => hP⟩

/-- Errors become results, about which nothing is known. -/
theorem attempt (h : Ensures I P m) :
    Ensures I (fun outcome => ∀ a, outcome = .ok a → P a) m.attempt := by
  intro w hw
  obtain ⟨hafter, hresult⟩ := h w hw
  rw [EvalM.run_attempt]
  rcases hm : m.run w with ⟨(e | _) | a, w'⟩ <;> rw [hm] at hafter hresult
  · refine ⟨hafter, fun outcome houtcome a ha => ?_⟩
    cases houtcome
    cases ha
  · exact ⟨hafter, fun _ houtcome => by cases houtcome⟩
  · refine ⟨hafter, fun outcome houtcome b hb => ?_⟩
    cases houtcome
    cases hb
    exact hresult a rfl

theorem listMapM {f : α → EvalM β} {as : List α} (h : ∀ a ∈ as, Ensures I Q (f a)) :
    Ensures I (fun bs => ∀ b ∈ bs, Q b) (as.mapM f) := by
  induction as with
  | nil => exact pure fun _ hb => by cases hb
  | cons a as ih =>
      obtain ⟨ha, has⟩ := List.forall_mem_cons.1 h
      rw [List.mapM_cons]
      refine ha.bind fun b hb => (ih has).bind fun bs hbs => ?_
      exact pure (List.forall_mem_cons.2 ⟨hb, hbs⟩)

end Ensures

end RecordAlgebra
