import RecordAlgebra.World

/-!
# How actions end

An action that is run from a state ends with a result, an error or not at all,
in another state. What a composed action does is read off its parts. `Agrees`
compares the end of an action with a result or a kind of error that is known
otherwise.
-/

namespace RecordAlgebra

namespace EvalM

variable {α β : Type}

@[simp] theorem run_pure (a : α) (w : World) : (pure a : EvalM α).run w = (.ok a, w) := rfl

theorem run_bind (m : EvalM α) (f : α → EvalM β) (w : World) :
    (m >>= f).run w =
      match m.run w with
      | (.ok a, w') => (f a).run w'
      | (.error stop, w') => (.error stop, w') := by
  simp only [bind, ExceptT.bind, ExceptT.run, ExceptT.mk, StateT.bind, ExceptT.bindCont]
  rcases m w with ⟨_ | _, _⟩ <;> rfl

theorem run_bind_ok {m : EvalM α} {w w' : World} {a : α} (h : m.run w = (.ok a, w'))
    (f : α → EvalM β) : (m >>= f).run w = (f a).run w' := by
  rw [run_bind, h]

theorem run_bind_error {m : EvalM α} {w w' : World} {stop : Stop}
    (h : m.run w = (.error stop, w')) (f : α → EvalM β) :
    (m >>= f).run w = (.error stop, w') := by
  rw [run_bind, h]

/-- A composed action has a result only if both of its parts do. -/
theorem exists_of_run_bind {m : EvalM α} {f : α → EvalM β} {w w' : World} {b : β}
    (h : (m >>= f).run w = (.ok b, w')) :
    ∃ a w₁, m.run w = (.ok a, w₁) ∧ (f a).run w₁ = (.ok b, w') := by
  rw [run_bind] at h
  rcases hm : m.run w with ⟨stop | a, w₁⟩ <;> rw [hm] at h
  · cases h
  · exact ⟨a, w₁, rfl, h⟩

@[simp] theorem run_get (w : World) : (get : EvalM World).run w = (.ok w, w) := rfl

@[simp] theorem run_set (w w' : World) : (set w' : EvalM Unit).run w = (.ok (), w') := rfl

@[simp] theorem run_modify (f : World → World) (w : World) :
    (modify f : EvalM Unit).run w = (.ok (), f w) := rfl

@[simp] theorem run_raise (e : Error) (w : World) :
    (raise e : EvalM α).run w = (.error (.raised e), w) := rfl

@[simp] theorem run_fail (cause : Cause) (w : World) :
    (fail cause : EvalM α).run w = (.error (.raised (.ofCause cause)), w) := rfl

@[simp] theorem run_throw (e : Error) (w : World) :
    (throwThe Error e : EvalM α).run w = (.error (.raised e), w) := rfl

@[simp] theorem run_view (w : World) : view.run w = (.ok w.view, w) := rfl

@[simp] theorem run_lift_ok (a : α) (w : World) : (lift (.ok a)).run w = (.ok a, w) := rfl

@[simp] theorem run_lift_error (e : Error) (w : World) :
    (lift (.error e : Except Error α)).run w = (.error (.raised e), w) := rfl

theorem of_run_lift_eq_ok {result : Except Error α} {w w' : World} {a : α}
    (h : (lift result).run w = (.ok a, w')) : result = .ok a ∧ w' = w := by
  cases result with
  | ok b =>
      cases h
      exact ⟨rfl, rfl⟩
  | error e => cases h

theorem run_attempt (m : EvalM α) (w : World) :
    (attempt m).run w =
      match m.run w with
      | (.ok a, w') => (.ok (.ok a), w')
      | (.error (.raised e), w') => (.ok (.error e), w')
      | (.error .diverged, w') => (.error .diverged, w') := rfl

theorem run_attempt_ok {m : EvalM α} {w w' : World} {a : α} (h : m.run w = (.ok a, w')) :
    (attempt m).run w = (.ok (.ok a), w') := by
  rw [run_attempt, h]

theorem bind_assoc' {γ : Type} (m : EvalM α) (f : α → EvalM β) (g : β → EvalM γ) :
    (m >>= f) >>= g = m >>= fun a => f a >>= g :=
  bind_assoc m f g

end EvalM

/-- Whether an outcome is the expected one: a result that is related to the
expected result, or an error of the expected kind. -/
def Agrees {α β : Type} (R : α → β → Prop) : Except Error α → Except ErrorKind β → Prop
  | .ok a, .ok b => R a b
  | .error e, .error kind => e.kind = kind
  | _, _ => False

/-- Whether an action ended as expected. Not to end at all is never expected. -/
def EndsAs {α β : Type} (R : α → β → Prop) : Except Stop α → Except ErrorKind β → Prop
  | .ok a, .ok b => R a b
  | .error (.raised e), .error kind => e.kind = kind
  | _, _ => False

section

variable {α β : Type} {R S : α → β → Prop}

theorem Agrees.mono {x : Except Error α} {y : Except ErrorKind β} (h : Agrees R x y)
    (hRS : ∀ a b, R a b → S a b) : Agrees S x y := by
  cases x with
  | ok a =>
      cases y with
      | ok b => exact hRS a b h
      | error kind => exact h
  | error e =>
      cases y with
      | ok b => exact h
      | error kind => exact h

theorem Agrees.bind {α' β' : Type} {T : α' → β' → Prop} {x : Except Error α}
    {y : Except ErrorKind β} {f : α → Except Error α'} {g : β → Except ErrorKind β'}
    (h : Agrees R x y) (step : ∀ a b, R a b → Agrees T (f a) (g b)) :
    Agrees T (x >>= f) (y >>= g) := by
  cases x with
  | ok a =>
      cases y with
      | ok b => exact step a b h
      | error kind => exact h.elim
  | error e =>
      cases y with
      | ok b => exact h.elim
      | error kind => exact h

theorem EndsAs.mono {x : Except Stop α} {y : Except ErrorKind β} (h : EndsAs R x y)
    (hRS : ∀ a b, R a b → S a b) : EndsAs S x y := by
  rcases x with (_ | _) | _ <;> cases y <;> first | exact h | exact hRS _ _ h

theorem EndsAs.ok_right {x : Except Stop α} {b : β} (h : EndsAs R x (.ok b)) :
    ∃ a, x = .ok a ∧ R a b := by
  rcases x with (e | _) | a
  · exact h.elim
  · exact h.elim
  · exact ⟨a, rfl, h⟩

theorem EndsAs.error_right {x : Except Stop α} {kind : ErrorKind}
    (h : EndsAs R x (.error kind)) : ∃ e, x = .error (.raised e) ∧ e.kind = kind := by
  rcases x with (e | _) | a
  · exact ⟨e, rfl, h⟩
  · exact h.elim
  · exact h.elim

theorem endsAs_lift {result : Except Error α} {y : Except ErrorKind β}
    (h : Agrees R result y) (w : World) :
    ∃ x, (EvalM.lift result).run w = (x, w) ∧ EndsAs R x y := by
  cases result with
  | ok a => exact ⟨.ok a, rfl, by cases y <;> exact h⟩
  | error e => exact ⟨.error (.raised e), rfl, by cases y <;> exact h⟩

end

namespace EvalM

/-- The action leaves the state as it is. It has this result, or it raises an error if there is
none. -/
def Gives {α : Type} (action : EvalM α) : Option α → Prop
  | some a => ∀ w, action.run w = (.ok a, w)
  | none => ∀ w, ∃ e, action.run w = (.error (.raised e), w)

section Gives

variable {α β σ : Type}

theorem gives_pure (a : α) : (pure a : EvalM α).Gives (some a) := fun _ => rfl

theorem gives_fail (cause : Cause) : (fail cause : EvalM α).Gives none := fun _ => ⟨_, rfl⟩

theorem gives_lift (result : Except Error α) : (lift result).Gives result.toOption := by
  cases result with
  | ok a => exact fun _ => rfl
  | error e => exact fun _ => ⟨e, rfl⟩

theorem gives_view {f : (ItemRef → String) → EvalM α} {result : Option α}
    (h : ∀ text, (f text).Gives result) : (view >>= f).Gives result := by
  cases result with
  | some a => exact fun w => (run_bind_ok (run_view w) f).trans (h w.view w)
  | none =>
      intro w
      obtain ⟨e, hrun⟩ := h w.view w
      exact ⟨e, (run_bind_ok (run_view w) f).trans hrun⟩

theorem Gives.bind {action : EvalM α} {result : Option α} {f : α → EvalM β} {g : α → Option β}
    (h : action.Gives result) (step : ∀ a, (f a).Gives (g a)) :
    (action >>= f).Gives (result.bind g) := by
  cases result with
  | some a =>
      have hstep := step a
      rw [Option.bind_some]
      cases hg : g a with
      | some b => exact fun w => (run_bind_ok (h w) f).trans ((hg ▸ hstep) w)
      | none =>
          intro w
          obtain ⟨e, hrun⟩ := (hg ▸ hstep : (f a).Gives none) w
          exact ⟨e, (run_bind_ok (h w) f).trans hrun⟩
  | none =>
      intro w
      obtain ⟨e, hrun⟩ := h w
      exact ⟨e, run_bind_error hrun f⟩

theorem Gives.foldlM {f : σ → α → EvalM σ} {g : σ → α → Option σ}
    (step : ∀ state a, (f state a).Gives (g state a)) (as : List α) (state : σ) :
    (as.foldlM f state).Gives (as.foldlM g state) := by
  induction as generalizing state with
  | nil => exact gives_pure state
  | cons a as ih =>
      rw [List.foldlM_cons, List.foldlM_cons]
      exact (step state a).bind ih

theorem Gives.mapM {f : α → EvalM β} {g : α → Option β} (step : ∀ a, (f a).Gives (g a))
    (as : List α) : (as.mapM f).Gives (as.mapM g) := by
  induction as with
  | nil => exact gives_pure []
  | cons a as ih =>
      rw [List.mapM_cons, List.mapM_cons]
      exact (step a).bind fun b => ih.bind fun bs => gives_pure (b :: bs)

end Gives

end EvalM

end RecordAlgebra
