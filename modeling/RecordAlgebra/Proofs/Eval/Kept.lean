import RecordAlgebra.Proofs.Eval.InputReads
import RecordAlgebra.Proofs.Eval.Running
import RecordAlgebra.Proofs.Sequence.Sorted

/-!
# Inputs that are kept

An input that is kept is opened and collected by the first read. If that succeeds, all reads
give the same elements. If it fails, nothing is kept of it, neither elements nor the error:
the input is consumed, and all later reads fail because of that.
-/

namespace RecordAlgebra

/-- The action leaves the input in the cell as it is. -/
def EvalM.Spares {α : Type} (cell : Nat) (m : EvalM α) : Prop :=
  ∀ w state, w.inputs[cell]? = some state → (m.run w).2.inputs[cell]? = some state

/-- Counting that an input is opened does nothing to it. -/
theorem EvalM.Spares.countOpening {α β : Type} {cell : Nat} {m : EvalM α} {f : α → EvalM β}
    (h : (m >>= f).Spares cell) : (EvalM.countOpening m >>= f).Spares cell := by
  intro w state hw
  rw [EvalM.countOpening, bind_assoc, EvalM.run_bind_ok (EvalM.run_modify _ w)]
  exact h _ state hw

/-- Elements that are there are pulled without any effect. -/
theorem Sequence.run_collect_ofElements (elements : List Element) (w : World) :
    ((Sequence.ofElements elements).collect.run w).2 = w := by
  have hfold (found : List Value) : ((Sequence.foldOf (fun found v => pure (v :: found))
      (elements.map EvalM.lift) [] found).run w).2 = w := by
    induction elements generalizing found with
    | nil => rfl
    | cons element rest ih =>
        cases element with
        | error e => rfl
        | ok v => exact ih (v :: found)
  have hcollect := hfold []
  rw [Sequence.collect, Sequence.ofElements, Sequence.ofActions, Sequence.fold_actions,
    EvalM.run_bind]
  split
  · next heq => rwa [heq] at hcollect
  · next heq => rwa [heq] at hcollect

theorem EvalM.spares_ofElements (cell : Nat) (elements : List Element) :
    (do (← (pure (.ofElements elements) : EvalM Sequence)).collect : EvalM (List Value)).Spares
      cell := by
  intro w state h
  rwa [pure_bind, Sequence.run_collect_ofElements]

namespace Input

/-- Reads of an input one after the other, with what each of them gives. In between, everything
may happen that leaves the input as it is, such as pulling what was read before. -/
inductive Reads (input : Input) : World → List (Except Error Sequence) → Prop
  | done (w : World) : Reads input w []
  | read {w w' : World} {outcome : Except Error Sequence} {later : List (Except Error Sequence)}
      (h : input.read.attempt.run w = (.ok outcome, w')) (hrest : Reads input w' later) :
      Reads input w (outcome :: later)
  | between {w w' : World} {outcomes : List (Except Error Sequence)}
      (h : w'.inputs[input.cell]? = w.inputs[input.cell]?) (hrest : Reads input w' outcomes) :
      Reads input w outcomes

variable {input : Input} {w w' : World} {outcomes : List (Except Error Sequence)}

theorem read_consumed (h : w.inputs[input.cell]? = some .consumed) :
    input.read.run w = (.error (.raised (.ofCause .inputConsumed)), w) := by
  rw [read, EvalM.run_bind_ok (EvalM.run_get w), h]
  rfl

/-- A read that gives a result and changes nothing gives it for ever. -/
theorem Reads.settled {state : InputState} {result : Except Error Sequence}
    (hread : ∀ w, w.inputs[input.cell]? = some state →
      input.read.attempt.run w = (.ok result, w))
    (h : input.Reads w outcomes) (hw : w.inputs[input.cell]? = some state) :
    ∀ outcome ∈ outcomes, outcome = result := by
  induction h with
  | done w => nofun
  | read h _ ih =>
      rw [hread _ hw] at h
      cases h
      exact List.forall_mem_cons.2 ⟨rfl, ih hw⟩
  | between h _ ih => exact ih (h.trans hw)

theorem Reads.kept {vs : List Value} (h : input.Reads w outcomes)
    (hw : w.inputs[input.cell]? = some (.materialized vs)) :
    ∀ outcome ∈ outcomes, outcome = .ok (.ofValues vs) :=
  h.settled (fun _ hw => EvalM.run_attempt_ok (read_materialized hw)) hw

theorem Reads.consumed (h : input.Reads w outcomes)
    (hw : w.inputs[input.cell]? = some .consumed) :
    ∀ outcome ∈ outcomes, outcome = .error (.ofCause .inputConsumed) :=
  h.settled (fun w hw => by rw [EvalM.run_attempt, read_consumed hw]) hw

/-- The first read of an input that is kept leaves its elements behind, or nothing. -/
theorem read_pending_cases (hkept : input.materialize = true)
    (hspares : (do (← input.source).collect : EvalM (List Value)).Spares input.cell)
    (hpending : w.inputs[input.cell]? = some .pending) {outcome : Except Error Sequence}
    (h : input.read.attempt.run w = (.ok outcome, w')) :
    (∃ vs, outcome = .ok (.ofValues vs) ∧ w'.inputs[input.cell]? = some (.materialized vs)) ∨
      ∃ e, outcome = .error e ∧ w'.inputs[input.cell]? = some .consumed := by
  have hinside := (Array.getElem?_eq_some_iff.1 hpending).1
  have hconsumed : (input.stateSet .consumed w).inputs[input.cell]? = some .consumed :=
    Array.getElem?_setIfInBounds_self_of_lt hinside
  have hafter := hspares (input.stateSet .consumed w) .consumed hconsumed
  rw [EvalM.run_attempt, read_pending hpending, hkept] at h
  simp only [if_true] at h
  rw [← bind_assoc, EvalM.run_bind] at h
  rcases hm : (do (← input.source).collect : EvalM (List Value)).run
    (input.stateSet .consumed w) with ⟨(e | _) | vs, w₁⟩ <;> rw [hm] at h hafter
  · cases h
    exact .inr ⟨e, rfl, hafter⟩
  · cases h
  · cases h
    have hinside₁ := (Array.getElem?_eq_some_iff.1 hafter).1
    exact .inl ⟨vs, rfl, Array.getElem?_setIfInBounds_self_of_lt hinside₁⟩

/-- Whatever the source is, all reads of an input that is kept are like the first one if that
succeeds. They give the same elements, also when these are pulled again and from other states.
If it fails, all later reads fail because the input is consumed. -/
theorem reads_alike_unless_failed {source : EvalM Sequence} {w₀ : World}
    (hcreate : (create true source).run w₀ = (.ok input, w))
    (hspares : (do (← source).collect : EvalM (List Value)).Spares w₀.inputs.size)
    {first : Except Error Sequence} {later : List (Except Error Sequence)}
    (h : input.Reads w (first :: later)) :
    (∀ s, first = .ok s → (∃ vs : List Value, ∀ w', s.Delivers w' (vs.map .ok) w') ∧
      ∀ outcome ∈ later, outcome = .ok s) ∧
    ∀ e, first = .error e → ∀ outcome ∈ later, outcome = .error (.ofCause .inputConsumed) := by
  rw [run_create] at hcreate
  cases hcreate
  have hpending := stateCreated_self w₀
  generalize hall : first :: later = outcomes at h
  generalize stateCreated w₀ = w at h hpending
  induction h with
  | done w => cases hall
  | between h _ ih => exact ih hall (h.trans hpending)
  | read h hrest _ =>
      cases hall
      rcases read_pending_cases rfl hspares hpending h with ⟨vs, rfl, hw⟩ | ⟨e, rfl, hw⟩
      · refine ⟨?_, by rintro _ ⟨⟩⟩
        rintro _ ⟨⟩
        exact ⟨⟨vs, Sequence.delivers_ofValues vs⟩, hrest.kept hw⟩
      · refine ⟨by rintro _ ⟨⟩, ?_⟩
        exact fun _ _ => hrest.consumed hw

/-- Two reads of a lazy input, the elements of which are pulled in between. -/
theorem reads_alike_unless_failed_two :
    let source : EvalM Sequence := EvalM.countOpening (pure (.ofElements [.ok (.int 1), .ok .null]))
    let input : Input := { cell := 0, materialize := true, source }
    let kept : Except Error Sequence := .ok (.ofValues [.int 1, .null])
    input.Reads { inputs := #[.pending] } [kept, kept] ∧ ∀ outcome ∈ [kept], outcome = kept := by
  intro source input kept
  have hcreate : (create true source).run {} = (.ok input, { inputs := #[.pending] }) := rfl
  have hreads : input.Reads { inputs := #[.pending] } [kept, kept] :=
    .read rfl (.between rfl (.read rfl (.done _)))
  have hspares : (do (← source).collect : EvalM (List Value)).Spares 0 :=
    (EvalM.spares_ofElements 0 _).countOpening
  exact ⟨hreads, ((reads_alike_unless_failed hcreate hspares hreads).1 _ rfl).2⟩

/-- One element is an error. The first read ends with it, the second one does not. -/
theorem reads_differ_after_failure :
    let input : Input :=
      { cell := 0
        materialize := true
        source := pure (.ofElements [.ok (.int 1), .error (.ofCause .divisionByZero)]) }
    (create true input.source).run {} = (.ok input, { inputs := #[.pending] }) ∧
      input.Reads { inputs := #[.pending] }
        [.error (.ofCause .divisionByZero), .error (.ofCause .inputConsumed)] ∧
      (Error.ofCause .divisionByZero).kind ≠ (Error.ofCause .inputConsumed).kind :=
  ⟨rfl, .read rfl (.read rfl (.done _)), by decide⟩

end Input

end RecordAlgebra
