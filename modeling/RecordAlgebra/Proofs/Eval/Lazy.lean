import RecordAlgebra.Proofs.Eval.Congruence
import RecordAlgebra.Proofs.Eval.Running
import RecordAlgebra.Proofs.Sequence.Watching

/-!
# Lazy expressions

Filters, projections, distinct elements and slices over the input are stages at its end. If
predicates and projections do not refer to the input, the stages are the same for all inputs,
nothing is pulled to find them, and what comes through them depends on no more of the input than
was requested.
-/

namespace RecordAlgebra

theorem References.total_add (a b : References) : (a + b).total = a.total + b.total := by
  simp only [total, add_direct, add_nested]
  omega

namespace Expr

/-- The expression does not refer to the binding at the depth. -/
def Ignores (depth : Nat) (e : Expr) : Prop := (references (fun _ => false) depth e).total = 0

variable {access : ItemAccess EvalM} {e : Expr} {depth : Nat} {scope other : Scope}

theorem ignores_parts {parts : List (Expr × ChildScope)} {position : Nat}
    (h : (partReferences (fun _ => false) depth position parts).total = 0) :
    ∀ part ∈ parts, part.1.Ignores (depth + part.2.bindings) := by
  induction parts generalizing position with
  | nil => nofun
  | cons first rest ih =>
      rw [partReferences, References.total_add, Nat.add_eq_zero_iff] at h
      exact List.forall_mem_cons.2 ⟨h.1, ih h.2⟩

theorem Ignores.part (h : e.Ignores depth) (he : e.isContext = false) :
    ∀ part ∈ e.children, part.1.Ignores (depth + part.2.bindings) := by
  rw [Ignores, references_parts rfl he] at h
  exact ignores_parts h

theorem Ignores.context_ne {n : Nat} {type : DataType}
    (h : (context n type).Ignores depth) : n ≠ depth := by
  rintro rfl
  rw [Ignores, references] at h
  simp only [Bool.false_eq_true, if_false, if_true] at h
  split at h <;> cases h

/-- It makes no difference what a binding is to which an expression does not refer. -/
theorem eval_ignored (h : e.Ignores depth)
    (hscope : ∀ n, n ≠ depth → scope[n]? = other[n]?) :
    eval access .empty scope e = eval access .empty other e := by
  induction e using childInduction generalizing depth scope other with
  | step e ih =>
      cases he : e.isContext with
      | true =>
          cases e with
          | context n type =>
              rw [eval, eval]
              simp only [Scope.lookup, hscope n h.context_ne]
          | _ => cases he
      | false =>
          have hparts := h.part he
          refine eval_congr_parts he rfl rfl (fun i part hpart => ?_) fun part hpart v => ?_
          · have hmem := List.mem_of_getElem? hpart
            exact ih _ hmem (hparts _ hmem) hscope
          · refine ih _ hpart (hparts _ hpart) fun n hn => ?_
            cases n with
            | zero => rfl
            | succ n => exact hscope n fun hn' => hn (congrArg (· + 1) hn')

/-- Filters, projections, distinct elements and slices of the input, where predicates and
projections do not refer to the input. -/
inductive IsLazy : Expr → Prop
  | input (type : DataType) : IsLazy (.context 0 type)
  | filter {source predicate : Expr} (hsource : IsLazy source) (h : predicate.Ignores 1) :
      IsLazy (.filter source predicate)
  | map {source projection : Expr} {type : DataType} (hsource : IsLazy source)
      (h : projection.Ignores 1) : IsLazy (.map source projection type)
  | distinct {source : Expr} (hsource : IsLazy source) : IsLazy (.distinct source)
  | slice {source : Expr} {start : Nat} {stop : Option Nat} (hsource : IsLazy source) :
      IsLazy (.slice source start stop)

theorem Ignores.references_eq_zero (h : e.Ignores depth) :
    references (fun _ => false) depth e = .zero := by
  rw [Ignores, References.total, Nat.add_eq_zero_iff] at h
  rcases hrefs : references (fun _ => false) depth e with ⟨direct, nested⟩
  rw [hrefs] at h
  obtain ⟨rfl, rfl⟩ := h
  rfl

/-- The input is read once, and not from inside of a predicate or projection. -/
theorem IsLazy.references_eq (h : e.IsLazy) :
    references (fun _ => false) 0 e = { direct := 1, nested := 0 } := by
  have hparts {source part : Expr}
      (ih : references (fun _ => false) 0 source = { direct := 1, nested := 0 })
      (hpart : part.Ignores 1) :
      references (fun _ => false) 0 source + references (fun _ => false) 1 part =
        { direct := 1, nested := 0 } := by
    rw [ih, hpart.references_eq_zero]
    rfl
  induction h with
  | input type => rfl
  | filter _ h ih => exact hparts ih h
  | map _ h ih => exact hparts ih h
  | distinct _ ih => exact ih
  | slice _ ih => exact ih

/-- The stages that an expression puts at the end of its input. In predicates and projections
something stands for the input that they do not refer to. -/
def stages (access : ItemAccess EvalM) : Expr → List Stage
  | .filter source predicate =>
      stages access source ++ [.filter fun v => do
        let result ← (← eval access .empty [.value v, .value .null] predicate).intoValue
        EvalM.lift (result.toPredicate (← EvalM.view))]
  | .map source projection _ =>
      stages access source ++ [.map fun v => do
        (← eval access .empty [.value v, .value .null] projection).intoValue]
  | .distinct source => stages access source ++ [.distinct access []]
  | .slice source start stop => stages access source ++ [.window start 0 (stop.map (· - start))]
  | _ => []

/-- A stage that is put after those of the source. -/
theorem run_then {m : EvalM Output} {s : Sequence} {stages : List Stage} {w w' : World}
    (h : m.run w = (.ok (.sequence (s.through stages)), w')) (stage : Stage) :
    (do return .sequence ((← (← m).intoSequence).then_ stage) : EvalM Output).run w =
      (.ok (.sequence (s.through (stages ++ [stage]))), w') := by
  rw [EvalM.run_bind_ok h, ← Sequence.through_through]
  rfl

theorem IsLazy.eval_run (h : e.IsLazy) {input : Input} {s : Sequence} {w : World}
    (hkept : input.materialize = false) (hsource : input.source = pure s)
    (hpending : w.inputs[input.cell]? = some .pending) :
    (eval access .empty [.input input] e).run w =
      (.ok (.sequence (s.through (e.stages access))), input.stateSet .consumed w) := by
  have hnone : Substitution.empty [] = none := rfl
  have hinside {part : Expr} (hpart : part.Ignores 1) (v : Value) :
      eval access .empty [.value v, .input input] part =
        eval access .empty [.value v, .value .null] part :=
    eval_ignored hpart fun n hn => by
      rcases n with _ | _ | n
      · rfl
      · exact absurd rfl hn
      · rfl
  induction h with
  | input type =>
      have hread : input.read.run w = (.ok s, input.stateSet .consumed w) := by
        rw [Input.read_pending hpending, hkept, hsource]
        rfl
      have hthrough : s.through (stages access (.context 0 type)) = s := s.through_nil
      rw [hthrough, eval, hnone]
      exact EvalM.run_bind_ok hread fun s => pure (Output.sequence s)
  | filter _ h ih =>
      rw [eval, hnone]
      simp only [hinside h]
      exact run_then ih _
  | map _ h ih =>
      rw [eval, hnone]
      simp only [hinside h]
      exact run_then ih _
  | distinct _ ih =>
      rw [eval, hnone]
      exact run_then ih _
  | slice _ ih =>
      rw [eval, hnone]
      exact run_then ih _

/-- The state after a new input was read and handed through. -/
def stateHanded (w : World) : World := { w with inputs := w.inputs.push .consumed }

theorem stateSet_stateCreated (input : Input) (w : World) (h : input.cell = w.inputs.size) :
    input.stateSet .consumed (Input.stateCreated w) = stateHanded w := by
  rw [Input.stateSet, Input.stateCreated, stateHanded, h]
  congr 1
  grind

/-- Running a lazy expression puts stages at the end of its input, for which nothing is pulled.
What is seen of the elements that come through is the same for two inputs, errors and the number
of requests included, as long as no more is requested than the inputs agree on. -/
theorem run_lazy_alike (access : ItemAccess EvalM) {e : Expr} (he : e.IsLazy) {s t : Sequence}
    {n : Nat} (hagree : s.AgreesFor n t) :
    (∀ input w, (e.run access input).run w =
      (.ok (.sequence (input.through (e.stages access))), stateHanded w)) ∧
    ∀ w limit seen ended requests w',
      s.Watches (e.stages access) w limit seen ended requests w' → requests ≤ n →
        t.Watches (e.stages access) w limit seen ended requests w' := by
  refine ⟨fun input w => ?_, fun w limit seen ended requests w' h hle => ?_⟩
  · have hrefs : e.references (fun path => (Substitution.empty path).isSome) 0 =
        { direct := 1, nested := 0 } := he.references_eq
    rw [run, runWith]
    simp only [hrefs]
    rw [EvalM.run_bind_ok (Input.run_create _ _ w),
      he.eval_run rfl rfl (Input.stateCreated_self w), stateSet_stateCreated _ w rfl]
  · obtain ⟨more, rfl⟩ := Nat.exists_eq_add_of_le hle
    exact h.alike hagree

/-- The numbers from one on and a list of two numbers. The first number above one comes through
after two requests, whatever is after it. -/
theorem run_lazy_alike_numbers :
    let e : Expr := .slice (.filter (.context 0 .any)
      (.comparison .greater (.context 0 .any) (.literal (.int 1)))) 0 (some 1)
    let numbers := Sequence.meteredFrom 1
    let list := Sequence.metered [.ok (.int 1), .ok (.int 2)]
    let w : World := { pulled := 2 }
    e.IsLazy ∧ numbers.AgreesFor 2 list ∧
      list.Watches (e.stages .live) {} 1 [(.ok (.int 2), w)] false 2 w := by
  intro e numbers list w
  have he : e.IsLazy := .slice (.filter (.input .any) rfl)
  have hagree : numbers.AgreesFor 2 list := by
    refine Sequence.agreesFor_of_elements rfl rfl fun i hi => ?_
    obtain rfl | rfl : i = 0 ∨ i = 1 := by omega
    · rfl
    · rfl
  have hnumbers : numbers.Watches (e.stages .live) {} 1 [(.ok (.int 2), w)] false 2 w :=
    .seen (.dropped rfl (Sequence.pulls_bare_iff.2 ⟨_, .endless rfl, rfl⟩) rfl
      (.handed rfl (Sequence.pulls_bare_iff.2 ⟨_, .endless rfl, rfl⟩) rfl)) (.enough _ _ _)
  exact ⟨he, hagree, (run_lazy_alike .live he hagree).2 _ _ _ _ _ _ hnumbers (Nat.le_refl 2)⟩

end Expr

end RecordAlgebra
