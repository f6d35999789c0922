import RecordAlgebra.Proofs.Item.Holdings

/-!
# Connectives

A connective reads its operands from left to right until one decides it. What an operand
leaves in the state is seen by those after it, so the laws of the connectives relate whole
actions: de Morgan's law up to the wording of errors, and the associative law as an equation.
That the order of operands does not matter needs operands that have the same truth value from
every state that the others leave.
-/

namespace RecordAlgebra

/-- The same result, errors of one kind, or no end in both. -/
inductive SameEnd {α : Type} : Except Stop α → Except Stop α → Prop
  | ok (a : α) : SameEnd (.ok a) (.ok a)
  | raised {e e' : Error} : e.kind = e'.kind → SameEnd (.error (.raised e)) (.error (.raised e'))
  | diverged : SameEnd (.error .diverged) (.error .diverged)

/-- From every state the two actions end in the same way and leave the same state. -/
def EvalM.Alike {α : Type} (m m' : EvalM α) : Prop :=
  ∀ w, SameEnd (m.run w).1 (m'.run w).1 ∧ (m.run w).2 = (m'.run w).2

section Alike

variable {α β : Type} {m m' : EvalM α}

theorem SameEnd.refl : ∀ outcome : Except Stop α, SameEnd outcome outcome
  | .ok a => .ok a
  | .error (.raised _) => .raised rfl
  | .error .diverged => .diverged

theorem EvalM.Alike.refl (m : EvalM α) : m.Alike m := fun _ => ⟨.refl _, rfl⟩

theorem EvalM.Alike.bind {f f' : α → EvalM β} (h : m.Alike m')
    (step : ∀ a, (f a).Alike (f' a)) : (m >>= f).Alike (m' >>= f') := by
  intro w
  obtain ⟨hend, hstate⟩ := h w
  rw [run_bind, run_bind]
  rcases hrun : m.run w with ⟨outcome, w₁⟩
  rcases hrun' : m'.run w with ⟨outcome', w₂⟩
  rw [hrun, hrun'] at hend hstate
  cases hstate
  cases hend with
  | ok a => exact step a w₁
  | raised hkind => exact ⟨.raised hkind, rfl⟩
  | diverged => exact ⟨.diverged, rfl⟩

end Alike

/-- The connective that the other one is the negation of. -/
def BooleanOp.dual : BooleanOp → BooleanOp
  | .and => .or
  | .or => .and

theorem BooleanOp.decisive_dual (op : BooleanOp) : op.dual.decisive = !op.decisive := by
  cases op <;> rfl

/-- The truth value of a connective with operands of these truth values, where none is null. -/
def BooleanOp.combine (op : BooleanOp) (truths : List (Option Bool)) : Option Bool :=
  if some op.decisive ∈ truths then some op.decisive
  else if none ∈ truths then none
  else some (!op.decisive)

theorem BooleanOp.combine_of_mem_iff {op : BooleanOp} {truths others : List (Option Bool)}
    (h : ∀ truth, truth ∈ truths ↔ truth ∈ others) : op.combine truths = op.combine others := by
  simp only [combine, h]

theorem BooleanOp.combine_of_mem {op : BooleanOp} {truths : List (Option Bool)}
    (h : some op.decisive ∈ truths) : op.combine truths = some op.decisive :=
  if_pos h

/-- An operand that does not decide the connective, and is not null, does not count. -/
theorem BooleanOp.combine_append_of_ne {op : BooleanOp} {truths others : List (Option Bool)}
    {b : Bool} (h : b ≠ op.decisive) :
    op.combine (truths ++ some b :: others) = op.combine (truths ++ others) := by
  simp [combine, h.symm]

def Value.ofTruth : Option Bool → Value
  | none => .null
  | some b => .bool b

namespace Expr

variable {access : ItemAccess EvalM} {scope : Scope} {op : BooleanOp} {e : Expr}
  {es pre fs post : List Expr}

/-- The value of an operand that no output is given for. -/
def evalOperand (access : ItemAccess EvalM) (scope : Scope) (e : Expr) : EvalM Value := do
  (← eval access .empty scope e).intoValue

/-- What a connective does once an operand has its value, where `rest` is for the others and is
told whether null was seen. -/
def afterOperand (op : BooleanOp) (sawNull : Bool) (rest : Bool → EvalM Value) :
    Value → EvalM Value
  | .bool b => if b == op.decisive then pure (.bool b) else rest sawNull
  | .null => rest true
  | v => EvalM.fail (.operandNotTruth op.symbol v.kind)

/-- The operands of a connective that is evaluated by itself. -/
def connect (access : ItemAccess EvalM) (scope : Scope) (op : BooleanOp) (es : List Expr)
    (sawNull : Bool) : EvalM Value :=
  evalOperands access .empty scope op sawNull 0 es

section Equations

theorem evalOperands_position (sawNull : Bool) (position : Nat) :
    evalOperands access .empty scope op sawNull position es =
      connect access scope op es sawNull := by
  unfold connect
  induction es generalizing sawNull position with
  | nil => rfl
  | cons e es ih =>
      rw [evalOperands, evalOperands]
      simp only [ih _ (position + 1), ih _ (0 + 1)]
      rfl

theorem connect_nil (sawNull : Bool) : connect access scope op [] sawNull =
    pure (if sawNull then .null else .bool (!op.decisive)) := rfl

theorem connect_cons (sawNull : Bool) : connect access scope op (e :: es) sawNull =
    evalOperand access scope e >>= afterOperand op sawNull (connect access scope op es) := by
  rw [connect, evalOperands, evalOperand, EvalM.bind_assoc']
  refine congrArg _ (funext fun output => congrArg _ (funext fun v => ?_))
  cases v with
  | bool b =>
      simp only [afterOperand, evalOperands_position]
  | null => exact evalOperands_position true _
  | _ => rfl

theorem eval_boolean : eval access .empty scope (.boolean op es) = do
    return .value (← connect access scope op es false) := by
  rw [eval]
  rfl

theorem eval_not : eval access .empty scope (.negation .not e) = do
    return .value (← evalOperand access scope e >>= negated .not) := by
  rw [eval]
  simp only [evalOperand, EvalM.bind_assoc']
  rfl

theorem eval_field {name : String} {type : DataType} :
    eval access .empty scope (.field e name type) = do
      return .value (← evalOperand access scope e >>= fun v => v.field access name) := by
  rw [eval]
  simp only [evalOperand, EvalM.bind_assoc']
  rfl

theorem eval_comparison {op : ComparisonOp} {left right : Expr} :
    eval access .empty scope (.comparison op left right) = do
      return .value (← evalOperand access scope left >>= fun a =>
        evalOperand access scope right >>= fun b => a.compare access op b) := by
  rw [eval]
  simp only [evalOperand, EvalM.bind_assoc']
  rfl

theorem eval_function {f : ScalarFunction} : eval access .empty scope (.function f e) = do
    return .value (← evalOperand access scope e >>= fun v => EvalM.lift (f.apply v)) := by
  rw [eval]
  simp only [evalOperand, EvalM.bind_assoc']
  rfl

theorem evalOperand_of_eval {m : EvalM Value}
    (h : eval access .empty scope e = do return .value (← m)) :
    evalOperand access scope e = m := by
  rw [evalOperand, h, EvalM.bind_assoc']
  exact bind_pure m

theorem evalOperand_boolean :
    evalOperand access scope (.boolean op es) = connect access scope op es false :=
  evalOperand_of_eval eval_boolean

theorem evalOperand_not : evalOperand access scope (.negation .not e) =
    evalOperand access scope e >>= negated .not :=
  evalOperand_of_eval eval_not

/-- Operands of which the first ones are read as a connective of their own. -/
theorem connect_append (sawNull sawNull' : Bool) :
    connect access scope op fs sawNull' >>=
        afterOperand op sawNull (connect access scope op post) =
      connect access scope op (fs ++ post) (sawNull' || sawNull) := by
  induction fs generalizing sawNull' with
  | nil =>
      rw [connect_nil, pure_bind]
      cases sawNull'
      · simp [afterOperand]
      · rfl
  | cons f fs ih =>
      rw [List.cons_append, connect_cons, connect_cons, EvalM.bind_assoc']
      refine congrArg _ (funext fun v => ?_)
      cases v with
      | bool b =>
          by_cases hb : (b == op.decisive) = true
          · simp only [afterOperand, hb, if_true, pure_bind]
          · simp only [afterOperand, if_neg hb]
            exact ih sawNull'
      | null => exact ih true
      | _ => rfl

/-- A connective among the operands of the same connective may be replaced by its operands. -/
theorem connect_flatten :
    connect access scope op (pre ++ .boolean op fs :: post) =
      connect access scope op (pre ++ fs ++ post) := by
  rw [List.append_assoc]
  induction pre with
  | nil =>
      funext sawNull
      rw [List.nil_append, connect_cons, evalOperand_boolean, connect_append, Bool.false_or]
      rfl
  | cons e pre ih =>
      funext sawNull
      rw [List.cons_append, connect_cons, ih, List.cons_append, connect_cons]

end Equations

section Duality

/-- One operand and its negation: the one is decisive for the connective exactly if the other is
for the dual one, and both connectives fail where it is no truth value. -/
theorem afterOperand_negated {sawNull : Bool} {rest rest' : Bool → EvalM Value}
    (h : ∀ sawNull, (rest sawNull >>= negated .not).Alike (rest' sawNull)) (v : Value) :
    (afterOperand op sawNull rest v >>= negated .not).Alike
      (negated .not v >>= afterOperand op.dual sawNull rest') := by
  cases v with
  | bool b =>
      have hnot (b : Bool) : negated .not (.bool b) = pure (.bool (!b)) := rfl
      rw [hnot, pure_bind]
      by_cases hb : (b == op.decisive) = true
      · have hb' : ((!b) == op.dual.decisive) = true := by
          rw [BooleanOp.decisive_dual, beq_iff_eq.1 hb, beq_self_eq_true]
        simp only [afterOperand, hb, hb', if_true, pure_bind, hnot]
        exact .refl _
      · have hb' : ¬((!b) == op.dual.decisive) = true := by
          rw [BooleanOp.decisive_dual]
          simpa using hb
        simp only [afterOperand, if_neg hb, if_neg hb']
        exact h sawNull
  | null => exact h true
  | _ => exact fun w => ⟨.raised rfl, rfl⟩

theorem connect_dual (sawNull : Bool) :
    (connect access scope op es sawNull >>= negated .not).Alike
      (connect access scope op.dual (es.map (.negation .not)) sawNull) := by
  -- Null is its own negation, so both sides have seen null at the same operands.
  induction es generalizing sawNull with
  | nil =>
      rw [List.map_nil, connect_nil, connect_nil, pure_bind, BooleanOp.decisive_dual]
      cases sawNull <;> exact .refl _
  | cons e es ih =>
      rw [List.map_cons, connect_cons, connect_cons, evalOperand_not, EvalM.bind_assoc',
        EvalM.bind_assoc']
      exact (EvalM.Alike.refl _).bind (afterOperand_negated ih)

end Duality

section Truths

variable {I : World → Prop} {truth : Expr → Option Bool}

variable (op) in
/-- A connective whose operands have truth values has the one that these combine to. The family
of states is whatever the operands may leave. -/
theorem connect_finds (h : ∀ e ∈ es, Finds I (· = .ofTruth (truth e)) (evalOperand access scope e))
    (sawNull : Bool) :
    Finds I (· = .ofTruth (op.combine ((if sawNull then [none] else []) ++ es.map truth)))
      (connect access scope op es sawNull) := by
  induction es generalizing sawNull with
  | nil =>
      rw [connect_nil]
      refine .pure ?_
      cases sawNull <;> simp [BooleanOp.combine, Value.ofTruth]
  | cons e es ih =>
      rw [List.forall_mem_cons] at h
      rw [connect_cons, List.map_cons]
      refine h.1.bind fun v hv => ?_
      subst hv
      cases truth e with
      | none =>
          refine (ih h.2 true).mono fun v hv => ?_
          rw [hv]
          refine congrArg _ (BooleanOp.combine_of_mem_iff fun truth => ?_)
          cases sawNull <;> simp
      | some b =>
          by_cases hb : b = op.decisive
          · rw [BooleanOp.combine_of_mem (by simp [hb])]
            simp only [Value.ofTruth, afterOperand, hb, beq_self_eq_true, if_true]
            exact .pure rfl
          · have hne : ¬(b == op.decisive) = true := by simpa using hb
            rw [BooleanOp.combine_append_of_ne hb]
            simp only [Value.ofTruth, afterOperand, if_neg hne]
            exact ih h.2 sawNull

end Truths

/-- De Morgan's law and the associative law hold for whatever the operands do. Operands that have
truth values make the connective true, false or null as these combine, in any order and number. -/
theorem connective_laws (access : ItemAccess EvalM) (scope : Scope) (op : BooleanOp)
    (es pre fs post : List Expr) :
    (eval access .empty scope (.negation .not (.boolean op es))).Alike
      (eval access .empty scope (.boolean op.dual (es.map (.negation .not)))) ∧
    eval access .empty scope (.boolean op (pre ++ .boolean op fs :: post)) =
      eval access .empty scope (.boolean op (pre ++ fs ++ post)) ∧
    ∀ (I : World → Prop) (truth : Expr → Option Bool),
      (∀ e ∈ es, Finds I (· = .ofTruth (truth e)) (evalOperand access scope e)) →
        ∀ others : List Expr, (∀ e, e ∈ others ↔ e ∈ es) →
          Finds I (· = .value (.ofTruth (op.combine (es.map truth))))
            (eval access .empty scope (.boolean op others)) := by
  refine ⟨?_, ?_, fun I truth h others hothers => ?_⟩
  · rw [eval_not, eval_boolean, evalOperand_boolean]
    exact (connect_dual false).bind fun v => .refl _
  · rw [eval_boolean, eval_boolean, connect_flatten]
  · have hfinds := connect_finds op (fun e he => h e ((hothers e).1 he)) false
    rw [eval_boolean]
    refine hfinds.bind fun v hv => .pure ?_
    rw [hv, if_neg Bool.false_ne_true]
    refine congrArg (fun truth => Output.value (Value.ofTruth truth)) ?_
    refine BooleanOp.combine_of_mem_iff fun truth => ?_
    simp only [List.nil_append, List.mem_map, hothers]

theorem connective_laws_literals :
    Finds (fun _ => True) (· = .value .null) (eval .live .empty []
      (.boolean .and [.literal .null, .literal (.bool true), .literal .null])) := by
  have truths (b : Option Bool) :
      Finds (fun _ => True) (· = .ofTruth b) (evalOperand .live [] (.literal (.ofTruth b))) := by
    rw [evalOperand, eval_literal _ rfl]
    exact .pure rfl
  let truth (e : Expr) : Option Bool := if e.datatype == .null then none else some true
  refine (connective_laws .live [] .and [.literal (.bool true), .literal .null] [] [] []).2.2
    _ truth (fun e he => ?_) _ fun e => ?_
  · rcases List.mem_pair.1 he with rfl | rfl
    · exact truths (some true)
    · exact truths none
  · simp only [List.mem_cons, List.not_mem_nil, or_false]
    tauto

/-- Reading the one flag of the first item gives false and leaves it true, as it is in the
second item. That they are not equal decides the connective only where it is asked first. -/
theorem connective_order_matters :
    let schema : Schema :=
      { name := "notes", properties := [⟨"x", .boolean, false⟩], distinct := by decide }
    let source : SourceRef := { id := 0, name := "notes", schema }
    let a : Expr := .literal (.item { cell := 0, source })
    let b : Expr := .literal (.item { cell := 1, source })
    let assigning : Loader :=
      { id := 0, assign := [("x", .bool true)], body := .literal (.bool false) }
    let w : World :=
      { cells := #[
          { source, slots := [("x", .deferred assigning)] },
          { source, slots := [("x", .resolved (.bool true))] }] }
    ∃ w₁ w₂ w₃ w₄,
      (evalOperand .live [] (.comparison .equal a b)).run w = (.ok (.bool false), w₁) ∧
      (evalOperand .live [] (.comparison .notEqual a b)).run w = (.ok (.bool true), w₂) ∧
      (eval .live .empty [] (.boolean .or [.comparison .notEqual a b, .comparison .equal a b])).run
        w = (.ok (.value (.bool true)), w₃) ∧
      (eval .live .empty [] (.boolean .or [.comparison .equal a b, .comparison .notEqual a b])).run
        w = (.ok (.value (.bool false)), w₄) :=
  ⟨_, _, _, _, rfl, rfl, rfl, rfl⟩

end Expr

end RecordAlgebra
