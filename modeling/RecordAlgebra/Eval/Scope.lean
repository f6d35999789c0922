import RecordAlgebra.Sequence

/-!
# Bindings

A binding is a value or the input of the evaluation. The input can be read once
if it is handed through as it comes; if it is needed more often, it is collected
on the first read and shared after that.
-/

namespace RecordAlgebra

/-- The result of an expression. -/
inductive Output where
  | sequence (s : Sequence)
  | value (v : Value)

namespace Output

/-- The result as one value, where a sequence becomes a list. -/
def intoValue : Output → EvalM Value
  | .value v => pure v
  | .sequence s => do return .list (← s.collect)

/-- The result as a sequence, which only a list can be among values. -/
def intoSequence : Output → EvalM Sequence
  | .sequence s => pure s
  | .value (.list elements) => pure (.ofValues elements)
  | .value v => EvalM.fail (.expectedSequence v.kind)

def collect (output : Output) : EvalM (List Value) := do (← output.intoSequence).collect

end Output

/-- The input of an evaluation, and how to open it. Whether it was opened is
kept in the world. -/
structure Input where
  cell : Nat
  materialize : Bool
  source : EvalM Sequence

inductive Binding where
  | value (v : Value)
  | input (input : Input)

/-- The bindings around an expression, innermost first. -/
abbrev Scope := List Binding

def Scope.lookup (scope : Scope) (depth : Nat) : Except Error Binding :=
  match scope[depth]? with
  | some binding => .ok binding
  | none => .error (.ofCause (.unboundContext depth))

namespace Input

def create (materialize : Bool) (source : EvalM Sequence) : EvalM Input := do
  let w ← get
  set { w with inputs := w.inputs.push .pending }
  pure { cell := w.inputs.size, materialize, source }

def setState (input : Input) (state : InputState) : EvalM Unit :=
  modify fun w => { w with inputs := w.inputs.setIfInBounds input.cell state }

/-- Reads the input. What cannot be opened or collected is consumed. -/
def read (input : Input) : EvalM Sequence := do
  match (← get).inputs[input.cell]? with
  | some (.materialized values) => pure (.ofValues values)
  | some .pending => do
      input.setState .consumed
      let s ← input.source
      if input.materialize then
        let values ← s.collect
        input.setState (.materialized values)
        pure (.ofValues values)
      else pure s
  | _ => EvalM.fail .inputConsumed

end Input

/-- Counts that a lazy input is opened. -/
def EvalM.countOpening {α : Type} (source : EvalM α) : EvalM α := do
  modify fun w => { w with opened := w.opened + 1 }
  source

end RecordAlgebra
