import RecordAlgebra.Config
import RecordAlgebra.Source.Basic

/-!
# Negotiated execution

From the root on, every subtree that reads the input exactly once is offered to
the source. What the source executes takes the place of the subtree, after the
remainder was evaluated if there is one. Where it declines, the parts of the
subtree are offered in turn. The rest is evaluated as usual.
-/

namespace RecordAlgebra.Negotiation

variable (access : ItemAccess EvalM) (source : Source)

/-- Evaluates what the source left over, with its output as the input. -/
def runRemainder (remainder : Expr) : Output → EvalM Output
  | .value v => remainder.runValue access v
  | .sequence s => remainder.run access s

/-- The output of a subtree, if the source has a part in it. -/
def offered? (e : Expr) : EvalM (Option Output) := do
  match ← source.offer e with
  | .accepted output => pure (some (source.output output))
  | .partly output remainder => return some (← runRemainder access remainder (source.output output))
  | .declined => pure none

/-- Outputs for nodes of a part, as outputs for nodes of the whole. -/
def atPart (position : Nat) (outputs : List (Path × Output)) : List (Path × Output) :=
  outputs.map fun (path, output) => (position :: path, output)

mutual

/-- The outputs that the source contributes to an expression at a depth. -/
def negotiate (limit depth : Nat) (e : Expr) : EvalM (List (Path × Output)) := do
  let refs := e.inputReferences
  if limit < depth || refs.total = 0 || e.isContext then pure []
  else
    match ← if refs.isSingleDirect then offered? access source e else pure none with
    | some output => pure [([], output)]
    | none =>
      match e with
      | .context .. | .literal _ => pure []
      | .field part _ _ | .negation _ part | .function _ part | .filter part _ | .map part _ _
      | .sort part _ | .groupBy part _ _ _ | .aggregate _ part _ _ | .distinct part
      | .slice part _ _ | .one part none _ => do
          return atPart 0 (← negotiate limit (depth + 1) part)
      | .comparison _ left right | .arithmetic _ left right _ | .merge left right _
      | .one left (some right) _ => do
          let first ← negotiate limit (depth + 1) left
          let second ← negotiate limit (depth + 1) right
          pure (atPart 0 first ++ atPart 1 second)
      | .boolean _ operands => negotiateAll limit (depth + 1) 0 operands
      | .record fields _ => negotiateFields limit (depth + 1) 0 fields

def negotiateAll (limit depth position : Nat) : List Expr → EvalM (List (Path × Output))
  | [] => pure []
  | e :: rest => do
      let first ← negotiate limit depth e
      let others ← negotiateAll limit depth (position + 1) rest
      pure (atPart position first ++ others)

def negotiateFields (limit depth position : Nat) :
    List (String × Expr) → EvalM (List (Path × Output))
  | [] => pure []
  | (_, e) :: rest => do
      let first ← negotiate limit depth e
      let others ← negotiateFields limit depth (position + 1) rest
      pure (atPart position first ++ others)

end

/-- Evaluates an expression with what the source contributes to it. -/
def runNegotiated (config : ExecutionConfig) (e : Expr) : EvalM Output := do
  let outputs ← negotiate access source config.maxNegotiationDepth 0 e
  e.runWith access (.ofList outputs) source.all

/-- The error for a result that differs from that of plain evaluation. -/
def difference (view : ItemRef → String) (e : Expr) (negotiated plain : Value) : Error :=
  ((((Error.ofCause .resultsDiffer).attach "expression" (e.render view)).attach
    "source" source.ref.name).attach "optimized" (negotiated.render view)).attach
      "naive" (plain.render view)

/-- Executes an expression over all items of the source. -/
def execute (config : ExecutionConfig) (e : Expr) : EvalM Output := do
  if !config.enableOptimizer then source.evaluate access e
  else if !config.verifyOptimized then runNegotiated access source config e
  else
    let negotiated ← (← runNegotiated access source config e).intoValue
    let plain ← (← source.evaluate access e).intoValue
    if ← Value.equal access.equal negotiated plain then pure (.value negotiated)
    else EvalM.raise (difference source (← EvalM.view) e negotiated plain)

end RecordAlgebra.Negotiation
