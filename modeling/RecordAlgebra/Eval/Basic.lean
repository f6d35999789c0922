import RecordAlgebra.Eval.Aggregate
import RecordAlgebra.Eval.Scope
import RecordAlgebra.Expr.References
import RecordAlgebra.Value.Sorting

/-!
# Evaluation

Filters, projections, distinct elements and slices are stages of a sequence and
do their work as they are pulled. Sorting and grouping need all elements and
read them on the first pull. Aggregates and `one` are values and read their
source at once.

A substitution gives outputs for nodes of the tree, named by their paths. It
applies to nodes that see the bindings of the root; predicates, projections,
keys and group aggregates are evaluated without it.
-/

namespace RecordAlgebra

abbrev Substitution := Path → Option Output

def Substitution.empty : Substitution := fun _ => none

/-- The first output given for a path counts. -/
def Substitution.ofList (outputs : List (Path × Output)) : Substitution :=
  fun path => outputs.lookup path

/-- All elements with their keys, which are found as each element is read. -/
def Sequence.keyed (keysOf : Value → EvalM (List Value)) (s : Sequence) :
    EvalM (List (Value.Keyed Value)) := do
  let rows ← s.fold (fun rows v => do
    let found ← keysOf v
    pure ({ keys := found, value := v } :: rows)) []
  return rows.reverse

/-- The elements in the order of their keys. They are read when the first one is
pulled. -/
def Sequence.sorted (keysOf : Value → EvalM (List Value)) (directions : List Direction)
    (s : Sequence) : Sequence :=
  .ofDeferred do EvalM.lift (Value.sortKeyed directions (← s.keyed keysOf))

/-- Groups in order of their first element, the members of each in reverse. -/
abbrev Groups := List (Value.Key × List Value)

namespace Groups

def add (groups : Groups) (access : ItemAccess EvalM) (key : Value.Key) (member : Value) :
    EvalM Groups := do
  match ← key.find? access groups with
  | none => pure (groups ++ [(key, [member])])
  | some position => pure (groups.modify position fun (key, members) => (key, member :: members))

end Groups

namespace Expr

/-- The only element of a sequence, if there is one. -/
def onlyElement (s : Sequence) : EvalM (Option Value) := do
  match ← s.next with
  | none => pure none
  | some (.error error, _) => EvalM.raise error
  | some (.ok v, rest) => do
      match ← rest.next with
      | none => pure (some v)
      | some (.error error, _) => EvalM.raise error
      | some (.ok _, _) => EvalM.fail .moreThanOne

/-- The result of `not` or of a minus sign. -/
def negated (op : NegationOp) (v : Value) : EvalM Value := do
  match op with
  | .not =>
      match v with
      | .null => pure .null
      | v => return .bool (!(← EvalM.lift (v.toBool (← EvalM.view))))
  | .minus => EvalM.lift v.negate

variable (access : ItemAccess EvalM)

mutual

def eval (substitution : Substitution) (scope : Scope) (e : Expr) : EvalM Output :=
  match substitution [] with
  | some output => pure output
  | none =>
    match e with
    | .context depth _ => do
        match ← EvalM.lift (scope.lookup depth) with
        | .value v => pure (.value v)
        | .input input => return .sequence (← input.read)
    | .literal v => pure (.value v)
    | .field base name _ => do
        let v ← (← eval (inPart substitution 0) scope base).intoValue
        return .value (← v.field access name)
    | .comparison op left right => do
        let a ← (← eval (inPart substitution 0) scope left).intoValue
        let b ← (← eval (inPart substitution 1) scope right).intoValue
        return .value (← Value.compare access op a b)
    | .boolean op operands => do
        return .value (← evalOperands substitution scope op false 0 operands)
    | .negation op operand => do
        let v ← (← eval (inPart substitution 0) scope operand).intoValue
        return .value (← negated op v)
    | .arithmetic op left right _ => do
        let a ← (← eval (inPart substitution 0) scope left).intoValue
        let b ← (← eval (inPart substitution 1) scope right).intoValue
        return .value (← EvalM.lift (Value.apply (← EvalM.view) op a b))
    | .merge left right _ => do
        let a ← (← eval (inPart substitution 0) scope left).intoValue
        let b ← (← eval (inPart substitution 1) scope right).intoValue
        let fields ← a.entries access
        let additions ← b.entries access
        return .value (.record ((Fields.ofList fields).insertAll additions))
    | .record fields _ => do
        return .value (.record (Fields.ofList (← evalFields substitution scope 0 fields)))
    | .function f input => do
        let v ← (← eval (inPart substitution 0) scope input).intoValue
        return .value (← EvalM.lift (f.apply v))
    | .filter source predicate => do
        let s ← (← eval (inPart substitution 0) scope source).intoSequence
        return .sequence <| s.then_ <| .filter fun v => do
          let result ← (← eval .empty (.value v :: scope) predicate).intoValue
          EvalM.lift (result.toPredicate (← EvalM.view))
    | .map source projection _ => do
        let s ← (← eval (inPart substitution 0) scope source).intoSequence
        return .sequence <| s.then_ <| .map fun v => do
          (← eval .empty (.value v :: scope) projection).intoValue
    | .sort source keys => do
        let s ← (← eval (inPart substitution 0) scope source).intoSequence
        return .sequence <|
          s.sorted (fun v => evalKeys (.value v :: scope) keys) (keys.map Prod.snd)
    | .groupBy source key total _ => do
        let s ← (← eval (inPart substitution 0) scope source).intoSequence
        return .sequence <| .ofDeferred do
          let groups ← s.fold (fun groups v => do
            let found ← (← eval .empty (.value v :: scope) key).intoValue
            Groups.add groups access (← found.toKey access) v) []
          groups.mapM fun (key, members) => do
            let result ← (← eval .empty (.value (.list members.reverse) :: scope) total).intoValue
            pure (.record [(groupKeyField, key.value), (groupValueField, result)])
    | .aggregate op source none _ => do
        let s ← (← eval (inPart substitution 0) scope source).intoSequence
        return .value (← s.aggregate op false)
    | .aggregate op source (some projection) _ => do
        let s ← (← eval (inPart substitution 0) scope source).intoSequence
        let projected := s.then_ <| .map fun v => do
          (← eval .empty (.value v :: scope) projection).intoValue
        return .value (← projected.aggregate op true)
    | .distinct source => do
        let s ← (← eval (inPart substitution 0) scope source).intoSequence
        return .sequence (s.then_ (.distinct access []))
    | .slice source start stop => do
        let s ← (← eval (inPart substitution 0) scope source).intoSequence
        return .sequence (s.then_ (.window start 0 (stop.map (· - start))))
    | .one source none _ => do
        let s ← (← eval (inPart substitution 0) scope source).intoSequence
        match ← onlyElement s with
        | some v => pure (.value v)
        | none => EvalM.fail .noneInsteadOfOne
    | .one source (some default) _ => do
        let s ← (← eval (inPart substitution 0) scope source).intoSequence
        match ← onlyElement s with
        | some v => pure (.value v)
        | none => do
            return .value (← (← eval (inPart substitution 1) scope default).intoValue)

/-- The value of a connective. Operands are evaluated until one decides it;
otherwise null makes it null. -/
def evalOperands (substitution : Substitution) (scope : Scope) (op : BooleanOp) (sawNull : Bool)
    (position : Nat) : List Expr → EvalM Value
  | [] => pure (if sawNull then .null else .bool (!op.decisive))
  | e :: rest => do
      match ← (← eval (inPart substitution position) scope e).intoValue with
      | .bool b =>
          if b == op.decisive then pure (.bool b)
          else evalOperands substitution scope op sawNull (position + 1) rest
      | .null => evalOperands substitution scope op true (position + 1) rest
      | v => EvalM.fail (.operandNotTruth op.symbol v.kind)

def evalFields (substitution : Substitution) (scope : Scope) (position : Nat) :
    List (String × Expr) → EvalM (List (String × Value))
  | [] => pure []
  | (name, e) :: rest => do
      let v ← (← eval (inPart substitution position) scope e).intoValue
      return (name, v) :: (← evalFields substitution scope (position + 1) rest)

def evalKeys (scope : Scope) : List (Expr × Direction) → EvalM (List Value)
  | [] => pure []
  | (e, _) :: rest => do
      let v ← (← eval .empty scope e).intoValue
      return v :: (← evalKeys scope rest)

end

section

variable {substitution : Substitution} {scope : Scope} {e : Expr}

/-- A node for which there is an output is not evaluated. -/
theorem eval_output {output : Output} (h : substitution [] = some output) :
    eval access substitution scope e = pure output := by
  unfold eval
  rw [h]

theorem eval_literal (h : substitution [] = none) (v : Value) :
    eval access substitution scope (.literal v) = pure (.value v) := by
  rw [eval, h]

end

/-- Evaluates an expression over an input that is opened when it is needed. The
input is kept if it is read more than once, or from inside of a predicate or
the like. -/
def runWith (substitution : Substitution) (e : Expr) (source : EvalM Sequence) : EvalM Output := do
  let refs := e.references (fun path => (substitution path).isSome) 0
  let input ← Input.create (decide (1 < refs.total) || decide (0 < refs.nested)) source
  eval access substitution [.input input] e

/-- Evaluates an expression over a sequence. -/
def run (e : Expr) (s : Sequence) : EvalM Output := runWith access .empty e (pure s)

/-- Evaluates an expression with one value as its input. -/
def runValue (e : Expr) (v : Value) : EvalM Output := eval access .empty [.value v] e

end Expr

end RecordAlgebra
