import RecordAlgebra.World

/-!
# Sequences

A sequence is pulled element by element. Its feed is a list of actions that
each produce one element, and the elements go through stages that keep, change
or drop them. An error is an element like others to all of them: it is handed
on, and pulling may go on after it. Nothing is pulled before it is asked for,
and nothing at all once a stage has handed on all that it may.
-/

namespace RecordAlgebra

inductive Stage where
  | filter (keep : Value → EvalM Bool)
  | map (project : Value → EvalM Value)
  | distinct (access : ItemAccess EvalM) (seen : List Value.Key)
  /-- Drops elements before a position, and ends after so many. -/
  | window (start position : Nat) (left : Option Nat)

inductive Feed where
  | actions (elements : List (EvalM Value))
  /-- The elements are known only when the first one is pulled. -/
  | deferred (elements : EvalM (List Value))
  | endless (element : Nat → EvalM Value) (position : Nat)

/-- The stage nearest to the feed comes first. -/
structure Sequence where
  feed : Feed
  stages : List Stage

abbrev Element := Except Error Value

namespace Stage

/-- Whether the stage hands on nothing more. -/
def isSpent : Stage → Bool
  | .window _ _ (some 0) => true
  | _ => false

def isSeen (access : ItemAccess EvalM) (key : Value.Key) : List Value.Key → EvalM Bool
  | [] => pure false
  | other :: rest => do
      if ← key.equal access other then pure true else isSeen access key rest

/-- What the stage hands on for an element, and the stage after that. -/
def push (stage : Stage) (element : Element) : EvalM (Option Element × Stage) :=
  match stage, element with
  | .window start position left, .error error =>
      pure (some (.error error), .window start (position + 1) (left.map (· - 1)))
  | .window start position left, .ok v =>
      if start ≤ position then
        pure (some (.ok v), .window start (position + 1) (left.map (· - 1)))
      else pure (none, .window start (position + 1) left)
  | stage, .error error => pure (some (.error error), stage)
  | .filter keep, .ok v => do
      match ← EvalM.attempt (keep v) with
      | .ok true => pure (some (.ok v), stage)
      | .ok false => pure (none, stage)
      | .error error => pure (some (.error error), stage)
  | .map project, .ok v => do pure (some (← EvalM.attempt (project v)), stage)
  | .distinct access seen, .ok v => do
      match ← EvalM.attempt (v.toKey access) with
      | .error error => pure (some (.error error), stage)
      | .ok key =>
          if ← isSeen access key seen then pure (none, stage)
          else pure (some (.ok v), .distinct access (seen ++ [key]))

/-- An element on its way through all stages. -/
def pushAll : List Stage → Element → EvalM (Option Element × List Stage)
  | [], element => pure (some element, [])
  | stage :: rest, element => do
      match ← stage.push element with
      | (none, stage) => pure (none, stage :: rest)
      | (some element, stage) => do
          let (result, rest) ← pushAll rest element
          pure (result, stage :: rest)

end Stage

namespace Sequence

def ofActions (elements : List (EvalM Value)) : Sequence :=
  { feed := .actions elements, stages := [] }

def ofValues (values : List Value) : Sequence := ofActions (values.map pure)

def ofElements (elements : List Element) : Sequence := ofActions (elements.map EvalM.lift)

def ofDeferred (elements : EvalM (List Value)) : Sequence :=
  { feed := .deferred elements, stages := [] }

def then_ (s : Sequence) (stage : Stage) : Sequence := { s with stages := s.stages ++ [stage] }

def countPull : EvalM Unit := modify fun w => { w with pulled := w.pulled + 1 }

/-- A list of elements, each of which is counted when it is pulled. -/
def metered (elements : List Element) : Sequence :=
  ofActions (elements.map fun element => do
    countPull
    EvalM.lift element)

/-- The integers from `first` on, each of which is counted when it is pulled. -/
def meteredFrom (first : Int) : Sequence :=
  { feed := .endless (fun position => do
      countPull
      pure (.int (Int64.ofInt (first + position)))) 0
    stages := [] }

/-- How many elements of an endless feed are looked at for one result. An
evaluation that asks for more is taken not to end. -/
def patience : Nat := 1000000

def isSpent (stages : List Stage) : Bool := stages.any Stage.isSpent

/-- The first element that comes through, and what is left. -/
def nextOf : List (EvalM Value) → List Stage → EvalM (Option (Element × Sequence))
  | [], _ => pure none
  | action :: rest, stages => do
      if isSpent stages then pure none
      else
        let element ← EvalM.attempt action
        match ← Stage.pushAll stages element with
        | (some result, stages) => pure (some (result, { feed := .actions rest, stages }))
        | (none, stages) => nextOf rest stages

def nextEndless (element : Nat → EvalM Value) :
    Nat → Nat → List Stage → EvalM (Option (Element × Sequence))
  | 0, _, _ => EvalM.diverge
  | steps + 1, position, stages => do
      if isSpent stages then pure none
      else
        let result ← EvalM.attempt (element position)
        match ← Stage.pushAll stages result with
        | (some result, stages) =>
            pure (some (result, { feed := .endless element (position + 1), stages }))
        | (none, stages) => nextEndless element steps (position + 1) stages

/-- The elements of a deferred feed. If they cannot be found, the error is the
only element. -/
def settle (elements : EvalM (List Value)) : EvalM (List (EvalM Value)) := do
  match ← EvalM.attempt elements with
  | .ok values => pure (values.map pure)
  | .error error => pure [EvalM.raise error]

/-- Pulls one element. -/
def next (s : Sequence) : EvalM (Option (Element × Sequence)) := do
  if isSpent s.stages then pure none
  else
    match s.feed with
    | .actions elements => nextOf elements s.stages
    | .deferred elements => nextOf (← settle elements) s.stages
    | .endless element position => nextEndless element patience position s.stages

section Fold

variable {σ : Type} (f : σ → Value → EvalM σ)

def foldOf : List (EvalM Value) → List Stage → σ → EvalM σ
  | [], _, state => pure state
  | action :: rest, stages, state => do
      if isSpent stages then pure state
      else
        let element ← EvalM.attempt action
        match ← Stage.pushAll stages element with
        | (none, stages) => foldOf rest stages state
        | (some (.error error), _) => EvalM.raise error
        | (some (.ok v), stages) => foldOf rest stages (← f state v)

def foldEndless (element : Nat → EvalM Value) : Nat → Nat → List Stage → σ → EvalM σ
  | 0, _, _, _ => EvalM.diverge
  | steps + 1, position, stages, state => do
      if isSpent stages then pure state
      else
        let result ← EvalM.attempt (element position)
        match ← Stage.pushAll stages result with
        | (none, stages) => foldEndless element steps (position + 1) stages state
        | (some (.error error), _) => EvalM.raise error
        | (some (.ok v), stages) =>
            foldEndless element steps (position + 1) stages (← f state v)

/-- Pulls to the end or to the first error, which is then the result. -/
def fold (s : Sequence) (initial : σ) : EvalM σ := do
  if isSpent s.stages then pure initial
  else
    match s.feed with
    | .actions elements => foldOf f elements s.stages initial
    | .deferred elements => foldOf f (← settle elements) s.stages initial
    | .endless element position => foldEndless f element patience position s.stages initial

end Fold

/-- All elements, if none of them is an error. -/
def collect (s : Sequence) : EvalM (List Value) := do
  return (← s.fold (fun found v => pure (v :: found)) []).reverse

/-- Pulls up to `limit` elements, each observed as it is when it comes, and says
whether the end was reached. -/
def observe {α : Type} (present : Element → World → α) : Nat → Sequence → EvalM (List α × Bool)
  | 0, _ => pure ([], false)
  | limit + 1, s => do
      match ← s.next with
      | none => pure ([], true)
      | some (element, rest) => do
          let seen := present element (← get)
          let (others, ended) ← observe present limit rest
          pure (seen :: others, ended)

end Sequence

end RecordAlgebra
