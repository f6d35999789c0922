import RecordAlgebra.Eval.Basic
import RecordAlgebra.Proofs.Datum.Operations

/-!
# Sequences of data

What comes out of a sequence when it is pulled to its end: data, and kinds of
errors between them. Stages and aggregates are functions of such lists.
-/

namespace RecordAlgebra.Datum

abbrev Element := Except ErrorKind Datum

namespace Elements

def ofData (data : List Datum) : List Element := data.map .ok

/-- Up to the first error, which is then the outcome. -/
def fold {σ : Type} (f : σ → Datum → Except ErrorKind σ) : σ → List Element → Except ErrorKind σ
  | state, [] => .ok state
  | _, .error kind :: _ => .error kind
  | state, .ok d :: rest => do fold f (← f state d) rest

def collect : List Element → Except ErrorKind (List Datum)
  | [] => .ok []
  | .error kind :: _ => .error kind
  | .ok d :: rest => (collect rest).map (d :: ·)

def filter (keep : Datum → Except ErrorKind Bool) : List Element → List Element
  | [] => []
  | .error kind :: rest => .error kind :: filter keep rest
  | .ok d :: rest =>
      match keep d with
      | .ok true => .ok d :: filter keep rest
      | .ok false => filter keep rest
      | .error kind => .error kind :: filter keep rest

def map (project : Datum → Except ErrorKind Datum) (elements : List Element) : List Element :=
  elements.map fun element => element >>= project

def distinct (seen : List Datum) : List Element → List Element
  | [] => []
  | .error kind :: rest => .error kind :: distinct seen rest
  | .ok d :: rest =>
      if seen.any (sameKey d) then distinct seen rest
      else .ok d :: distinct (seen ++ [d]) rest

/-- Drops elements before a position, and ends after so many. -/
def window (start position : Nat) (left : Option Nat) : List Element → List Element
  | [] => []
  | element :: rest =>
      if left = some 0 then []
      else
        match element with
        | .error kind =>
            .error kind :: window start (position + 1) (left.map (· - 1)) rest
        | .ok d =>
            if start ≤ position then .ok d :: window start (position + 1) (left.map (· - 1)) rest
            else window start (position + 1) left rest

/-- Data that are known only when the first one is pulled. -/
def settle : Except ErrorKind (List Datum) → List Element
  | .ok data => ofData data
  | .error kind => [.error kind]

/-- The only element, if there is one. -/
def only : List Element → Except ErrorKind (Option Datum)
  | [] => .ok none
  | .error kind :: _ => .error kind
  | [.ok d] => .ok (some d)
  | .ok _ :: .error kind :: _ => .error kind
  | .ok _ :: .ok _ :: _ => .error .cardinality

def count (skipNulls : Bool) (elements : List Element) : Except ErrorKind Datum :=
  (fold (fun n d => .ok (addToCount skipNulls n d)) 0 elements).map fun n =>
    .int (Int64.ofNat n)

def best (wanted : Ordering) (elements : List Element) : Except ErrorKind Datum := do
  match ← fold (better wanted) none elements with
  | some d => .ok d
  | none => .error .emptyAggregation

def aggregate (op : AggregateOp) (projected : Bool) (elements : List Element) :
    Except ErrorKind Datum :=
  match op with
  | .len => count false elements
  | .count => count projected elements
  | .sum => fold addToSum (.int 0) elements
  | .avg => do
      match (← fold addToMean {} elements).value? with
      | some v => .ok (ofValue v)
      | none => .error .emptyAggregation
  | .min => best .lt elements
  | .max => best .gt elements

end Elements

end RecordAlgebra.Datum
