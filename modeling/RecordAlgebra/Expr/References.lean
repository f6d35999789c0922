import RecordAlgebra.Expr.Basic

/-!
# References to the input

A context refers to the input of the whole if its depth reaches past every
binding between it and the root. A node is named by its path, the positions of
the parts that lead to it.
-/

namespace RecordAlgebra

abbrev Path := List Nat

/-- How often the input is referred to under the bindings of the root, and from
inside of predicates, projections, keys and aggregates. -/
structure References where
  direct : Nat
  nested : Nat
  deriving DecidableEq, Repr

namespace References

def zero : References := { direct := 0, nested := 0 }

def add (a b : References) : References :=
  { direct := a.direct + b.direct, nested := a.nested + b.nested }

instance : Add References := ⟨add⟩

def total (r : References) : Nat := r.direct + r.nested

/-- Whether the input is used once, and not from inside a predicate or the like. -/
def isSingleDirect (r : References) : Bool := r.direct == 1 && r.nested == 0

end References

/-- What is known of the nodes of an expression, for its part at a position. -/
def inPart {α : Type} (known : Path → α) (position : Nat) : Path → α :=
  fun path => known (position :: path)

namespace Expr

mutual

/-- References below `depth` bindings, leaving out the nodes with these paths. -/
def references (skip : Path → Bool) (depth : Nat) (e : Expr) : References :=
  if skip [] then .zero
  else match e with
    | .context n _ =>
        if n = depth then
          if depth = 0 then { direct := 1, nested := 0 } else { direct := 0, nested := 1 }
        else .zero
    | .literal _ => .zero
    | .field part _ _ | .negation _ part | .function _ part | .distinct part | .slice part _ _ =>
        references (inPart skip 0) depth part
    | .comparison _ left right | .arithmetic _ left right _ | .merge left right _ =>
        references (inPart skip 0) depth left + references (inPart skip 1) depth right
    | .boolean _ operands => operandReferences skip depth 0 operands
    | .record fields _ => fieldReferences skip depth 0 fields
    | .filter source predicate =>
        references (inPart skip 0) depth source + references (inPart skip 1) (depth + 1) predicate
    | .map source projection _ =>
        references (inPart skip 0) depth source + references (inPart skip 1) (depth + 1) projection
    | .sort source keys =>
        references (inPart skip 0) depth source + keyReferences skip (depth + 1) 1 keys
    | .groupBy source key total _ =>
        references (inPart skip 0) depth source + references (inPart skip 1) (depth + 1) key +
          references (inPart skip 2) (depth + 1) total
    | .aggregate _ source none _ | .one source none _ => references (inPart skip 0) depth source
    | .aggregate _ source (some projection) _ =>
        references (inPart skip 0) depth source + references (inPart skip 1) (depth + 1) projection
    | .one source (some default) _ =>
        references (inPart skip 0) depth source + references (inPart skip 1) depth default

def operandReferences (skip : Path → Bool) (depth position : Nat) : List Expr → References
  | [] => .zero
  | e :: rest =>
      references (inPart skip position) depth e + operandReferences skip depth (position + 1) rest

def fieldReferences (skip : Path → Bool) (depth position : Nat) :
    List (String × Expr) → References
  | [] => .zero
  | (_, e) :: rest =>
      references (inPart skip position) depth e + fieldReferences skip depth (position + 1) rest

def keyReferences (skip : Path → Bool) (depth position : Nat) :
    List (Expr × Direction) → References
  | [] => .zero
  | (e, _) :: rest =>
      references (inPart skip position) depth e + keyReferences skip depth (position + 1) rest

end

/-- References to the input of the whole expression. -/
def inputReferences (e : Expr) : References := references (fun _ => false) 0 e

/-- The node that a path leads to. -/
def node? : Expr → Path → Option Expr
  | e, [] => some e
  | e, position :: path =>
      match e.children[position]? with
      | some (child, _) => node? child path
      | none => none

end Expr

end RecordAlgebra
