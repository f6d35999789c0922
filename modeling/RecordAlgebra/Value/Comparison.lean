import RecordAlgebra.Value.Access
import RecordAlgebra.Value.Order

/-!
# Comparisons

Equality holds or fails for any two values. The other comparisons need an order
between the operands, and with a null operand their result is null.
-/

namespace RecordAlgebra

inductive ComparisonOp where
  | equal
  | notEqual
  | less
  | lessOrEqual
  | greater
  | greaterOrEqual
  deriving DecidableEq, Repr

namespace ComparisonOp

def symbol : ComparisonOp → String
  | .equal => "=="
  | .notEqual => "!="
  | .less => "<"
  | .lessOrEqual => "<="
  | .greater => ">"
  | .greaterOrEqual => ">="

def isOrdering : ComparisonOp → Bool
  | .equal | .notEqual => false
  | _ => true

/-- The operator for exchanged operands. -/
def flip : ComparisonOp → ComparisonOp
  | .equal => .equal
  | .notEqual => .notEqual
  | .less => .greater
  | .lessOrEqual => .greaterOrEqual
  | .greater => .less
  | .greaterOrEqual => .lessOrEqual

/-- The operator that holds exactly where this one does not. -/
def negate : ComparisonOp → ComparisonOp
  | .equal => .notEqual
  | .notEqual => .equal
  | .less => .greaterOrEqual
  | .lessOrEqual => .greater
  | .greater => .lessOrEqual
  | .greaterOrEqual => .less

/-- Whether the operator holds when the left operand compares like this to the
right one. -/
def holds : ComparisonOp → Ordering → Bool
  | .equal, o => o == .eq
  | .notEqual, o => o != .eq
  | .less, o => o == .lt
  | .lessOrEqual, o => o != .gt
  | .greater, o => o == .gt
  | .greaterOrEqual, o => o != .lt

theorem flip_flip (op : ComparisonOp) : op.flip.flip = op := by
  cases op <;> rfl

theorem negate_negate (op : ComparisonOp) : op.negate.negate = op := by
  cases op <;> rfl

theorem holds_flip (op : ComparisonOp) (o : Ordering) : op.flip.holds o.swap = op.holds o := by
  cases op <;> cases o <;> rfl

theorem holds_negate (op : ComparisonOp) (o : Ordering) : op.negate.holds o = !op.holds o := by
  cases op <;> cases o <;> rfl

end ComparisonOp

namespace Value

variable {m : Type → Type} [Monad m] [MonadExceptOf Error m]

def compare (access : ItemAccess m) (op : ComparisonOp) (left right : Value) : m Value :=
  match op with
  | .equal => do pure (.bool (← equal access.equal left right))
  | .notEqual => do pure (.bool (!(← equal access.equal left right)))
  | op =>
      if left.isNull || right.isNull then pure .null
      else
        match order left right with
        | .ok o => pure (.bool (op.holds o))
        | .error e => throwThe Error e

end Value

end RecordAlgebra
