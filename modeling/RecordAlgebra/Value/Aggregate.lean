import RecordAlgebra.Value.Arithmetic
import RecordAlgebra.Value.Order

/-!
# Steps of aggregates

Aggregates are computed one value at a time, and null changes nothing. The name
of the aggregate is only needed for errors.
-/

namespace RecordAlgebra.Value

/-- The sum of the numbers so far and one more. -/
def addToSum (view : ItemRef → String) (name : String) (sum v : Value) : Except Error Value :=
  match v with
  | .null => .ok sum
  | .int _ | .float _ => add view sum v
  | v => .error (.ofCause (.cannotAggregateValue name v.kind))

/-- The sum of numbers as a double, and how many there were. -/
structure Mean where
  sum : Float := 0.0
  count : Nat := 0

def Mean.add (name : String) (mean : Mean) (v : Value) : Except Error Mean :=
  match v with
  | .null => .ok mean
  | .int n => .ok { sum := mean.sum + toFloat n, count := mean.count + 1 }
  | .float x => .ok { sum := mean.sum + x, count := mean.count + 1 }
  | v => .error (.ofCause (.cannotAggregateValue name v.kind))

/-- The mean, if there were any numbers. -/
def Mean.value? (mean : Mean) : Option Value :=
  if mean.count = 0 then none else some (.float (mean.sum / Float.ofNat mean.count))

/-- The best value so far, where a value is better than another one if it
compares to it as `wanted`. Of equally good values the first one is kept. -/
def better (wanted : Ordering) (best : Option Value) (v : Value) : Except Error (Option Value) :=
  if v.isNull then .ok best
  else
    match best with
    | none => .ok (some v)
    | some current => do
        if (← order v current) == wanted then .ok (some v) else .ok (some current)

/-- One more, unless nulls do not count and this is one. -/
def addToCount (skipNulls : Bool) (count : Nat) (v : Value) : Nat :=
  if skipNulls && v.isNull then count else count + 1

def ofCount (count : Nat) : Value := .int (Int64.ofNat count)

end RecordAlgebra.Value
