import RecordAlgebra.Proofs.Datum.Basic

/-!
# Operations on data

What expressions do with values, done with data: the same results, and errors
that are known by their kinds only.
-/

namespace RecordAlgebra.Datum

def apply (op : ArithmeticOp) (a b : Datum) : Except ErrorKind Datum :=
  match op, a, b with
  | .add, .list as, .list bs => .ok (.list (as ++ bs))
  | op, a, b => (ofResult (Value.apply unseen op a.bare b.bare)).map ofValue

def negated (op : NegationOp) (d : Datum) : Except ErrorKind Datum :=
  match op with
  | .not =>
      if d.isNull then .ok .null
      else (ofResult (d.bare.toBool unseen)).map fun b => .bool !b
  | .minus => (ofResult d.bare.negate).map ofValue

def function (f : ScalarFunction) (d : Datum) : Except ErrorKind Datum :=
  (ofResult (f.apply d.bare)).map ofValue

/-- The outcome of a predicate, where null counts as false. -/
def predicate (d : Datum) : Except ErrorKind Bool := ofResult (d.bare.toPredicate unseen)

def order (a b : Datum) : Except ErrorKind Ordering := ofResult (Value.order a.bare b.bare)

def compare (op : ComparisonOp) (a b : Datum) : Except ErrorKind Datum :=
  match op with
  | .equal => .ok (.bool (equal a b))
  | .notEqual => .ok (.bool !(equal a b))
  | op =>
      if a.isNull || b.isNull then .ok .null
      else (order a b).map fun o => .bool (op.holds o)

/-- The fields of both mappings, where those of the second one replace others. -/
def merge (a b : Datum) : Except ErrorKind Datum := do
  let fields ← a.entries
  let additions ← b.entries
  .ok (.record ((Fields.ofList fields).insertAll additions))

section Aggregates

def addToSum (sum d : Datum) : Except ErrorKind Datum :=
  match d with
  | .null => .ok sum
  | .int _ | .float _ => apply .add sum d
  | _ => .error .typeMismatch

def addToMean (mean : Value.Mean) (d : Datum) : Except ErrorKind Value.Mean :=
  ofResult (mean.add "" d.bare)

def better (wanted : Ordering) (best : Option Datum) (d : Datum) :
    Except ErrorKind (Option Datum) :=
  if d.isNull then .ok best
  else
    match best with
    | none => .ok (some d)
    | some current => do if (← order d current) == wanted then .ok (some d) else .ok (some current)

def addToCount (skipNulls : Bool) (count : Nat) (d : Datum) : Nat :=
  Value.addToCount skipNulls count d.bare

end Aggregates

/-- Data with the keys by which they are sorted. -/
def sort (directions : List Direction) (rows : List (List Datum × Datum)) :
    Except ErrorKind (List Datum) :=
  ofResult <| Value.sortKeyed directions <|
    rows.map fun row => { keys := bares row.1, value := row.2 }

/-- Groups in order of their first member, the members of each in reverse. -/
abbrev Groups := List (Datum × List Datum)

/-- Adds a member to the first group that has its key. -/
def addToGroups (key member : Datum) : Groups → Groups
  | [] => [(key, [member])]
  | (other, members) :: rest =>
      if sameKey key other then (other, member :: members) :: rest
      else (other, members) :: addToGroups key member rest

end RecordAlgebra.Datum
