import RecordAlgebra.Value.Basic

/-!
# Order of values

Null comes first, numbers of both kinds are ordered together, and lists are
ordered by their first difference. Other values of different kinds have no
order. The total order agrees with the order wherever there is one and goes by
kind elsewhere.
-/

namespace RecordAlgebra.Value

def orderBytes : List UInt8 → List UInt8 → Ordering
  | [], [] => .eq
  | [], _ :: _ => .lt
  | _ :: _, [] => .gt
  | a :: as, b :: bs => (compare a b).then (orderBytes as bs)

mutual

def order : Value → Value → Except Error Ordering
  | .null, .null => .ok .eq
  | .null, _ => .ok .lt
  | _, .null => .ok .gt
  | .bool a, .bool b => .ok (compare a b)
  | .int a, .int b => .ok (compare a.toInt b.toInt)
  | .int a, .float b => .ok (Binary64.order (toFloat a) b)
  | .float a, .int b => .ok (Binary64.order a (toFloat b))
  | .float a, .float b => .ok (Binary64.order a b)
  | .text a, .text b => .ok (compare a b)
  | .bytes a, .bytes b => .ok (orderBytes a b)
  | .timestamp a, .timestamp b => .ok (a.order b)
  | .list as, .list bs => orderLists as bs
  | a, b => .error (.ofCause (.unorderedValues a.kind b.kind))

def orderLists : List Value → List Value → Except Error Ordering
  | [], [] => .ok .eq
  | [], _ :: _ => .ok .lt
  | _ :: _, [] => .ok .gt
  | a :: as, b :: bs =>
      match order a b with
      | .ok .eq => orderLists as bs
      | decided => decided

end

/-- The place of the kind of a value among the kinds. -/
def rank : Value → Nat
  | .null => 0
  | .bool _ => 1
  | .int _ | .float _ => 2
  | .text _ => 3
  | .bytes _ => 4
  | .timestamp _ => 5
  | .list _ => 6
  | .record _ | .item _ => 7

mutual

def totalOrder : Value → Value → Ordering
  | .list as, .list bs => totalOrderLists as bs
  | a, b =>
      match order a b with
      | .ok decided => decided
      | .error _ => compare a.rank b.rank

def totalOrderLists : List Value → List Value → Ordering
  | [], [] => .eq
  | [], _ :: _ => .lt
  | _ :: _, [] => .gt
  | a :: as, b :: bs => (totalOrder a b).then (totalOrderLists as bs)

end

end RecordAlgebra.Value
