import RecordAlgebra.Value.Basic

/-!
# Arithmetic on values

Integers stay integers, and an operation whose exact result does not fit fails.
Only division always gives a fractional number. With a fractional operand the
other is made fractional, and with a null operand the result is null.
-/

namespace RecordAlgebra

inductive ArithmeticOp where
  | add
  | subtract
  | multiply
  | divide
  | remainder
  deriving DecidableEq, Repr

namespace ArithmeticOp

def symbol : ArithmeticOp → String
  | .add => "+"
  | .subtract => "-"
  | .multiply => "*"
  | .divide => "/"
  | .remainder => "%"

/-- The operation as errors name it. -/
def verb : ArithmeticOp → String
  | .add => "add"
  | .subtract => "subtract"
  | .multiply => "multiply"
  | .divide => "divide"
  | .remainder => "take the remainder of"

end ArithmeticOp

/-- The integer as a word, if it is in the range of words. -/
def wordOfInt? (n : Int) : Option Int64 :=
  if Int64.minValue.toInt ≤ n ∧ n ≤ Int64.maxValue.toInt then some (Int64.ofInt n) else none

theorem toInt_of_wordOfInt? {n : Int} {w : Int64} (h : wordOfInt? n = some w) : w.toInt = n := by
  unfold wordOfInt? at h
  split at h
  · next range =>
      cases h
      simp only [Int64.toInt_minValue, Int64.toInt_maxValue] at range
      exact Int64.toInt_ofInt_of_le range.1 (by omega)
  · cases h

/-- The exact result of an operation, if it is in the range of words. -/
def exactly (op : Int → Int → Int) (a b : Int64) : Option Int64 := wordOfInt? (op a.toInt b.toInt)

/-- The remainder of the division toward zero. It is taken together with the
quotient, so it fails where the quotient is out of range. -/
def wordRemainder? (a b : Int64) : Option Int64 :=
  (exactly Int.tdiv a b).bind fun _ => exactly Int.tmod a b

namespace Value

variable (view : ItemRef → String)

/-- An operation with one meaning on integers, which may fail to fit, and one on
doubles. -/
def numeric (op : ArithmeticOp) (onInts : Int64 → Int64 → Option Int64)
    (onFloats : Float → Float → Float)
    (left right : Value) : Except Error Value :=
  match left, right with
  | .null, _ | _, .null => .ok .null
  | .int a, .int b =>
      match onInts a b with
      | some n => .ok (.int n)
      | none =>
          .error <| ((Error.ofCause (.overflow op.verb)).attach "left" (left.render view)).attach
            "right" (right.render view)
  | .int a, .float b => .ok (.float (onFloats (toFloat a) b))
  | .float a, .int b => .ok (.float (onFloats a (toFloat b)))
  | .float a, .float b => .ok (.float (onFloats a b))
  | _, _ => .error (.ofCause (.cannotCombine op.verb left.kind right.kind))

def add (left right : Value) : Except Error Value :=
  match left, right with
  | .text a, .text b => .ok (.text (a ++ b))
  | .list a, .list b => .ok (.list (a ++ b))
  | _, _ => numeric view .add (exactly (· + ·)) (· + ·) left right

def subtract : Value → Value → Except Error Value :=
  numeric view .subtract (exactly (· - ·)) (· - ·)

def multiply : Value → Value → Except Error Value :=
  numeric view .multiply (exactly (· * ·)) (· * ·)

def isZero : Value → Bool
  | .int n => n = 0
  | .float x => Binary64.isZero x
  | _ => false

def zeroDivision (left : Value) : Error :=
  (Error.ofCause .divisionByZero).attach "left" (left.render view)

def divide (left right : Value) : Except Error Value :=
  if left.isNull || right.isNull then .ok .null
  else if left.isNumber && right.isZero then .error (zeroDivision view left)
  else
    match left, right with
    | .int a, .int b => .ok (.float (toFloat a / toFloat b))
    | .int a, .float b => .ok (.float (toFloat a / b))
    | .float a, .int b => .ok (.float (a / toFloat b))
    | .float a, .float b => .ok (.float (a / b))
    | _, _ => .error (.ofCause (.cannotCombine ArithmeticOp.divide.verb left.kind right.kind))

/-- A zero divisor is found before the kinds of the operands are looked at. -/
def remainder (left right : Value) : Except Error Value :=
  if left.isNull || right.isNull then .ok .null
  else if right.isZero then .error (zeroDivision view left)
  else numeric view .remainder wordRemainder? Binary64.remainder left right

def apply : ArithmeticOp → Value → Value → Except Error Value
  | .add => add view
  | .subtract => subtract view
  | .multiply => multiply view
  | .divide => divide view
  | .remainder => remainder view

def negate : Value → Except Error Value
  | .null => .ok .null
  | .int n =>
      match wordOfInt? (-n.toInt) with
      | some n => .ok (.int n)
      | none => .error (.ofCause (.overflow "negate"))
  | .float x => .ok (.float (-x))
  | v => .error (.ofCause (.cannotNegateValue v.kind))

end Value

end RecordAlgebra
