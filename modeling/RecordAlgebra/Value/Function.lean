import RecordAlgebra.Pattern
import RecordAlgebra.Text.Case
import RecordAlgebra.Value.Basic

/-!
# Functions of one value

Functions take null to null, and fail for values of other kinds than they are
made for.
-/

namespace RecordAlgebra

inductive ScalarFunction where
  | upper
  | lower
  /-- The number of characters of a text, or of elements of a list. -/
  | length
  | matches (pattern : Pattern)

namespace ScalarFunction

def name : ScalarFunction → String
  | .upper => "upper"
  | .lower => "lower"
  | .length => "length"
  | .matches _ => "matches"

def same : ScalarFunction → ScalarFunction → Bool
  | .upper, .upper | .lower, .lower | .length, .length => true
  | .matches a, .matches b => a.same b
  | _, _ => false

def returnType : ScalarFunction → DataType
  | .upper | .lower => .text
  | .length => .int
  | .matches _ => .boolean

def accepts : ScalarFunction → DataType → Bool
  | _, .any | _, .null => true
  | .length, .list _ => true
  | _, .text => true
  | _, _ => false

def checkInput (f : ScalarFunction) (type : DataType) : Except Error Unit :=
  if f.accepts type then .ok () else .error (.ofCause (.functionOnType f.name type.label))

def apply (f : ScalarFunction) (v : Value) : Except Error Value :=
  match f, v with
  | _, .null => .ok .null
  | .upper, .text s => .ok (.text (Text.upper s))
  | .lower, .text s => .ok (.text (Text.lower s))
  | .length, .text s => .ok (.int (Int64.ofNat s.length))
  | .length, .list elements => .ok (.int (Int64.ofNat elements.length))
  | .matches pattern, .text s => .ok (.bool (pattern.isMatch s))
  | f, v => .error (.ofCause (.functionOnValue f.name v.kind))

theorem apply_null (f : ScalarFunction) : f.apply .null = .ok .null := by
  cases f <;> rfl

end ScalarFunction

end RecordAlgebra
