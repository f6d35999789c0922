/-!
# Binary floating point numbers

A double is read as a signed natural multiple of a power of two. Numbers are
ordered by a single integer key, under which the two zeros are one number and
the undefined number comes after every other.
-/

namespace RecordAlgebra.Binary64

/-- What the bits of a double stand for. A finite number is
`significand * 2 ^ exponent`, negated if `negative`. -/
inductive Parts where
  | undefined
  | infinite (negative : Bool)
  | finite (negative : Bool) (significand : Nat) (exponent : Int)
  deriving DecidableEq, Repr

/-- The place value of the sign bit. -/
def signUnit : Nat := 0x8000000000000000

/-- The place value of the exponent, and the hidden bit of a significand. -/
def exponentUnit : Nat := 0x10000000000000

def signBit (x : Float) : Bool := x.toBits.toNat / signUnit % 2 == 1

/-- The bits below the sign. They grow with the absolute value. -/
def magnitude (x : Float) : Nat := x.toBits.toNat % signUnit

def parts (x : Float) : Parts :=
  let field : Nat := magnitude x / exponentUnit
  let fraction : Nat := magnitude x % exponentUnit
  if field = 2047 then
    if fraction = 0 then .infinite (signBit x) else .undefined
  else if field = 0 then .finite (signBit x) fraction (-1074)
  else .finite (signBit x) (exponentUnit + fraction) ((field : Int) - 1075)

def isUndefined (x : Float) : Bool := 2047 * exponentUnit < magnitude x

/-- Neither infinite nor undefined. -/
def isFinite (x : Float) : Bool := magnitude x < 2047 * exponentUnit

def isZero (x : Float) : Bool := magnitude x == 0

/-- The place of a number in the total order of numbers. -/
def orderKey (x : Float) : Int :=
  if isUndefined x then signUnit
  else if signBit x then -(magnitude x : Int)
  else magnitude x

def order (x y : Float) : Ordering := compare (orderKey x) (orderKey y)

/-- The double with these parts, for a significand below `2 ^ 53` and parts
that a double can hold exactly. -/
def ofParts (negative : Bool) (significand : Nat) (exponent : Int) : Float :=
  let length := significand.log2
  let unsigned :=
    if significand = 0 then 0
    else if exponent + length < -1022 then significand <<< (exponent + 1074).toNat
    else
      (exponent + length + 1023).toNat * exponentUnit +
        ((significand <<< (52 - length)) - exponentUnit)
  Float.ofBits ((if negative then signUnit else 0) + unsigned).toUInt64

/-- The remainder of the division that truncates toward zero. It has the sign
of the dividend, and it is exact. -/
def remainder (x y : Float) : Float :=
  match parts x, parts y with
  | .undefined, _ | _, .undefined | .infinite _, _ => 0.0 / 0.0
  | .finite .., .infinite _ => x
  | .finite negative m p, .finite _ n q =>
      if n = 0 then 0.0 / 0.0
      else
        let exponent := min p q
        let dividend := m <<< (p - exponent).toNat
        let divisor := n <<< (q - exponent).toNat
        ofParts negative (dividend % divisor) exponent

theorem order_self (x : Float) : order x x = .eq := by
  simp [order]

theorem order_eq_iff (x y : Float) : order x y = .eq ↔ orderKey x = orderKey y := by
  simp [order]

theorem order_swap (x y : Float) : (order x y).swap = order y x := by
  simp only [order]
  exact Std.OrientedCmp.eq_swap.symm

end RecordAlgebra.Binary64
