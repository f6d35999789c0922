import RecordAlgebra.Binary64.Basic

/-!
# Shortest decimals

The shortest decimal of a double has the fewest digits among the decimals that
read back as that double, and is the nearest to it among those. Decimals of one
length lie on a grid of powers of ten, and if any point of the grid reads back,
then one of the two neighbours of the number on the grid does. So it is enough
to test the two neighbours on finer and finer grids.
-/

namespace RecordAlgebra.Binary64

/-- `coefficient * 10 ^ exponent`. -/
structure Decimal where
  coefficient : Nat
  exponent : Int
  deriving DecidableEq, Repr

/-- Which of two equally near decimals is taken. -/
inductive Tie where
  | toEven
  | away
  deriving DecidableEq, Repr

/-- A positive fraction, and the open or closed interval of fractions over the
same denominator that round to it. -/
structure Rounding where
  low : Nat
  centre : Nat
  high : Nat
  denominator : Nat
  closed : Bool

namespace Rounding

/-- The numbers that round to `significand * 2 ^ exponent`. Below a power of
two the neighbours are half as far apart. -/
def ofParts (significand : Nat) (exponent : Int) : Rounding :=
  let narrow := significand = exponentUnit && -1074 < exponent
  let scale := 1 <<< (exponent - 2).toNat
  { low := (4 * significand - if narrow then 1 else 2) * scale
    centre := 4 * significand * scale
    high := (4 * significand + 2) * scale
    denominator := 1 <<< (2 - exponent).toNat
    closed := significand % 2 = 0 }

/-- The same interval measured in units of `10 ^ place`. -/
def inUnits (r : Rounding) (place : Int) : Rounding :=
  let up := Nat.pow 10 (-place).toNat
  { r with
    low := r.low * up
    centre := r.centre * up
    high := r.high * up
    denominator := r.denominator * Nat.pow 10 place.toNat }

def contains (r : Rounding) (point : Nat) : Bool :=
  let p := point * r.denominator
  if r.closed then r.low ≤ p && p ≤ r.high else r.low < p && p < r.high

/-- The nearer of the grid points around the centre that lie in the interval. -/
def nearest? (r : Rounding) (tie : Tie) : Option Nat :=
  let below := r.centre / r.denominator
  let above := below + 1
  match r.contains below, r.contains above with
  | false, false => none
  | true, false => some below
  | false, true => some above
  | true, true =>
      let gap := r.centre - below * r.denominator
      match compare (2 * gap) r.denominator with
      | .lt => some below
      | .gt => some above
      | .eq =>
          match tie with
          | .away => some above
          | .toEven => some (if below % 2 = 0 then below else above)

/-- The least `e` such that the centre is below `10 ^ e`. -/
def decimalPlaces (r : Rounding) : Int :=
  let whole := r.centre / r.denominator
  if 0 < whole then (Nat.toDigits 10 whole).length
  else 1 - (Nat.toDigits 10 ((r.denominator - 1) / r.centre)).length

end Rounding

/-- The coefficient without trailing zeros, with as many steps as it may have. -/
def Decimal.trim : Nat → Decimal → Decimal
  | 0, d => d
  | n + 1, d =>
      if d.coefficient % 10 = 0 && d.coefficient ≠ 0 then
        Decimal.trim n { coefficient := d.coefficient / 10, exponent := d.exponent + 1 }
      else d

/-- The shortest decimal of `significand * 2 ^ exponent`. Seventeen digits
always read back. -/
def shortest (tie : Tie) (significand : Nat) (exponent : Int) : Decimal :=
  if significand = 0 then { coefficient := 0, exponent := 0 }
  else
    let rounding := Rounding.ofParts significand exponent
    let places := rounding.decimalPlaces
    let onGrid (digits : Nat) : Option Decimal :=
      let place := places - digits
      ((rounding.inUnits place).nearest? tie).map fun c => { coefficient := c, exponent := place }
    (((List.range 17).map (· + 1)).findSome? onGrid).elim
      { coefficient := 0, exponent := 0 } (Decimal.trim 17)

end RecordAlgebra.Binary64
