import RecordAlgebra.Binary64.Decimal

/-!
# Text of numbers

A number is written with its shortest digits. A format says which decimal
exponents are written positionally, and whether an integral number keeps a
fractional part.
-/

namespace RecordAlgebra.Binary64

structure NumberFormat where
  tie : Tie
  /-- Whether a number whose first digit stands at this power of ten is written
  positionally. -/
  positional : Int → Bool
  /-- Written after the digits of an integral number. -/
  integralTail : String

/-- The text of values: always positional, integral numbers without a point. -/
def NumberFormat.plain : NumberFormat :=
  { tie := .away, positional := fun _ => true, integralTail := "" }

/-- The text of numbers in documents: positional from `0.00001` up to sixteen
digits before the point, and always recognisable as a fractional number. -/
def NumberFormat.document : NumberFormat :=
  { tie := .toEven, positional := fun e => -5 ≤ e && e ≤ 15, integralTail := ".0" }

def zeros (n : Nat) : String := String.ofList (List.replicate n '0')

/-- Digits with the point after `whole` of them. -/
def positionalText (digits : List Char) (whole : Int) (integralTail : String) : String :=
  let count : Int := digits.length
  if whole ≤ 0 then "0." ++ zeros (-whole).toNat ++ String.ofList digits
  else if count ≤ whole then
    String.ofList digits ++ zeros (whole - count).toNat ++ integralTail
  else
    String.ofList (digits.take whole.toNat) ++ "." ++ String.ofList (digits.drop whole.toNat)

def scientificText (digits : List Char) (exponent : Int) : String :=
  let mantissa := match digits with
    | [] => ""
    | [d] => String.ofList [d]
    | d :: rest => String.ofList [d] ++ "." ++ String.ofList rest
  let sign := if exponent < 0 then "e-" else "e+"
  mantissa ++ sign ++ toString exponent.natAbs

def Decimal.text (format : NumberFormat) (d : Decimal) : String :=
  let digits := Nat.toDigits 10 d.coefficient
  let whole := d.exponent + digits.length
  if format.positional (whole - 1) then positionalText digits whole format.integralTail
  else scientificText digits (whole - 1)

def text (format : NumberFormat) (x : Float) : String :=
  match parts x with
  | .undefined => "NaN"
  | .infinite negative => if negative then "-inf" else "inf"
  | .finite negative significand exponent =>
      (if negative then "-" else "") ++ (shortest format.tie significand exponent).text format

end RecordAlgebra.Binary64
