/-!
# Runs of digits

Decimal numbers are read from the front of a text, as many digits as are there
or up to a given width.
-/

namespace RecordAlgebra.Text

def numberOfDigits (digits : List Char) : Nat :=
  digits.foldl (fun n c => 10 * n + (c.toNat - '0'.toNat)) 0

/-- A number of at least one digit and at most `width`, and what follows it. -/
def readDigits? (width : Option Nat) (s : List Char) : Option (Nat × List Char) :=
  let all := s.takeWhile Char.isDigit
  let digits := match width with
    | none => all
    | some width => all.take width
  if digits.isEmpty then none else some (numberOfDigits digits, s.drop digits.length)

end RecordAlgebra.Text
