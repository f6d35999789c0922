import RecordAlgebra.Calendar.Timestamp
import RecordAlgebra.Text.Blank
import RecordAlgebra.Text.Digits

/-!
# Text of timestamps

A timestamp is written with its date, a separator and its time. The fraction of
a second has three, six or nine digits, or is left out. Reading is more lenient
than writing: fields may have fewer digits and blanks before them, and the year
may be signed.
-/

namespace RecordAlgebra.Timestamp

/-- The number with zeros in front, up to `width` digits. -/
def padded (width n : Nat) : String :=
  let digits := Nat.toDigits 10 n
  String.ofList (List.replicate (width - digits.length) '0' ++ digits)

/-- Years of more than four digits, and negative ones, are signed. -/
def yearText (year : Int) : String :=
  if year < 0 then "-" ++ padded 4 year.natAbs
  else if year < 10000 then padded 4 year.natAbs
  else "+" ++ padded 4 year.natAbs

def fractionText (nanosecond : Nat) : String :=
  let n := nanosecond % nanosPerSecond
  if n = 0 then ""
  else if n % 1000000 = 0 then "." ++ padded 3 (n / 1000000)
  else if n % 1000 = 0 then "." ++ padded 6 (n / 1000)
  else "." ++ padded 9 n

/-- A leap second is written as second 60. -/
def textWith (separator : String) (t : Timestamp) : String :=
  yearText t.year ++ "-" ++ padded 2 t.month ++ "-" ++ padded 2 t.day ++ separator ++
  padded 2 t.hour ++ ":" ++ padded 2 t.minute ++ ":" ++
  padded 2 (t.second + t.nanosecond / nanosPerSecond) ++ fractionText t.nanosecond

/-- The text for readers. -/
def text (t : Timestamp) : String := t.textWith " "

/-- The text in which timestamps are stored. -/
def storedText (t : Timestamp) : String := t.textWith "T"

def readField? (s : List Char) : Option (Nat × List Char) :=
  Text.readDigits? (some 2) (Text.dropBlanks s)

/-- Four digits at most, unless a sign marks the year as a longer one. -/
def readYear? (s : List Char) : Option (Int × List Char) :=
  match Text.dropBlanks s with
  | '-' :: rest => (Text.readDigits? none rest).map fun (n, rest) => (-(n : Int), rest)
  | '+' :: rest => (Text.readDigits? none rest).map fun (n, rest) => ((n : Int), rest)
  | s => (Text.readDigits? (some 4) s).map fun (n, rest) => ((n : Int), rest)

def readChar? (c : Char) : List Char → Option (List Char)
  | [] => none
  | d :: rest => if c = d then some rest else none

/-- The digits after a point as nanoseconds. Digits past the ninth are skipped. -/
def readFraction? : List Char → Option (Nat × List Char)
  | '.' :: rest => do
      let (n, tail) ← Text.readDigits? (some 9) rest
      let digits := rest.length - tail.length
      pure (n * Nat.pow 10 (9 - digits), tail.dropWhile Char.isDigit)
  | s => some (0, s)

/-- Reads the stored form of a timestamp that exists. -/
def ofStoredText? (text : String) : Option Timestamp := do
  let (year, s) ← readYear? text.toList
  let (month, s) ← readField? (← readChar? '-' s)
  let (day, s) ← readField? (← readChar? '-' s)
  let (hour, s) ← readField? (← readChar? 'T' s)
  let (minute, s) ← readField? (← readChar? ':' s)
  let (second, s) ← readField? (← readChar? ':' s)
  let (nanosecond, s) ← readFraction? s
  let leap := second == 60
  let t : Timestamp :=
    { year, month, day, hour, minute
      second := if leap then 59 else second
      nanosecond := if leap then nanosPerSecond + nanosecond else nanosecond }
  if s.isEmpty && t.isValid then some t else none

end RecordAlgebra.Timestamp
