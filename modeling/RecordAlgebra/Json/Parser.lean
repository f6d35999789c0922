import RecordAlgebra.Binary64.Basic
import RecordAlgebra.Json.Basic
import RecordAlgebra.Text.Digits

/-!
# Reading JSON

A literal without fraction and exponent is an integer if it fits a signed or an
unsigned word of 64 bits; `-0` and every other literal are doubles. A repeated
member keeps its first place and takes its last value. Documents may be nested
to a limited depth.
-/

namespace RecordAlgebra.Json

abbrev Chars := List Char

def skipBlanks (s : Chars) : Chars :=
  s.dropWhile fun c => c = ' ' || c = '\n' || c = '\t' || c = '\r'

def hexValue? (c : Char) : Option Nat :=
  if '0' ≤ c && c ≤ '9' then some (c.toNat - '0'.toNat)
  else if 'a' ≤ c && c ≤ 'f' then some (c.toNat - 'a'.toNat + 10)
  else if 'A' ≤ c && c ≤ 'F' then some (c.toNat - 'A'.toNat + 10)
  else none

/-- Four hexadecimal digits. -/
def readUnit? : Chars → Option (Nat × Chars)
  | a :: b :: c :: d :: rest => do
      let a ← hexValue? a
      let b ← hexValue? b
      let c ← hexValue? c
      let d ← hexValue? d
      pure (((a * 16 + b) * 16 + c) * 16 + d, rest)
  | _ => none

/-- The character after an escaped `u`: one unit, or a surrogate pair. -/
def readEscapedUnit? (s : Chars) : Option (Char × Chars) := do
  let (high, rest) ← readUnit? s
  if 0xD800 ≤ high && high ≤ 0xDBFF then
    match rest with
    | '\\' :: 'u' :: rest =>
        let (low, rest) ← readUnit? rest
        if 0xDC00 ≤ low && low ≤ 0xDFFF then
          pure (Char.ofNat (0x10000 + (high - 0xD800) * 0x400 + (low - 0xDC00)), rest)
        else none
    | _ => none
  else if 0xDC00 ≤ high && high ≤ 0xDFFF then none
  else pure (Char.ofNat high, rest)

def simpleEscape? : Char → Option Char
  | '"' => some '"'
  | '\\' => some '\\'
  | '/' => some '/'
  | 'b' => some '\x08'
  | 'f' => some '\x0c'
  | 'n' => some '\n'
  | 'r' => some '\r'
  | 't' => some '\t'
  | _ => none

/-- The rest of a string after its opening quote; what was read so far comes in
reverse. Each step reads a character, so the length of the text bounds them. -/
def readString? : Nat → List Char → Chars → Option (String × Chars)
  | 0, _, _ => none
  | _, _, [] => none
  | _, done, '"' :: rest => some (String.ofList done.reverse, rest)
  | steps + 1, done, '\\' :: 'u' :: rest =>
      match readEscapedUnit? rest with
      | none => none
      | some (c, rest) => readString? steps (c :: done) rest
  | steps + 1, done, '\\' :: e :: rest =>
      match simpleEscape? e with
      | none => none
      | some c => readString? steps (c :: done) rest
  | steps + 1, done, c :: rest =>
      if c.toNat < 0x20 || c = '\\' then none else readString? steps (c :: done) rest

/-- The double nearest to `digits * 10 ^ exponent`, unless it is infinite. -/
def decimal? (negative : Bool) (digits : Nat) (exponent : Int) : Option Float :=
  let size := exponent + (Nat.toDigits 10 digits).length
  let unsigned : Option Float :=
    if digits = 0 || size < -400 then some 0.0
    else if 400 < size then none
    else
      let x := if exponent < 0 then Float.ofScientific digits true exponent.natAbs
        else Float.ofScientific digits false exponent.natAbs
      if Binary64.isFinite x then some x else none
  unsigned.map fun x => if negative then -x else x

def readExponent? (s : Chars) : Option (Int × Chars) :=
  let (negative, s) := match s with
    | '-' :: rest => (true, rest)
    | '+' :: rest => (false, rest)
    | s => (false, s)
  (Text.readDigits? none s).map fun (n, rest) => (if negative then -(n : Int) else n, rest)

def integer (negative : Bool) (n : Nat) : Option Json :=
  if negative then
    if n = 0 then some (.float (-0.0))
    else if n ≤ 1 <<< 63 then some (.int (-(n : Int)))
    else (decimal? true n 0).map .float
  else if n < 1 <<< 64 then some (.int n)
  else (decimal? false n 0).map .float

def readNumber? (s : Chars) : Option (Json × Chars) := do
  let (negative, s) := match s with
    | '-' :: rest => (true, rest)
    | s => (false, s)
  let (whole, rest) ← Text.readDigits? none s
  if s.head? = some '0' && rest.length + 1 < s.length then none
  let (fraction, rest) ← match rest with
    | '.' :: tail => do
        let (_, after) ← Text.readDigits? none tail
        pure (some (tail.take (tail.length - after.length)), after)
    | rest => some (none, rest)
  let (exponent, rest) ← match rest with
    | 'e' :: tail | 'E' :: tail => (readExponent? tail).map fun (e, after) => (some e, after)
    | rest => some (none, rest)
  if fraction.isNone && exponent.isNone then
    (integer negative whole).map (·, rest)
  else
    let digits := fraction.getD []
    let coefficient := whole * Nat.pow 10 digits.length + Text.numberOfDigits digits
    (decimal? negative coefficient (exponent.getD 0 - digits.length)).map fun x => (.float x, rest)

mutual

/-- Reads a document. Each call uses up a step, and two steps are enough for
each character of the text. -/
def readValue? : Nat → Nat → Chars → Option (Json × Chars)
  | 0, _, _ => none
  | steps + 1, depth, s =>
      match skipBlanks s with
      | 'n' :: 'u' :: 'l' :: 'l' :: rest => some (.null, rest)
      | 't' :: 'r' :: 'u' :: 'e' :: rest => some (.bool true, rest)
      | 'f' :: 'a' :: 'l' :: 's' :: 'e' :: rest => some (.bool false, rest)
      | '"' :: rest => (readString? (rest.length + 1) [] rest).map fun (t, rest) => (.text t, rest)
      | '[' :: rest =>
          if depth ≤ 1 then none
          else match skipBlanks rest with
            | ']' :: rest => some (.array [], rest)
            | rest => (readElements? steps (depth - 1) rest).map fun (es, rest) => (.array es, rest)
      | '\x7b' :: rest =>
          if depth ≤ 1 then none
          else match skipBlanks rest with
            | '\x7d' :: rest => some (.object [], rest)
            | rest =>
                (readMembers? steps (depth - 1) rest).map fun (ms, rest) =>
                  (.object (Fields.ofList ms), rest)
      | s => readNumber? s

/-- The elements up to the closing bracket, of which there is at least one. -/
def readElements? : Nat → Nat → Chars → Option (List Json × Chars)
  | 0, _, _ => none
  | steps + 1, depth, s =>
      match readValue? steps depth s with
      | none => none
      | some (element, rest) =>
          match skipBlanks rest with
          | ',' :: rest =>
              (readElements? steps depth rest).map fun (es, rest) => (element :: es, rest)
          | ']' :: rest => some ([element], rest)
          | _ => none

/-- The members up to the closing brace, of which there is at least one. -/
def readMembers? : Nat → Nat → Chars → Option (List (String × Json) × Chars)
  | 0, _, _ => none
  | steps + 1, depth, s =>
      match skipBlanks s with
      | '"' :: rest =>
          match readString? (rest.length + 1) [] rest with
          | none => none
          | some (name, rest) =>
              match skipBlanks rest with
              | ':' :: rest =>
                  match readValue? steps depth rest with
                  | none => none
                  | some (value, rest) =>
                      match skipBlanks rest with
                      | ',' :: rest =>
                          (readMembers? steps depth rest).map fun (ms, rest) =>
                            ((name, value) :: ms, rest)
                      | '\x7d' :: rest => some ([(name, value)], rest)
                      | _ => none
              | _ => none
      | _ => none

end

/-- The document that the text consists of, if fewer than `depth` arrays and
objects enclose one another in it. -/
def parseWithin? (depth : Nat) (text : String) : Option Json :=
  let s := text.toList
  match readValue? (2 * s.length + 2) depth s with
  | some (document, rest) => if (skipBlanks rest).isEmpty then some document else none
  | none => none

/-- The depth that documents stay below. -/
def depthLimit : Nat := 128

def parse? (text : String) : Option Json := parseWithin? depthLimit text

end RecordAlgebra.Json
