import RecordAlgebra.Binary64.Text
import RecordAlgebra.Json.Basic

/-!
# Writing JSON

Documents are written without blanks. In strings only the quote, the backslash
and control characters are escaped.
-/

namespace RecordAlgebra.Json

def hexDigit (n : Nat) : Char := (Nat.toDigits 16 n).headD '0'

def escape (c : Char) : List Char :=
  match c with
  | '"' => ['\\', '"']
  | '\\' => ['\\', '\\']
  | '\n' => ['\\', 'n']
  | '\r' => ['\\', 'r']
  | '\t' => ['\\', 't']
  | '\x08' => ['\\', 'b']
  | '\x0c' => ['\\', 'f']
  | c =>
      if c.toNat < 0x20 then
        ['\\', 'u', '0', '0', hexDigit (c.toNat / 16), hexDigit (c.toNat % 16)]
      else [c]

def quoted (s : String) : String := "\"" ++ String.ofList (s.toList.flatMap escape) ++ "\""

/-- A number that is not finite has no form of its own and is written as null. -/
def numberText (x : Float) : String :=
  if Binary64.isFinite x then Binary64.text .document x else "null"

mutual

def print : Json → String
  | .null => "null"
  | .bool b => if b then "true" else "false"
  | .int n => toString n
  | .float x => numberText x
  | .text s => quoted s
  | .array elements => "[" ++ String.intercalate "," (printAll elements) ++ "]"
  | .object members => "\x7b" ++ String.intercalate "," (printMembers members) ++ "\x7d"

def printAll : List Json → List String
  | [] => []
  | element :: rest => print element :: printAll rest

def printMembers : List (String × Json) → List String
  | [] => []
  | (name, value) :: rest => (quoted name ++ ":" ++ print value) :: printMembers rest

end

end RecordAlgebra.Json
