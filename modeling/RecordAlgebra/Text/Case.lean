import RecordAlgebra.Text.CaseTable
import RecordAlgebra.Text.Cased
import RecordAlgebra.Text.Runs

/-!
# Change of case

Each character is replaced by itself, by one character or by several. The one
replacement that depends on its neighbours is the Greek sigma, which has a form
of its own at the end of a word.
-/

namespace RecordAlgebra.Text

def replaceCase (long : List (Nat × List Nat)) (runs : List (Nat × Nat × Nat × Int))
    (c : Char) : List Char :=
  match long.lookup c.toNat with
  | some codes => codes.map Char.ofNat
  | none => [Char.ofNat ((inRuns? runs c.toNat).getD c.toNat)]

def upperChar (c : Char) : List Char := replaceCase longUpper upperRuns c

def lowerChar (c : Char) : List Char := replaceCase longLower lowerRuns c

def isCased (c : Char) : Bool := inRanges casedRanges c.toNat

def isCaseIgnorable (c : Char) : Bool := inRanges caseIgnorableRanges c.toNat

/-- Whether the first character that matters for case is a cased letter. -/
def meetsCased (s : List Char) : Bool :=
  (s.dropWhile isCaseIgnorable).head?.elim false isCased

def sigma : Char := 'Σ'

/-- The lower case of sigma: the final form after a letter and before none. -/
def lowerSigma (before after : List Char) : Char :=
  if meetsCased before && !meetsCased after then 'ς' else 'σ'

/-- Lower case of `after`, which follows `before` read backwards. -/
def lowerChars (before : List Char) : List Char → List Char
  | [] => []
  | c :: after =>
      (if c = sigma then [lowerSigma before after] else lowerChar c) ++
        lowerChars (c :: before) after

def upper (s : String) : String := String.ofList (s.toList.flatMap upperChar)

def lower (s : String) : String := String.ofList (lowerChars [] s.toList)

end RecordAlgebra.Text
