import RecordAlgebra.Pattern.Syntax

/-!
# Matching

A text of `n` characters has `n + 1` places. A set of places is a number whose
bits are the places, and an expression takes the set of places where a match
may start to the set of places where it may end. A text matches if some match
ends anywhere when it may start anywhere.
-/

namespace RecordAlgebra.Regex

/-- The places before the characters that satisfy a condition on the character
before and the character after. -/
def placesFrom (condition : Option Char → Option Char → Bool) :
    Nat → Option Char → List Char → Nat
  | place, before, [] => if condition before none then 1 <<< place else 0
  | place, before, c :: rest =>
      (if condition before (some c) then 1 <<< place else 0) +
        placesFrom condition (place + 1) (some c) rest

def places (s : List Char) (condition : Option Char → Option Char → Bool) : Nat :=
  placesFrom condition 0 none s

def isWord (unicode : Bool) (c : Option Char) : Bool :=
  c.elim false fun c => (CharSet.wordCharacters unicode).contains c.toNat

end RecordAlgebra.Regex

namespace RecordAlgebra.Look

def holds (look : Look) (before after : Option Char) : Bool :=
  match look with
  | .start => before.isNone
  | .finish => after.isNone
  | .lineStart false => before.isNone || before == some '\n'
  | .lineStart true =>
      before.isNone || before == some '\n' || (before == some '\r' && after != some '\n')
  | .lineFinish false => after.isNone || after == some '\n'
  | .lineFinish true =>
      after.isNone || after == some '\r' || (after == some '\n' && before != some '\r')
  | .wordBoundary u => Regex.isWord u before != Regex.isWord u after
  | .noWordBoundary u => Regex.isWord u before == Regex.isWord u after
  | .wordStart u => !Regex.isWord u before && Regex.isWord u after
  | .wordFinish u => Regex.isWord u before && !Regex.isWord u after
  | .wordStartHalf u => !Regex.isWord u before
  | .wordFinishHalf u => !Regex.isWord u after

end RecordAlgebra.Look

namespace RecordAlgebra.Regex

/-- `step` applied `n` times, stopping where it changes nothing. -/
def iterate (step : Nat → Nat) : Nat → Nat → Nat
  | 0, from_ => from_
  | n + 1, from_ =>
      let next := step from_
      if next = from_ then from_ else iterate step n next

/-- The places where a match may end, given those where it may start. Among
`n` places, optional repetitions add nothing new after the first `n`. -/
def advance (s : List Char) : Regex → Nat → Nat
  | .empty, starts => starts
  | .set chars, starts =>
      (starts &&& places s fun _ c => c.elim false fun c => chars.contains c.toNat) <<< 1
  | .look condition, starts => starts &&& places s condition.holds
  | .seq a b, starts => advance s b (advance s a starts)
  | .either a b, starts => advance s a starts ||| advance s b starts
  | .repeated body least most, starts =>
      let required := iterate (advance s body) least starts
      let optional := match most with
        | none => s.length + 1
        | some most => min (most - least) (s.length + 1)
      iterate (fun reached => reached ||| advance s body reached) optional required

/-- Whether the expression matches anywhere in the text. -/
def isMatch (r : Regex) (text : String) : Bool :=
  let s := text.toList
  advance s r ((1 <<< (s.length + 1)) - 1) != 0

end RecordAlgebra.Regex
