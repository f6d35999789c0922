import RecordAlgebra.Text.Folding
import RecordAlgebra.Text.Blank
import RecordAlgebra.Text.Word

/-!
# Regular expressions

An expression is built from sets of characters and from conditions on a place
in the text. Sets are kept as they are written, and membership is decided when
a character is there.
-/

namespace RecordAlgebra

/-- A set of code points. -/
inductive CharSet where
  | empty
  | range (low high : Nat)
  | ranges (table : List (Nat × Nat))
  | union (a b : CharSet)
  | intersection (a b : CharSet)
  | difference (a b : CharSet)
  | symmetricDifference (a b : CharSet)
  | complement (a : CharSet)
  /-- The set with everything that differs from a member in case only. -/
  | caseless (unicode : Bool) (a : CharSet)
  deriving Inhabited

namespace CharSet

/-- The letters of the Latin alphabet that differ from this one in case only. -/
def latinVariants (code : Nat) : List Nat :=
  if 0x41 ≤ code && code ≤ 0x5A then [code, code + 0x20]
  else if 0x61 ≤ code && code ≤ 0x7A then [code, code - 0x20]
  else [code]

def contains : CharSet → Nat → Bool
  | .empty, _ => false
  | .range low high, c => low ≤ c && c ≤ high
  | .ranges table, c => Text.inRanges table c
  | .union a b, c => a.contains c || b.contains c
  | .intersection a b, c => a.contains c && b.contains c
  | .difference a b, c => a.contains c && !b.contains c
  | .symmetricDifference a b, c => a.contains c != b.contains c
  | .complement a, c => !a.contains c
  | .caseless unicode a, c =>
      (if unicode then Text.caseVariants c else latinVariants c).any fun v => a.contains v

/-- How many ranges the set is put together from. -/
def weight : CharSet → Nat
  | .empty => 1
  | .range .. => 1
  | .ranges table => table.length
  | .union a b | .intersection a b | .difference a b | .symmetricDifference a b =>
      a.weight + b.weight
  | .complement a => a.weight + 1
  | .caseless _ a => a.weight

def single (c : Char) : CharSet := .range c.toNat c.toNat

def unionAll (sets : List CharSet) : CharSet := sets.foldl .union .empty

def digits (unicode : Bool) : CharSet :=
  if unicode then .ranges Text.digitRanges else .range 0x30 0x39

def blanks (unicode : Bool) : CharSet :=
  if unicode then .ranges Text.blankRanges else .ranges [(0x09, 0x0D), (0x20, 0x20)]

def wordCharacters (unicode : Bool) : CharSet :=
  if unicode then .ranges Text.wordRanges
  else .ranges [(0x30, 0x39), (0x41, 0x5A), (0x5F, 0x5F), (0x61, 0x7A)]

end CharSet

/-- A condition on a place in a text. The halves of a word boundary look only
behind or only ahead. -/
inductive Look where
  | start
  | finish
  | lineStart (carriageReturns : Bool)
  | lineFinish (carriageReturns : Bool)
  | wordBoundary (unicode : Bool)
  | noWordBoundary (unicode : Bool)
  | wordStart (unicode : Bool)
  | wordFinish (unicode : Bool)
  | wordStartHalf (unicode : Bool)
  | wordFinishHalf (unicode : Bool)
  deriving DecidableEq, Repr

inductive Regex where
  | empty
  | set (chars : CharSet)
  | look (condition : Look)
  | seq (first second : Regex)
  | either (first second : Regex)
  /-- At least `least` times, and at most `most` times if that is given. -/
  | repeated (body : Regex) (least : Nat) (most : Option Nat)
  deriving Inhabited

namespace Regex

/-- How many characters and conditions the expression comes to when every
repetition is written out. -/
def weight : Regex → Nat
  | .empty => 1
  | .set chars => chars.weight
  | .look _ => 1
  | .seq a b => a.weight + b.weight
  | .either a b => a.weight + b.weight + 1
  | .repeated body least most => 1 + body.weight * max 1 (max least (most.getD least))

/-- The greatest weight of an expression that may be used. -/
def weightLimit : Nat := 327680

end Regex

end RecordAlgebra
