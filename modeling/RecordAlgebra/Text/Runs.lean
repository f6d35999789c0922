/-!
# Runs of code points

Properties of characters are tables of ranges of code points, and replacements
are tables of runs that are moved by a fixed offset.
-/

namespace RecordAlgebra.Text

def inRanges (ranges : List (Nat × Nat)) (code : Nat) : Bool :=
  ranges.any fun (low, high) => low ≤ code && code ≤ high

/-- The replacement of a code point by a table of runs. -/
def inRuns? (runs : List (Nat × Nat × Nat × Int)) (code : Nat) : Option Nat :=
  (runs.find? fun (first, last, stride, _) =>
    first ≤ code && code ≤ last && (code - first) % stride == 0).map
      fun (_, _, _, offset) => (code + offset).toNat

/-- The code points that a table of runs takes to this one. -/
def runPreimages (runs : List (Nat × Nat × Nat × Int)) (code : Nat) : List Nat :=
  runs.filterMap fun (first, last, stride, offset) =>
    let source : Int := code - offset
    if first ≤ source && source ≤ last && (source - first) % stride == 0 then some source.toNat
    else none

end RecordAlgebra.Text
