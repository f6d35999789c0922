import RecordAlgebra.Expr.Basic
import RecordAlgebra.Value.Order

/-!
# Sorting by keys

Rows are sorted by the total order of their keys, each key in its own
direction, and rows with equal keys stay in order. Rows whose keys have no
order between them end up as neighbours, so a look at all neighbours finds out
whether the keys could be ordered at all.
-/

namespace RecordAlgebra.Value

/-- Something with the keys by which it is sorted. -/
structure Keyed (α : Type) where
  keys : List Value
  value : α

def totalOrderKeys : List Direction → List Value → List Value → Ordering
  | direction :: directions, a :: as, b :: bs =>
      (direction.apply (totalOrder a b)).then (totalOrderKeys directions as bs)
  | _, _, _ => .eq

def orderKeys : List Direction → List Value → List Value → Except Error Ordering
  | direction :: directions, a :: as, b :: bs => do
      match ← order a b with
      | .eq => orderKeys directions as bs
      | decided => .ok (direction.apply decided)
  | _, _, _ => .ok .eq

section Insertion

variable {α : Type} (less : α → α → Bool)

/-- Puts an element into a list whose greatest element comes first, behind all
that it is less than. -/
def insertSorted (a : α) : List α → List α
  | [] => [a]
  | b :: rest => if less a b then b :: insertSorted a rest else a :: b :: rest

/-- Sorts in ascending order. Elements of which none is less stay in order. -/
def insertionSort (elements : List α) : List α :=
  (elements.foldl (fun sorted a => insertSorted less a sorted) []).reverse

variable {less} {a b : α} {as : List α}

theorem mem_insertSorted (h : b ∈ insertSorted less a as) : b = a ∨ b ∈ as := by
  induction as with
  | nil => exact .inl (List.mem_singleton.1 h)
  | cons c rest ih =>
      rw [insertSorted] at h
      split at h
      · rcases List.mem_cons.1 h with rfl | h
        · exact .inr List.mem_cons_self
        · exact (ih h).imp_right (List.mem_cons_of_mem _)
      · rcases List.mem_cons.1 h with rfl | h
        · exact .inl rfl
        · exact .inr h

theorem mem_insertionSort (h : b ∈ insertionSort less as) : b ∈ as := by
  have inserted (as done : List α)
      (h : b ∈ as.foldl (fun sorted a => insertSorted less a sorted) done) :
      b ∈ as ∨ b ∈ done := by
    induction as generalizing done with
    | nil => exact .inr h
    | cons a as ih =>
        rcases ih _ h with h | h
        · exact .inl (List.mem_cons_of_mem _ h)
        · exact (mem_insertSorted h).imp_left fun heq => by simp [heq]
  rw [insertionSort, List.mem_reverse] at h
  exact (inserted as [] h).resolve_right (by simp)

end Insertion

section Rows

variable {α : Type}

def checkNeighbours (directions : List Direction) : List (Keyed α) → Except Error Unit
  | a :: b :: rest => do
      let _ ← orderKeys directions a.keys b.keys
      checkNeighbours directions (b :: rest)
  | _ => .ok ()

def sortKeyed (directions : List Direction) (rows : List (Keyed α)) : Except Error (List α) := do
  let sorted := insertionSort (fun a b => totalOrderKeys directions a.keys b.keys == .lt) rows
  checkNeighbours directions sorted
  .ok (sorted.map Keyed.value)

theorem mem_of_sortKeyed {directions : List Direction} {rows : List (Keyed α)} {sorted : List α}
    (h : sortKeyed directions rows = .ok sorted) {a : α} (ha : a ∈ sorted) :
    ∃ row ∈ rows, row.value = a := by
  rw [sortKeyed] at h
  simp only [bind, Except.bind] at h
  split at h
  · cases h
  · cases h
    obtain ⟨row, hrow, rfl⟩ := List.mem_map.1 ha
    exact ⟨row, mem_insertionSort hrow, rfl⟩

end Rows

end RecordAlgebra.Value
