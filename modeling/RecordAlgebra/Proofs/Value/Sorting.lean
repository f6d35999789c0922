import RecordAlgebra.Proofs.Value.Clash

/-!
# Rows in the order of their keys

Sorting by insertion puts rows into the order in which none of them is less than
one before it and equal ones stay as they were. If all neighbours are comparable
then, so are all rows, because what lies between two rows is comparable with both
of them or with neither. So a look at the neighbours is as good as one at all
pairs, and it does not matter in which order the rows came.
-/

namespace RecordAlgebra.Value

section Insertion

variable {α β : Type} {less : α → α → Bool}

theorem insertSorted_perm (a : α) (as : List α) : (insertSorted less a as).Perm (a :: as) := by
  induction as with
  | nil => exact .refl _
  | cons b rest ih =>
      rw [insertSorted]
      split
      · exact (ih.cons b).trans (.swap a b rest)
      · exact .refl _

theorem insertionSort_perm (as : List α) : (insertionSort less as).Perm as := by
  have inserted (as done : List α) :
      (as.foldl (fun sorted a => insertSorted less a sorted) done).Perm (as ++ done) := by
    induction as generalizing done with
    | nil => exact .refl _
    | cons a as ih =>
        exact (ih _).trans (((insertSorted_perm a done).append_left as).trans List.perm_middle)
  refine (List.reverse_perm _).trans ((inserted as []).trans ?_)
  rw [List.append_nil]

theorem insertSorted_map (f : β → α) (b : β) (bs : List β) :
    (insertSorted (fun b b' => less (f b) (f b')) b bs).map f =
      insertSorted less (f b) (bs.map f) := by
  induction bs with
  | nil => rfl
  | cons c rest ih =>
      rw [insertSorted, List.map_cons, insertSorted]
      split
      · rw [List.map_cons, ih]
      · rfl

theorem insertionSort_map (less : α → α → Bool) (f : β → α) (bs : List β) :
    (insertionSort (fun b b' => less (f b) (f b')) bs).map f = insertionSort less (bs.map f) := by
  have inserted (bs done : List β) :
      (bs.foldl (fun sorted b => insertSorted (fun b b' => less (f b) (f b')) b sorted) done).map f
        = (bs.map f).foldl (fun sorted a => insertSorted less a sorted) (done.map f) := by
    induction bs generalizing done with
    | nil => rfl
    | cons b bs ih => rw [List.foldl_cons, ih, insertSorted_map, List.map_cons, List.foldl_cons]
  rw [insertionSort, List.map_reverse, inserted]
  rfl

/-- The sorted part starts with its greatest element, so its order is the converse. -/
theorem insertSorted_pairwise {before : α → α → Prop} {a : α} {as : List α}
    (hless : ∀ b ∈ as, less a b = true → before a b)
    (hnot : ∀ b ∈ as, less a b = false → before b a)
    (htrans : ∀ b ∈ as, ∀ c ∈ as, before c b → before b a → before c a)
    (hsorted : as.Pairwise fun b c => before c b) :
    (insertSorted less a as).Pairwise fun b c => before c b := by
  induction hsorted with
  | nil => exact List.pairwise_singleton _ a
  | @cons b rest hb hrest ih =>
      have hsub {c : α} (hc : c ∈ rest) : c ∈ b :: rest := List.mem_cons_of_mem b hc
      rw [insertSorted]
      split
      next hab =>
        have ih := ih (fun c hc => hless c (hsub hc)) (fun c hc => hnot c (hsub hc))
          fun c hc d hd => htrans c (hsub hc) d (hsub hd)
        refine .cons (fun c hc => ?_) ih
        rcases mem_insertSorted hc with rfl | hc
        · exact hless b List.mem_cons_self hab
        · exact hb c hc
      next hab =>
        have hba := hnot b List.mem_cons_self (by simpa using hab)
        refine .cons (List.forall_mem_cons.2 ⟨hba, fun c hc => ?_⟩) (.cons hb hrest)
        exact htrans b List.mem_cons_self c (hsub hc) (hb c hc) hba

/-- What is less comes before, and so does what came earlier unless the later one
is less. -/
theorem insertionSort_pairwise {before : α → α → Prop} {as : List α}
    (hless : ∀ a ∈ as, ∀ b ∈ as, less a b = true → before a b)
    (hearlier : as.Pairwise fun a b => less b a = false → before a b)
    (htrans : ∀ a ∈ as, ∀ b ∈ as, ∀ c ∈ as, before a b → before b c → before a c) :
    (insertionSort less as).Pairwise before := by
  have inserted (rest done : List α) (hrest : ∀ a ∈ rest, a ∈ as) (hdone : ∀ a ∈ done, a ∈ as)
      (hlater : rest.Pairwise fun a b => less b a = false → before a b)
      (hfirst : ∀ a ∈ rest, ∀ b ∈ done, less a b = false → before b a)
      (hsorted : done.Pairwise fun a b => before b a) :
      (rest.foldl (fun sorted a => insertSorted less a sorted) done).Pairwise
        fun a b => before b a := by
    induction rest generalizing done with
    | nil => exact hsorted
    | cons a rest ih =>
        obtain ⟨ha, hrest⟩ := List.forall_mem_cons.1 hrest
        obtain ⟨hlaterA, hlater⟩ := List.pairwise_cons.1 hlater
        obtain ⟨hfirstA, hfirst⟩ := List.forall_mem_cons.1 hfirst
        refine ih _ hrest (fun b hb => ?_) hlater (fun b hb c hc => ?_) ?_
        · rcases mem_insertSorted hb with rfl | hb
          · exact ha
          · exact hdone b hb
        · rcases mem_insertSorted hc with rfl | hc
          · exact hlaterA b hb
          · exact hfirst b hb c hc
        · exact insertSorted_pairwise (fun b hb => hless a ha b (hdone b hb)) hfirstA
            (fun b hb c hc => htrans c (hdone c hc) b (hdone b hb) a ha) hsorted
  rw [insertionSort, List.pairwise_reverse]
  exact inserted as [] (fun _ h => h) (by simp) hearlier (by simp) .nil

end Insertion

section Keys

/-- Whether there is an order between two rows with these keys. -/
def KeysComparable (directions : List Direction) (as bs : List Value) : Prop :=
  ∃ o, orderKeys directions as bs = .ok o

theorem totalOrderKeys_of_orderKeys {directions : List Direction} {as bs : List Value}
    {o : Ordering} (h : orderKeys directions as bs = .ok o) :
    totalOrderKeys directions as bs = o := by
  induction directions generalizing as bs with
  | nil => cases h; rfl
  | cons direction directions ih =>
      match as, bs, h with
      | [], _, h | _ :: _, [], h => cases h; rfl
      | a :: as, b :: bs, h =>
          rw [orderKeys] at h
          rw [totalOrderKeys]
          cases hab : order a b with
          | error e => rw [hab] at h; cases h
          | ok decided =>
              rw [hab] at h
              rw [totalOrder_of_order hab]
              cases decided with
              | eq =>
                  rw [ih h]
                  cases direction <;> rfl
              | lt | gt => cases h; cases direction <;> rfl

theorem keysComparable_cons {direction : Direction} {directions : List Direction} {a b : Value}
    {as bs : List Value} :
    KeysComparable (direction :: directions) (a :: as) (b :: bs) ↔
      Comparable a b ∧
        (direction.apply (totalOrder a b) = .eq → KeysComparable directions as bs) := by
  unfold KeysComparable
  rw [orderKeys]
  constructor
  · rintro ⟨o, h⟩
    cases hab : order a b with
    | error e => rw [hab] at h; cases h
    | ok decided =>
        refine ⟨⟨decided, hab⟩, fun heq => ?_⟩
        rw [hab] at h
        rw [totalOrder_of_order hab] at heq
        cases decided with
        | eq => exact ⟨o, h⟩
        | lt | gt => cases direction <;> cases heq
  · rintro ⟨⟨decided, hab⟩, h⟩
    rw [totalOrder_of_order hab] at h
    rw [hab]
    cases decided with
    | eq => exact h (by cases direction <;> rfl)
    | lt | gt => exact ⟨_, rfl⟩

theorem totalOrderKeys_swap (directions : List Direction) (as bs : List Value) :
    (totalOrderKeys directions as bs).swap = totalOrderKeys directions bs as := by
  induction directions generalizing as bs with
  | nil => rfl
  | cons direction directions ih =>
      cases as with
      | nil => cases bs <;> rfl
      | cons a as =>
          cases bs with
          | nil => rfl
          | cons b bs =>
              rw [totalOrderKeys, totalOrderKeys, Ordering.swap_then, ih, ← totalOrder_swap a b]
              cases direction <;> rfl

theorem KeysComparable.symm {directions : List Direction} {as bs : List Value}
    (h : KeysComparable directions as bs) : KeysComparable directions bs as := by
  induction directions generalizing as bs with
  | nil => exact ⟨_, rfl⟩
  | cons direction directions ih =>
      match as, bs, h with
      | [], [], _ | [], _ :: _, _ | _ :: _, [], _ => exact ⟨_, rfl⟩
      | a :: as, b :: bs, h =>
          obtain ⟨hab, hrest⟩ := keysComparable_cons.1 h
          refine keysComparable_cons.2 ⟨hab.symm, fun heq => ih (hrest ?_)⟩
          rw [← totalOrder_swap a b] at heq
          cases direction <;> cases hcmp : totalOrder a b <;> rw [hcmp] at heq <;> cases heq <;> rfl

theorem chain_of_direction (direction : Direction) {kind : NumberKind} {a b c : Value}
    (ha : a.hasNumber kind = false) (hb : b.hasNumber kind = false)
    (hc : c.hasNumber kind = false) :
    Chain (direction.apply (totalOrder a b)) (direction.apply (totalOrder b c))
      (direction.apply (totalOrder a c)) (Comparable a b) (Comparable b c) (Comparable a c) := by
  cases direction with
  | ascending => exact chain_of_hasNumber ha hb hc
  | descending =>
      refine Chain.reverse ?_
      simp only [totalOrder_swap]
      obtain ⟨through, comparable⟩ := chain_of_hasNumber hc hb ha
      exact ⟨through, fun hcb hba hbc hab => (comparable hcb hba hbc.symm hab.symm).symm⟩

/-- The keys of a row: one for each direction, and in each place one kind of
numbers does not occur. -/
structure KeysLack (kinds : Nat → NumberKind) (directions : List Direction)
    (keys : List Value) : Prop where
  length : keys.length = directions.length
  lacks : ∀ (i : Nat) (v : Value), keys[i]? = some v → v.hasNumber (kinds i) = false

theorem KeysLack.tail {kinds : Nat → NumberKind} {direction : Direction}
    {directions : List Direction} {a : Value} {as : List Value}
    (h : KeysLack kinds (direction :: directions) (a :: as)) :
    KeysLack (fun i => kinds (i + 1)) directions as where
  length := by simpa using h.length
  lacks i v hv := h.lacks (i + 1) v (by simpa using hv)

theorem chain_of_keys {kinds : Nat → NumberKind} {directions : List Direction}
    {as bs cs : List Value} (ha : KeysLack kinds directions as)
    (hb : KeysLack kinds directions bs) (hc : KeysLack kinds directions cs) :
    Chain (totalOrderKeys directions as bs) (totalOrderKeys directions bs cs)
      (totalOrderKeys directions as cs) (KeysComparable directions as bs)
      (KeysComparable directions bs cs) (KeysComparable directions as cs) := by
  induction directions generalizing kinds as bs cs with
  | nil => exact ⟨fun _ _ => rfl, fun _ _ _ _ => ⟨_, rfl⟩⟩
  | cons direction directions ih =>
      match as, bs, cs, ha, hb, hc with
      | [], _, _, ha, _, _ => cases ha.length
      | _, [], _, _, hb, _ => cases hb.length
      | _, _, [], _, _, hc => cases hc.length
      | a :: as, b :: bs, c :: cs, ha, hb, hc =>
          simp only [totalOrderKeys, keysComparable_cons]
          exact .lex (chain_of_direction direction (ha.lacks 0 a rfl) (hb.lacks 0 b rfl)
            (hc.lacks 0 c rfl)) fun _ _ => ih ha.tail hb.tail hc.tail

end Keys

section Rows

variable {α : Type} {directions : List Direction} {rows : List (Keyed α)}

/-- All keys in one place. -/
def column (rows : List (Keyed α)) (i : Nat) : List Value :=
  rows.filterMap fun row => row.keys[i]?

/-- Rows that can be sorted: each has a key for each direction, and no two rows mix
integers and doubles in one place. -/
structure Sortable (directions : List Direction) (rows : List (Keyed α)) : Prop where
  length : ∀ row ∈ rows, row.keys.length = directions.length
  unmixed : ∀ i, Unmixed (column rows i)

theorem Sortable.keysLack (h : Sortable directions rows) :
    ∃ kinds, ∀ row ∈ rows, KeysLack kinds directions row.keys := by
  refine ⟨fun i => (h.unmixed i).choose, fun row hrow => ⟨h.length row hrow, fun i v hv => ?_⟩⟩
  exact (h.unmixed i).choose_spec v (List.mem_filterMap.2 ⟨row, hrow, hv⟩)

def AllComparable (directions : List Direction) (rows : List (Keyed α)) : Prop :=
  rows.Pairwise fun a b => KeysComparable directions a.keys b.keys

theorem allComparable_of_perm {others : List (Keyed α)} (h : rows.Perm others) :
    AllComparable directions rows ↔ AllComparable directions others :=
  h.pairwise_iff fun hab => hab.symm

/-- A row comes before another one if its keys do, or if the keys are equal and it
was before it. -/
def Precedes (directions : List Direction) (a b : Keyed α × Nat) : Prop :=
  orderKeys directions a.1.keys b.1.keys = .ok .lt ∨
    orderKeys directions a.1.keys b.1.keys = .ok .eq ∧ a.2 < b.2

/-- The values of the rows in the order of their keys, ties as they were. -/
def IsSorted (directions : List Direction) (rows : List (Keyed α)) (values : List α) : Prop :=
  ∃ order : List (Keyed α × Nat), order.Perm rows.zipIdx ∧
    order.Pairwise (Precedes directions) ∧ values = order.map fun row => row.1.value

theorem checkNeighbours_of_allComparable (h : AllComparable directions rows) :
    checkNeighbours directions rows = .ok () := by
  induction h with
  | nil => rfl
  | @cons a rest ha _ ih =>
      cases rest with
      | nil => rfl
      | cons b rest =>
          obtain ⟨o, hab⟩ := ha b List.mem_cons_self
          rw [checkNeighbours, hab]
          exact ih

/-- In sorted rows, neighbours that are comparable make all rows comparable. -/
theorem allComparable_of_checkNeighbours {kinds : Nat → NumberKind}
    (hkeys : ∀ row ∈ rows, KeysLack kinds directions row.keys)
    (hsorted : rows.Pairwise fun a b => (totalOrderKeys directions a.keys b.keys).isLE)
    (h : checkNeighbours directions rows = .ok ()) : AllComparable directions rows := by
  induction hsorted with
  | nil => exact .nil
  | @cons a rest ha hrest ih =>
      cases rest with
      | nil => exact List.pairwise_singleton _ a
      | cons b rest =>
          rw [checkNeighbours] at h
          cases hab : orderKeys directions a.keys b.keys with
          | error e => rw [hab] at h; cases h
          | ok o =>
              rw [hab] at h
              obtain ⟨hkeysA, hkeys⟩ := List.forall_mem_cons.1 hkeys
              have hothers := ih hkeys h
              refine .cons (List.forall_mem_cons.2 ⟨⟨o, hab⟩, fun c hc => ?_⟩) hothers
              have hchain := chain_of_keys hkeysA (hkeys b List.mem_cons_self)
                (hkeys c (List.mem_cons_of_mem b hc))
              exact hchain.comparable (ha b List.mem_cons_self)
                ((List.pairwise_cons.1 hrest).1 c hc) ⟨o, hab⟩
                ((List.pairwise_cons.1 hothers).1 c hc)

theorem kind_of_orderKeys_error {as bs : List Value} {e : Error}
    (h : orderKeys directions as bs = .error e) : e.kind = .typeMismatch := by
  induction directions generalizing as bs with
  | nil => cases h
  | cons direction directions ih =>
      match as, bs, h with
      | [], _, h | _ :: _, [], h => cases h
      | a :: as, b :: bs, h =>
          rw [orderKeys] at h
          cases hab : order a b with
          | error e' =>
              rw [hab] at h
              cases h
              exact kind_of_order_error hab
          | ok decided =>
              rw [hab] at h
              cases decided with
              | eq => exact ih h
              | lt | gt => cases h

theorem kind_of_checkNeighbours_error {e : Error}
    (h : checkNeighbours directions rows = .error e) : e.kind = .typeMismatch := by
  induction rows with
  | nil => cases h
  | cons a rest ih =>
      cases rest with
      | nil => cases h
      | cons b rest =>
          rw [checkNeighbours] at h
          cases hab : orderKeys directions a.keys b.keys with
          | error e' =>
              rw [hab] at h
              cases h
              exact kind_of_orderKeys_error hab
          | ok o =>
              rw [hab] at h
              exact ih h

section Sorted

/-- Rows with their positions, sorted by insertion. -/
def sortedPairs (directions : List Direction) (rows : List (Keyed α)) : List (Keyed α × Nat) :=
  insertionSort (fun a b => totalOrderKeys directions a.1.keys b.1.keys == .lt) rows.zipIdx

theorem sortedPairs_perm (directions : List Direction) (rows : List (Keyed α)) :
    (sortedPairs directions rows).Perm rows.zipIdx :=
  insertionSort_perm _

theorem map_fst_sortedPairs (directions : List Direction) (rows : List (Keyed α)) :
    (sortedPairs directions rows).map Prod.fst =
      insertionSort (fun a b => totalOrderKeys directions a.keys b.keys == .lt) rows := by
  rw [sortedPairs, insertionSort_map
    (fun a b : Keyed α => totalOrderKeys directions a.keys b.keys == .lt) Prod.fst,
    List.zipIdx_map_fst]

/-- Whether a row comes before another one by the total order and its position. -/
def TotallyPrecedes (directions : List Direction) (a b : Keyed α × Nat) : Prop :=
  totalOrderKeys directions a.1.keys b.1.keys = .lt ∨
    totalOrderKeys directions a.1.keys b.1.keys = .eq ∧ a.2 < b.2

theorem TotallyPrecedes.isLE {a b : Keyed α × Nat} (h : TotallyPrecedes directions a b) :
    (totalOrderKeys directions a.1.keys b.1.keys).isLE = true := by
  rcases h with h | ⟨h, -⟩ <;> rw [h] <;> rfl

theorem TotallyPrecedes.trans {kinds : Nat → NumberKind} {a b c : Keyed α × Nat}
    (ha : KeysLack kinds directions a.1.keys) (hb : KeysLack kinds directions b.1.keys)
    (hc : KeysLack kinds directions c.1.keys) (hab : TotallyPrecedes directions a b)
    (hbc : TotallyPrecedes directions b c) : TotallyPrecedes directions a c := by
  have hthrough := (chain_of_keys ha hb hc).through hab.isLE hbc.isLE
  unfold TotallyPrecedes at *
  rcases hab with hab | ⟨hab, hlt⟩ <;> rcases hbc with hbc | ⟨hbc, hlt'⟩ <;>
    rw [hab, hbc] at hthrough
  · exact .inl hthrough
  · exact .inl hthrough
  · exact .inl hthrough
  · exact .inr ⟨hthrough, Nat.lt_trans hlt hlt'⟩

theorem sortedPairs_pairwise (h : Sortable directions rows) :
    (sortedPairs directions rows).Pairwise (TotallyPrecedes directions) := by
  obtain ⟨kinds, hkinds⟩ := h.keysLack
  have hlack : ∀ row ∈ rows.zipIdx, KeysLack kinds directions row.1.keys := fun row hrow =>
    hkinds row.1 (List.fst_mem_of_mem_zipIdx hrow)
  refine insertionSort_pairwise ?_ ?_ ?_
  · intro a _ b _ hless
    exact .inl (by simpa using hless)
  · have hpositions : (rows.zipIdx.map Prod.snd).Pairwise (· < ·) := by
      rw [List.zipIdx_map_snd]
      exact List.pairwise_lt_range'
    refine (List.pairwise_map.1 hpositions).imp ?_
    intro a b hlt hless
    rw [← totalOrderKeys_swap] at hless
    cases hab : totalOrderKeys directions a.1.keys b.1.keys with
    | lt => exact .inl hab
    | eq => exact .inr ⟨hab, hlt⟩
    | gt => rw [hab] at hless; cases hless
  · intro a ha b hb c hc hab hbc
    exact hab.trans (hlack a ha) (hlack b hb) (hlack c hc) hbc

theorem sortKeyed_of_allComparable (h : Sortable directions rows)
    (hall : AllComparable directions rows) :
    ∃ sorted, sortKeyed directions rows = .ok sorted ∧ IsSorted directions rows sorted := by
  have hperm := sortedPairs_perm directions rows
  have hsorted := map_fst_sortedPairs directions rows
  have hneighbours : checkNeighbours directions ((sortedPairs directions rows).map Prod.fst) =
      .ok () := by
    rw [hsorted]
    exact checkNeighbours_of_allComparable
      ((allComparable_of_perm (insertionSort_perm rows)).2 hall)
  have hordered : (sortedPairs directions rows).Pairwise fun a b =>
      KeysComparable directions a.1.keys b.1.keys := by
    have hzipped : AllComparable directions (rows.zipIdx.map Prod.fst) := by
      rw [List.zipIdx_map_fst]
      exact hall
    rw [AllComparable, List.pairwise_map] at hzipped
    exact (hperm.pairwise_iff fun hab => hab.symm).2 hzipped
  refine ⟨((sortedPairs directions rows).map Prod.fst).map Keyed.value, ?_, ?_⟩
  · rw [sortKeyed, ← hsorted, hneighbours]
    rfl
  · refine ⟨sortedPairs directions rows, hperm, ?_, List.map_map⟩
    refine ((sortedPairs_pairwise h).and hordered).imp ?_
    rintro a b ⟨hprecedes, o, ho⟩
    have htotal := totalOrderKeys_of_orderKeys ho
    unfold TotallyPrecedes at hprecedes
    unfold Precedes
    rw [ho, ← htotal]
    exact hprecedes.imp (congrArg _) (And.imp_left (congrArg _))

theorem sortKeyed_of_not_allComparable (h : Sortable directions rows)
    (hall : ¬AllComparable directions rows) :
    ∃ e, sortKeyed directions rows = .error e ∧ e.kind = .typeMismatch := by
  have hsorted := map_fst_sortedPairs directions rows
  have hperm : ((sortedPairs directions rows).map Prod.fst).Perm rows := by
    rw [hsorted]
    exact insertionSort_perm rows
  have hpairwise : ((sortedPairs directions rows).map Prod.fst).Pairwise fun a b =>
      (totalOrderKeys directions a.keys b.keys).isLE :=
    List.pairwise_map.2 ((sortedPairs_pairwise h).imp fun hab => hab.isLE)
  obtain ⟨kinds, hkinds⟩ := h.keysLack
  cases hcheck : checkNeighbours directions ((sortedPairs directions rows).map Prod.fst) with
  | ok _ =>
      have hrows := allComparable_of_checkNeighbours
        (fun row hrow => hkinds row (hperm.subset hrow)) hpairwise hcheck
      exact absurd ((allComparable_of_perm hperm).1 hrows) hall
  | error e =>
      refine ⟨e, ?_, kind_of_checkNeighbours_error hcheck⟩
      rw [sortKeyed, ← hsorted, hcheck]
      rfl

end Sorted

end Rows

end RecordAlgebra.Value
