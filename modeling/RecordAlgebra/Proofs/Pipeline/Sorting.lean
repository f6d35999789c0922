import RecordAlgebra.Pipeline.Run
import RecordAlgebra.Proofs.Document.Told
import RecordAlgebra.Proofs.Sequence.Sorted
import RecordAlgebra.Proofs.Value.Comparing

/-!
# Sorting documents

Documents are sorted by insertion, which fails at the first two documents without order that it
compares. Any other stable algorithm fails for the same documents and otherwise gives the same
result. So does sorting the values of the documents, which compares them by a total order first
and looks at the neighbours afterwards.
-/

namespace RecordAlgebra

namespace Comparing

/-- Puts a position into a list whose last position comes first, behind all that it is less
than. -/
def insertPosition (position : Nat) : List Nat → Comparing (List Nat)
  | [] => .done [position]
  | last :: rest => .ask position last fun o =>
      if o == .lt then do return last :: (← insertPosition position rest)
      else .done (position :: last :: rest)

/-- Positions by insertion, the last one first. -/
def insertPositions (positions sorted : List Nat) : Comparing (List Nat) :=
  positions.foldlM (fun sorted position => insertPosition position sorted) sorted

/-- Sorting by insertion. -/
def insertion (n : Nat) : Comparing (List Nat) := do
  return (← insertPositions (List.range n) []).reverse

variable {n : Nat} {positions sorted : List Nat} {position : Nat}

theorem insertPosition_asks (hposition : position < n) (hsorted : ∀ i ∈ sorted, i < n)
    (hfresh : position ∉ sorted) :
    (insertPosition position sorted).Asks n fun found => found.Perm (position :: sorted) := by
  induction sorted with
  | nil => exact .done (.refl _)
  | cons last rest ih =>
      obtain ⟨hlast, hrest⟩ := List.forall_mem_cons.1 hsorted
      rw [List.mem_cons, not_or] at hfresh
      obtain ⟨hne, hfresh⟩ := hfresh
      refine .ask hposition hlast hne fun o => ?_
      split
      · exact (ih hrest hfresh).bind fun found hfound =>
          .done ((hfound.cons last).trans (.swap position last rest))
      · exact .done (.refl _)

theorem insertPositions_asks (hpositions : ∀ i ∈ positions, i < n) (hsorted : ∀ i ∈ sorted, i < n)
    (hnodup : (positions ++ sorted).Nodup) :
    (insertPositions positions sorted).Asks n fun _ => True := by
  induction positions generalizing sorted with
  | nil => exact .done trivial
  | cons position rest ih =>
      obtain ⟨hposition, hrest⟩ := List.forall_mem_cons.1 hpositions
      obtain ⟨hfresh, hnodup⟩ := List.nodup_cons.1 hnodup
      rw [insertPositions, List.foldlM_cons]
      refine (insertPosition_asks hposition hsorted fun h => hfresh (by simp [h])).bind
        fun found hfound => ih hrest (fun i hi => ?_) ?_
      · rcases List.mem_cons.1 (hfound.subset hi) with rfl | hi
        · exact hposition
        · exact hsorted i hi
      · refine ((hfound.append_left rest).trans List.perm_middle).nodup_iff.2 ?_
        exact List.nodup_cons.2 ⟨hfresh, hnodup⟩

theorem rankedBy_insertPosition (rank : Nat → Nat) :
    (insertPosition position sorted).rankedBy rank =
      Value.insertSorted (fun i j => Ord.compare (rank i) (rank j) == .lt) position sorted := by
  induction sorted with
  | nil => rfl
  | cons last rest ih =>
      rw [insertPosition, rankedBy, Value.insertSorted]
      split
      · rw [rankedBy_bind, ih]
        rfl
      · rfl

theorem rankedBy_insertion (n : Nat) (rank : Nat → Nat) :
    (insertion n).rankedBy rank =
      Value.insertionSort (fun i j => Ord.compare (rank i) (rank j) == .lt) (List.range n) := by
  have inserted (positions sorted : List Nat) :
      (insertPositions positions sorted).rankedBy rank = positions.foldl (fun sorted position =>
        Value.insertSorted (fun i j => Ord.compare (rank i) (rank j) == .lt) position sorted)
        sorted := by
    induction positions generalizing sorted with
    | nil => rfl
    | cons position rest ih =>
        rw [insertPositions, List.foldlM_cons, rankedBy_bind, List.foldl_cons,
          rankedBy_insertPosition]
        exact ih _
  rw [insertion, rankedBy_bind, inserted]
  rfl

theorem sortsStably_insertion : SortsStably insertion where
  asks n := by
    refine (insertPositions_asks (fun i hi => List.mem_range.1 hi) (by simp) ?_).bind
      fun _ _ => .done trivial
    rw [List.append_nil]
    exact List.nodup_range
  sorts n rank := by
    rw [rankedBy_insertion]
    refine ⟨Value.insertionSort_perm _, Value.insertionSort_pairwise ?_ ?_ ?_⟩
    · intro i _ j _ hless
      exact .inl (Nat.compare_eq_lt.1 (beq_iff_eq.1 hless))
    · refine List.pairwise_lt_range.imp fun hlt hless => ?_
      rw [beq_eq_false_iff_ne, ne_eq, Nat.compare_eq_lt, Nat.not_lt] at hless
      exact (Nat.lt_or_eq_of_le hless).imp_right fun heq => ⟨heq, hlt⟩
    · intro i _ j _ k _ hij hjk
      unfold RankedBefore at *
      omega

end Comparing

namespace Value

section Unique

variable {α β : Type} {directions : List Direction} {rows : List (Keyed α)}

theorem Precedes.asymm {a b : Keyed α × Nat} (h : Precedes directions a b) :
    ¬Precedes directions b a := by
  have hswap := totalOrderKeys_swap directions a.1.keys b.1.keys
  rintro h'
  rcases h with h | ⟨h, hlt⟩ <;> rcases h' with h' | ⟨h', hlt'⟩ <;>
    rw [totalOrderKeys_of_orderKeys h, totalOrderKeys_of_orderKeys h'] at hswap <;>
    first | cases hswap; done | omega

/-- There is one way to sort rows. -/
theorem IsSorted.unique {values others : List α} (h : IsSorted directions rows values)
    (h' : IsSorted directions rows others) : values = others := by
  obtain ⟨order, hperm, hpairwise, rfl⟩ := h
  obtain ⟨order', hperm', hpairwise', rfl⟩ := h'
  rw [(hperm.trans hperm'.symm).eq_of_pairwise (fun a b _ _ hab hba => (hab.asymm hba).elim)
    hpairwise hpairwise']

end Unique

end Value

namespace Pipeline

/-- A document with the values of these members as its keys. -/
def keyedBy {α : Type} (names : List String) (value : Json → α) (document : Json) :
    Value.Keyed α :=
  { keys := names.map (Document.fieldValue document), value := value document }

section Positions

variable (keys : Fields Direction) (documents : List Json)

/-- The document at a position, with its keys. -/
def rowAt (i : Nat) : List Value × Json :=
  let document := documents.getD i .null
  (keys.names.map (Document.fieldValue document), document)

/-- The order of two documents, by their positions. -/
def orderAt (i j : Nat) : Except Error Ordering :=
  Value.orderKeys (keys.map Prod.snd) (rowAt keys documents i).1 (rowAt keys documents j).1

/-- The total order of two documents, by their positions. -/
def totalAt (i j : Nat) : Ordering :=
  Value.totalOrderKeys (keys.map Prod.snd) (rowAt keys documents i).1 (rowAt keys documents j).1

/-- Documents in the order that the algorithm finds for their positions. Where two documents have
no order it takes them to be equal, and the first such error is told in the end. -/
def sortWith (algorithm : Nat → Comparing (List Nat)) : Except Error (List Json) := do
  let order ← (algorithm documents.length).finish (orderAt keys documents) none
  return order.map fun i => (rowAt keys documents i).2

variable {keys documents}

theorem rowAt_eq {i : Nat} (hi : i < documents.length) : rowAt keys documents i =
    (keys.names.map (Document.fieldValue documents[i]), documents[i]) := by
  simp [rowAt, hi]

theorem insertRow_eq_run (position : Nat) (positions : List Nat) :
    insertRow (keys.map Prod.snd) (rowAt keys documents position)
        (positions.map (rowAt keys documents)) =
      ((Comparing.insertPosition position positions).run (orderAt keys documents)).map
        (List.map (rowAt keys documents)) := by
  induction positions with
  | nil => rfl
  | cons last rest ih =>
      rw [List.map_cons, insertRow, Comparing.insertPosition, Comparing.run, ← orderAt]
      cases orderAt keys documents position last with
      | error e => rfl
      | ok o =>
          cases o with
          | lt =>
              show (insertRow _ _ _ >>= fun found => .ok (rowAt keys documents last :: found)) = _
              rw [ih]
              show _ = ((do return last :: (← Comparing.insertPosition position rest) :
                Comparing (List Nat)).run (orderAt keys documents)).map _
              rw [Comparing.run_bind]
              cases (Comparing.insertPosition position rest).run (orderAt keys documents) <;> rfl
          | eq | gt => rfl

theorem foldlM_insertRow_eq_run (positions sorted : List Nat) :
    (positions.map (rowAt keys documents)).foldlM
        (fun sorted row => insertRow (keys.map Prod.snd) row sorted)
        (sorted.map (rowAt keys documents)) =
      ((Comparing.insertPositions positions sorted).run (orderAt keys documents)).map
        (List.map (rowAt keys documents)) := by
  induction positions generalizing sorted with
  | nil => rfl
  | cons position rest ih =>
      rw [List.map_cons, List.foldlM_cons, insertRow_eq_run, Comparing.insertPositions,
        List.foldlM_cons, Comparing.run_bind]
      cases (Comparing.insertPosition position sorted).run (orderAt keys documents) with
      | error e => rfl
      | ok found => exact ih found

theorem map_getD_range (documents : List Json) :
    (List.range documents.length).map (fun i => documents.getD i .null) = documents := by
  refine List.ext_getElem (by simp) fun i hi hi' => ?_
  simp [hi']

/-- Documents are sorted by insertion. -/
theorem sortDocuments_eq_sortWith (keys : Fields Direction) (documents : List Json) :
    sortDocuments keys documents = sortWith keys documents Comparing.insertion := by
  have hrows : documents.map (fun document =>
      (keys.names.map (Document.fieldValue document), document)) =
        (List.range documents.length).map (rowAt keys documents) := by
    conv_lhs => rw [← map_getD_range documents]
    rw [List.map_map]
    rfl
  rw [sortDocuments, hrows, sortWith, Comparing.finish_none, Comparing.insertion,
    Comparing.run_bind]
  have hfold := @foldlM_insertRow_eq_run keys documents (List.range documents.length) []
  rw [List.map_nil] at hfold
  simp only [hfold]
  cases
    (Comparing.insertPositions (List.range documents.length) []).run (orderAt keys documents) with
  | error e => rfl
  | ok order => exact congrArg Except.ok (by simp)

end Positions

section Agreement

variable {α : Type} {keys : Fields Direction} {documents : List Json}
  {algorithm : Nat → Comparing (List Nat)}

/-- Each member by which documents are sorted lacks one kind of numbers, at any depth of lists. -/
def Unmixed (keys : Fields Direction) (documents : List Json) : Prop :=
  ∀ name ∈ keys.names, Value.Unmixed (documents.map fun document =>
    Document.fieldValue document name)

/-- The documents with their keys, as rows to be sorted. -/
def rows (keys : Fields Direction) (value : Json → α) (documents : List Json) :
    List (Value.Keyed α) :=
  documents.map fun document =>
    { keys := keys.names.map (Document.fieldValue document), value := value document }

theorem Unmixed.sortable (h : Unmixed keys documents) (value : Json → α) :
    Value.Sortable (keys.map Prod.snd) (rows keys value documents) where
  length row hrow := by
    obtain ⟨document, -, rfl⟩ := List.mem_map.1 hrow
    simp [Fields.names]
  unmixed i := by
    by_cases hi : i < keys.names.length
    · obtain ⟨kind, hkind⟩ := h _ (List.getElem_mem hi)
      refine ⟨kind, fun v hv => ?_⟩
      obtain ⟨row, hrow, hkey⟩ := List.mem_filterMap.1 hv
      obtain ⟨document, hdocument, rfl⟩ := List.mem_map.1 hrow
      refine hkind v (List.mem_map.2 ⟨document, hdocument, ?_⟩)
      simpa [hi] using hkey
    · refine ⟨.whole, fun v hv => ?_⟩
      obtain ⟨row, hrow, hkey⟩ := List.mem_filterMap.1 hv
      obtain ⟨document, -, rfl⟩ := List.mem_map.1 hrow
      simp [List.getElem?_eq_none (Nat.not_lt.1 hi)] at hkey

/-- Whether any two documents have an order. -/
def AllOrdered (keys : Fields Direction) (documents : List Json) : Prop :=
  documents.Pairwise fun a b => Value.KeysComparable (keys.map Prod.snd)
    (keys.names.map (Document.fieldValue a)) (keys.names.map (Document.fieldValue b))

theorem allComparable_rows (value : Json → α) :
    Value.AllComparable (keys.map Prod.snd) (rows keys value documents) ↔
      AllOrdered keys documents :=
  List.pairwise_map

theorem allOrdered_of_perm {others : List Json} (h : others.Perm documents) :
    AllOrdered keys others ↔ AllOrdered keys documents :=
  h.pairwise_iff fun hab => hab.symm

theorem allOrdered_iff : AllOrdered keys documents ↔ ∀ i j, i < documents.length →
    j < documents.length → i ≠ j → Compares (orderAt keys documents) i j := by
  rw [AllOrdered, List.pairwise_iff_getElem]
  have hcompares {i j : Nat} (hi : i < documents.length) (hj : j < documents.length) :
      Compares (orderAt keys documents) i j ↔ Value.KeysComparable (keys.map Prod.snd)
        (keys.names.map (Document.fieldValue documents[i]))
        (keys.names.map (Document.fieldValue documents[j])) := by
    rw [Compares, orderAt, rowAt_eq hi, rowAt_eq hj]
    rfl
  constructor
  · intro h i j hi hj hne
    rw [hcompares hi hj]
    rcases Nat.lt_or_gt_of_ne hne with hlt | hgt
    · exact h i j hi hj hlt
    · exact (h j i hj hi hgt).symm
  · intro h i j hi hj hlt
    exact (hcompares hi hj).1 (h i j hi hj (Nat.ne_of_lt hlt))

theorem Unmixed.partly (h : Unmixed keys documents) :
    Partly documents.length (orderAt keys documents) (totalAt keys documents) := by
  obtain ⟨kinds, hkinds⟩ := (h.sortable id).keysLack
  have hlack {i : Nat} (hi : i < documents.length) :
      Value.KeysLack kinds (keys.map Prod.snd) (rowAt keys documents i).1 := by
    rw [rowAt_eq hi]
    exact hkinds _ (List.mem_map_of_mem (List.getElem_mem hi))
  exact
    { agrees := Value.totalOrderKeys_of_orderKeys
      swap := fun i j => Value.totalOrderKeys_swap _ _ _
      symm := Value.KeysComparable.symm
      chain := fun hi hj hk => Value.chain_of_keys (hlack hi) (hlack hj) (hlack hk) }

theorem zipIdx_rows (value : Json → α) :
    (rows keys value documents).zipIdx = (List.range documents.length).map fun i =>
      ({ keys := (rowAt keys documents i).1, value := value (rowAt keys documents i).2 }, i) := by
  refine List.ext_getElem (by simp [rows]) fun i hi hi' => ?_
  have hi : i < documents.length := by simpa [rows] using hi
  simp [rows, rowAt_eq hi]

/-- Positions in the total order give rows in the order of their keys. -/
theorem isSorted_of_inRankOrder (h : Unmixed keys documents) (hall : AllOrdered keys documents)
    {order : List Nat} (hsorted : InRankOrder documents.length
      (Partly.rankOf documents.length (totalAt keys documents)) order) (value : Json → α) :
    Value.IsSorted (keys.map Prod.snd) (rows keys value documents)
      (order.map fun i => value (rowAt keys documents i).2) := by
  have hpartly := h.partly
  rw [allOrdered_iff] at hall
  refine ⟨order.map fun i =>
    ({ keys := (rowAt keys documents i).1, value := value (rowAt keys documents i).2 }, i),
    ?_, ?_, by rw [List.map_map]; rfl⟩
  · rw [zipIdx_rows]
    exact hsorted.perm.map _
  · refine List.pairwise_map.2 (hsorted.pairwise.imp_of_mem fun {i j} hi hj hbefore => ?_)
    have hi := List.mem_range.1 (hsorted.perm.subset hi)
    have hj := List.mem_range.1 (hsorted.perm.subset hj)
    have hne : i ≠ j := by
      rintro rfl
      exact hbefore.elim (Nat.lt_irrefl _) fun heq => Nat.lt_irrefl _ heq.2
    obtain ⟨o, ho⟩ := hall i j hi hj hne
    have hrank := hpartly.compare_rankOf hi hj
    rw [hpartly.agrees ho] at hrank
    refine hbefore.imp (fun hlt => ?_) fun ⟨heq, hlt⟩ => ⟨?_, hlt⟩
    · rw [Nat.compare_eq_lt.2 hlt] at hrank
      exact hrank ▸ ho
    · rw [Nat.compare_eq_eq.2 heq] at hrank
      exact hrank ▸ ho

section Stable

variable (stable : SortsStably algorithm)

include stable

/-- If any two documents have an order, the algorithm puts them in that order, whatever is sorted
along with their keys. -/
theorem sortWith_of_allOrdered (h : Unmixed keys documents) (hall : AllOrdered keys documents) :
    ∃ sorted, sortWith keys documents algorithm = .ok sorted ∧
      ∀ (α : Type) (value : Json → α), Value.IsSorted (keys.map Prod.snd)
        (rows keys value documents) (sorted.map value) := by
  have hrun := h.partly.run_of_comparable stable (allOrdered_iff.1 hall)
  refine ⟨_, by rw [sortWith, Comparing.finish_none, hrun]; rfl, fun α value => ?_⟩
  rw [List.map_map]
  exact isSorted_of_inRankOrder h hall (stable.sorts _ _) value

/-- If two documents have no order, the algorithm meets two such documents. -/
theorem sortWith_of_not_allOrdered (h : Unmixed keys documents)
    (hnot : ¬AllOrdered keys documents) :
    ∃ e, sortWith keys documents algorithm = .error e ∧ e.kind = .typeMismatch := by
  rw [sortWith, Comparing.finish_none]
  cases hrun : (algorithm documents.length).run (orderAt keys documents) with
  | ok order =>
      exact absurd (allOrdered_iff.2 fun i j hi hj hne =>
        h.partly.compares_of_run stable hrun hi hj hne) hnot
  | error e =>
      obtain ⟨i, j, horder⟩ := Comparing.exists_of_run_error hrun
      exact ⟨e, rfl, Value.kind_of_orderKeys_error horder⟩

end Stable

theorem sortWith_eq_ok_iff (stable : SortsStably algorithm) (h : Unmixed keys documents)
    {sorted : List Json} : sortWith keys documents algorithm = .ok sorted ↔
      Value.sortKeyed (keys.map Prod.snd) (rows keys id documents) = .ok sorted := by
  by_cases hall : AllOrdered keys documents
  · obtain ⟨found, hfound, hsorted⟩ := sortWith_of_allOrdered stable h hall
    obtain ⟨found', hfound', hsorted'⟩ := Value.sortKeyed_of_allComparable (h.sortable id)
      ((allComparable_rows id).2 hall)
    rw [hfound, hfound', ← (hsorted _ id).unique hsorted', List.map_id]
  · obtain ⟨e, he, -⟩ := sortWith_of_not_allOrdered stable h hall
    obtain ⟨e', he', -⟩ := Value.sortKeyed_of_not_allComparable (h.sortable id)
      fun hrows => hall ((allComparable_rows id).1 hrows)
    rw [he, he']
    exact ⟨nofun, nofun⟩

theorem succeeds_iff (stable : SortsStably algorithm) (h : Unmixed keys documents) :
    (∃ sorted, sortWith keys documents algorithm = .ok sorted) ↔ AllOrdered keys documents := by
  refine ⟨fun ⟨sorted, hrun⟩ => Classical.byContradiction fun hnot => ?_, fun hall => ?_⟩
  · obtain ⟨e, he, -⟩ := sortWith_of_not_allOrdered stable h hnot
    rw [he] at hrun
    cases hrun
  · obtain ⟨sorted, hrun, -⟩ := sortWith_of_allOrdered stable h hall
    exact ⟨sorted, hrun⟩

theorem run_sort (keys : Fields Direction) (documents : List Json) :
    (Stage.sort keys).run documents = sortWith keys documents Comparing.insertion :=
  sortDocuments_eq_sortWith keys documents

theorem Unmixed.of_perm {others : List Json} (h : Unmixed keys documents)
    (hperm : others.Perm documents) : Unmixed keys others := fun name hname =>
  (h name hname).imp fun _ hkind v hv => hkind v ((hperm.map _).subset hv)

section Naive

variable {keysOf : Value → EvalM (List Value)} {s : Sequence} {w w' : World}

theorem succeeds_sorted_iff (h : Unmixed keys documents)
    (hreads : s.ReadsRows keysOf w (rows keys Document.toValue documents) w') :
    (s.sorted keysOf (keys.map Prod.snd)).Succeeds w ↔ AllOrdered keys documents := by
  rw [Sequence.succeeds_sorted_iff hreads (h.sortable _), allComparable_rows]

/-- The values of the documents come in the order in which the documents are sorted. -/
theorem delivers_sorted (h : Unmixed keys documents)
    (hreads : s.ReadsRows keysOf w (rows keys Document.toValue documents) w')
    {sorted : List Json} (hrun : (Stage.sort keys).run documents = .ok sorted) :
    (s.sorted keysOf (keys.map Prod.snd)).Delivers w
      (sorted.map fun document => .ok (Document.toValue document)) w' := by
  rw [run_sort] at hrun
  have hall := (succeeds_iff Comparing.sortsStably_insertion h).1 ⟨sorted, hrun⟩
  obtain ⟨found, hfound, hsorted⟩ :=
    sortWith_of_allOrdered Comparing.sortsStably_insertion h hall
  obtain rfl : found = sorted := Except.ok.inj (hfound.symm.trans hrun)
  obtain ⟨values, hdelivers, hvalues⟩ := Sequence.delivers_sorted hreads (h.sortable _)
    ((allComparable_rows _).2 hall)
  rw [hvalues.unique (hsorted _ Document.toValue), List.map_map] at hdelivers
  exact hdelivers

end Naive

end Agreement

/-- The member of this name, or null. -/
def memberOrNull (v : Value) (name : String) : Value :=
  match v with
  | .record fields => (Fields.get? fields name).getD .null
  | _ => .null

theorem memberOrNull_toValue (document : Json) (name : String) :
    memberOrNull (Document.toValue document) name = Document.fieldValue document name := by
  cases document with
  | object members =>
      rw [Document.toValue, memberOrNull, Document.get?_toFields, Document.fieldValue, Json.member?]
      cases Fields.get? members name <;> rfl
  | int n =>
      rw [Document.toValue, Document.numberValue]
      cases wordOfInt? n <;> rfl
  | _ => rfl

/-- The values of documents, sorted by members of which a missing one counts as null. -/
def sortedValues (keys : Fields Direction) (documents : List Json) : Sequence :=
  (Sequence.ofValues (documents.map Document.toValue)).sorted
    (fun v => pure (keys.names.map (memberOrNull v))) (keys.map Prod.snd)

theorem readsRows_ofValues (keys : Fields Direction) (documents : List Json) (w : World) :
    (Sequence.ofValues (documents.map Document.toValue)).ReadsRows
      (fun v => pure (keys.names.map (memberOrNull v))) w (rows keys Document.toValue documents)
      w := by
  have hgives : (Sequence.ofValues (documents.map Document.toValue)).Gives
      (fun v => pure (keys.names.map (memberOrNull v))) w
      (rows keys Document.toValue documents) w := by
    induction documents with
    | nil => exact .done rfl
    | cons document rest ih =>
        have hkeys : keys.names.map (memberOrNull (Document.toValue document)) =
            keys.names.map (Document.fieldValue document) :=
          List.map_congr_left fun name _ => memberOrNull_toValue document name
        exact .more rfl (congrArg (fun found => (Except.ok found, w)) hkeys) ih
  exact hgives.readsRows rfl

/-- Sorting documents and sorting their values by the same members succeed alike and end in the
same order. Neither the order in which the documents come nor the pairs that happen to be compared
make a difference to whether it succeeds. -/
theorem Stage.sort_matches_evaluated (keys : Fields Direction) (documents : List Json)
    (h : Unmixed keys documents) :
    (∀ sorted, (Stage.sort keys).run documents = .ok sorted ↔
      Value.sortKeyed (keys.map Prod.snd) (rows keys id documents) = .ok sorted) ∧
    (∀ keysOf s w w', Sequence.ReadsRows keysOf s w (rows keys Document.toValue documents) w' →
      ((∃ sorted, (Stage.sort keys).run documents = .ok sorted) ↔
        (s.sorted keysOf (keys.map Prod.snd)).Succeeds w) ∧
      ∀ sorted, (Stage.sort keys).run documents = .ok sorted →
        (s.sorted keysOf (keys.map Prod.snd)).Delivers w
          (sorted.map fun document => .ok (Document.toValue document)) w') ∧
    (∀ w, ((∃ sorted, (Stage.sort keys).run documents = .ok sorted) ↔
        (sortedValues keys documents).Succeeds w) ∧
      ∀ sorted, (Stage.sort keys).run documents = .ok sorted →
        (sortedValues keys documents).Delivers w
          (sorted.map fun document => .ok (Document.toValue document)) w) ∧
    (∀ others, others.Perm documents → ((∃ sorted, (Stage.sort keys).run others = .ok sorted) ↔
      ∃ sorted, (Stage.sort keys).run documents = .ok sorted)) ∧
    ∀ algorithm, SortsStably algorithm → ∀ sorted,
      sortWith keys documents algorithm = .ok sorted ↔
        (Stage.sort keys).run documents = .ok sorted := by
  have hsucceeds (documents : List Json) (h : Unmixed keys documents) :
      (∃ sorted, (Stage.sort keys).run documents = .ok sorted) ↔ AllOrdered keys documents := by
    rw [← succeeds_iff Comparing.sortsStably_insertion h]
    simp only [run_sort]
  have hnaive {keysOf : Value → EvalM (List Value)} {s : Sequence} {w w' : World}
      (hreads : s.ReadsRows keysOf w (rows keys Document.toValue documents) w') :
      ((∃ sorted, (Stage.sort keys).run documents = .ok sorted) ↔
        (s.sorted keysOf (keys.map Prod.snd)).Succeeds w) ∧
      ∀ sorted, (Stage.sort keys).run documents = .ok sorted →
        (s.sorted keysOf (keys.map Prod.snd)).Delivers w
          (sorted.map fun document => .ok (Document.toValue document)) w' :=
    ⟨(hsucceeds documents h).trans (succeeds_sorted_iff h hreads).symm,
      fun _ => delivers_sorted h hreads⟩
  refine ⟨fun sorted => ?_, fun keysOf s w w' => hnaive, fun w => hnaive (readsRows_ofValues _ _ w),
    fun others hperm => ?_, fun algorithm stable sorted => ?_⟩
  · rw [run_sort, sortWith_eq_ok_iff Comparing.sortsStably_insertion h]
  · rw [hsucceeds others (h.of_perm hperm), hsucceeds documents h, allOrdered_of_perm hperm]
  · rw [run_sort, sortWith_eq_ok_iff stable h,
      sortWith_eq_ok_iff Comparing.sortsStably_insertion h]

/-- The document without the member comes last, as it does if the values are sorted. -/
theorem Stage.sort_matches_evaluated_missing :
    let keys : Fields Direction := [("age", .descending)]
    let documents : List Json :=
      [.object [("age", .int 1)], .object [], .object [("age", .int 2)]]
    let sorted : List Json :=
      [.object [("age", .int 2)], .object [("age", .int 1)], .object []]
    Unmixed keys documents ∧ (Stage.sort keys).run documents = .ok sorted ∧
      (sortedValues keys documents).Delivers {}
        (sorted.map fun document => .ok (Document.toValue document)) {} := by
  intro keys documents sorted
  have hunmixed : Unmixed keys documents := by
    intro name hname
    obtain rfl : name = "age" := by simpa [keys, Fields.names] using hname
    exact ⟨.fractional, by decide⟩
  have hrun : (Stage.sort keys).run documents = .ok sorted := rfl
  exact ⟨hunmixed, hrun, ((Stage.sort_matches_evaluated keys documents hunmixed).2.2.1 {}).2 sorted hrun⟩

end Pipeline

end RecordAlgebra
