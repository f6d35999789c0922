import RecordAlgebra.Proofs.Sequence.Gathering

/-!
# Groups of rows with equal keys

A row goes into the first group whose key equals its key, and starts a group if there is none.
The keys may be compared by any reflexive relation. If it is transitive as well, two rows are in
one group exactly if their keys are equal.
-/

namespace RecordAlgebra

section Partition

variable {κ α : Type} (same : κ → κ → Bool)

/-- The position of the first group whose key equals this one. -/
def home? (groups : List (κ × List α)) (key : κ) : Option Nat :=
  groups.findIdx? fun group => same key group.1

/-- The groups with one more row. -/
def addRow (groups : List (κ × List α)) (row : κ × α) : List (κ × List α) :=
  match home? same groups row.1 with
  | none => groups ++ [(row.1, [row.2])]
  | some i => groups.modify i fun group => (group.1, group.2 ++ [row.2])

/-- Groups that hold the rows. Their first members are in the order of the rows, each row is in
the first group whose key equals its key, and the members of a group are in the order of the
rows. -/
structure IsPartition (rows : List (κ × α)) (groups : List (κ × List α)) : Prop where
  firsts : ∃ firsts : List (κ × α), firsts.Sublist rows ∧
    List.Forall₂ (fun group first => group.1 = first.1 ∧ group.2.head? = some first.2)
      groups firsts
  apart : (groups.map Prod.fst).Pairwise fun earlier later => same later earlier = false
  home : ∀ row ∈ rows, (home? same groups row.1).isSome
  members : ∀ i group, groups[i]? = some group →
    group.2 = (rows.filter fun row => home? same groups row.1 == some i).map Prod.snd

variable {same} {groups others : List (κ × List α)} {rows : List (κ × α)} {row : κ × α}
  {key : κ} {i j : Nat}

theorem home?_congr (h : groups.map Prod.fst = others.map Prod.fst) (key : κ) :
    home? same groups key = home? same others key := by
  have hkeys (groups : List (κ × List α)) :
      home? same groups key = (groups.map Prod.fst).findIdx? (same key) := by
    rw [home?, List.findIdx?_map]
    rfl
  rw [hkeys, hkeys, h]

theorem exists_of_home? (h : home? same groups key = some i) :
    ∃ group, groups[i]? = some group ∧ same key group.1 = true := by
  obtain ⟨hi, hsame, -⟩ := List.findIdx?_eq_some_iff_getElem.1 h
  exact ⟨groups[i], List.getElem?_eq_getElem hi, hsame⟩

theorem home?_append_of_some (h : home? same groups key = some i) (group : κ × List α) :
    home? same (groups ++ [group]) key = some i := by
  rw [home?] at h ⊢
  rw [List.findIdx?_append, h]
  rfl

theorem home?_append_self (h : home? same groups key = none) (hself : same key key = true)
    (members : List α) : home? same (groups ++ [(key, members)]) key = some groups.length := by
  rw [home?] at h ⊢
  rw [List.findIdx?_append, h]
  simp [List.findIdx?_cons, hself]

theorem lt_of_home? (h : home? same groups key = some i) : i < groups.length := by
  obtain ⟨group, hgroup, -⟩ := exists_of_home? h
  exact (List.getElem?_eq_some_iff.1 hgroup).1

namespace IsPartition

theorem nil : IsPartition same ([] : List (κ × α)) [] :=
  ⟨⟨[], .slnil, .nil⟩, .nil, nofun, nofun⟩

section Start

variable (h : IsPartition same rows groups) (hself : same row.1 row.1 = true)
  (hnone : home? same groups row.1 = none)

include h in
/-- Rows stay at home if one more group is started. -/
theorem home?_append {other : κ × α} (hother : other ∈ rows) (group : κ × List α) :
    home? same (groups ++ [group]) other.1 = home? same groups other.1 := by
  obtain ⟨i, hi⟩ := Option.isSome_iff_exists.1 (h.home other hother)
  rw [home?_append_of_some hi, hi]

include h hself hnone in
theorem filter_start (i : Nat) :
    (rows ++ [row]).filter (fun other =>
        home? same (groups ++ [(row.1, [row.2])]) other.1 == some i) =
      (rows.filter fun other => home? same groups other.1 == some i) ++
        if i = groups.length then [row] else [] := by
  rw [List.filter_append, List.filter_singleton, home?_append_self hnone hself]
  congr 1
  · refine List.filter_congr fun other hother => ?_
    rw [h.home?_append hother]
  · by_cases hi : i = groups.length
    · simp [hi]
    · simp [hi, beq_eq_false_iff_ne.2 (Ne.symm hi)]

include h hself hnone in
theorem start : IsPartition same (rows ++ [row]) (groups ++ [(row.1, [row.2])]) where
  firsts := by
    obtain ⟨firsts, hsub, hfirsts⟩ := h.firsts
    exact ⟨firsts ++ [row], hsub.append (.refl _), List.rel_append hfirsts (.cons ⟨rfl, rfl⟩ .nil)⟩
  apart := by
    rw [List.map_append]
    refine List.pairwise_append.2 ⟨h.apart, List.pairwise_singleton _ _, ?_⟩
    rintro key hkey _ hnew
    obtain ⟨group, hgroup, rfl⟩ := List.mem_map.1 hkey
    rw [List.mem_singleton.1 hnew]
    simpa using List.findIdx?_eq_none_iff.1 hnone group hgroup
  home other hother := by
    rcases List.mem_append.1 hother with hother | hother
    · rw [h.home?_append hother]
      exact h.home other hother
    · rw [List.mem_singleton.1 hother, home?_append_self hnone hself]
      rfl
  members i group hgroup := by
    rw [h.filter_start hself hnone, List.map_append]
    by_cases hi : i < groups.length
    · rw [List.getElem?_append_left hi] at hgroup
      rw [h.members i group hgroup, if_neg (Nat.ne_of_lt hi)]
      simp
    · have hlast : i = groups.length := by
        have := (List.getElem?_eq_some_iff.1 hgroup).1
        simp only [List.length_append, List.length_singleton] at this
        omega
      have hnew : rows.filter (fun other => home? same groups other.1 == some i) = [] := by
        refine List.filter_eq_nil_iff.2 fun other _ heq => ?_
        exact hi (lt_of_home? (beq_iff_eq.1 heq))
      rw [hnew, if_pos hlast]
      rw [hlast, List.getElem?_concat_length] at hgroup
      rw [← Option.some.inj hgroup]
      rfl

end Start

section Join

variable (h : IsPartition same rows groups) (hsome : home? same groups row.1 = some i)

theorem map_fst_modify (groups : List (κ × List α)) (i : Nat) (members : List α) :
    (groups.modify i fun group => (group.1, group.2 ++ members)).map Prod.fst =
      groups.map Prod.fst := by
  refine List.ext_getElem? fun j => ?_
  rw [List.getElem?_map, List.getElem?_map, List.getElem?_modify]
  cases groups[j]? with
  | none => rfl
  | some group =>
      simp only [Option.map_eq_map, Option.map_some]
      split <;> rfl

include h hsome in
theorem join : IsPartition same (rows ++ [row])
    (groups.modify i fun group => (group.1, group.2 ++ [row.2])) where
  firsts := by
    obtain ⟨firsts, hsub, hfirsts⟩ := h.firsts
    refine ⟨firsts, hsub.trans (List.sublist_append_left _ _), ?_⟩
    have hmodified := forall₂_modify (f := fun group : κ × List α => (group.1, group.2 ++ [row.2]))
      (g := id) (fun group first ⟨hkey, hhead⟩ => ⟨hkey, by simp [hhead]⟩) hfirsts i
    rwa [List.modify_id] at hmodified
  apart := by
    rw [map_fst_modify]
    exact h.apart
  home other hother := by
    rw [home?_congr (map_fst_modify groups i [row.2])]
    rcases List.mem_append.1 hother with hother | hother
    · exact h.home other hother
    · rw [List.mem_singleton.1 hother, hsome]
      rfl
  members j group hgroup := by
    simp only [home?_congr (map_fst_modify groups i [row.2])]
    rw [List.filter_append, List.filter_singleton, hsome, List.map_append]
    rw [List.getElem?_modify] at hgroup
    obtain ⟨before, hbefore, hmodified⟩ := Option.map_eq_some_iff.1 hgroup
    have hmembers := h.members j before hbefore
    by_cases hij : i = j
    · rw [if_pos hij] at hmodified
      rw [← hmodified, ← hmembers]
      simp [hij]
    · rw [if_neg hij] at hmodified
      rw [← hmodified, ← hmembers]
      simp [beq_eq_false_iff_ne.2 hij]

end Join

/-- One more row. -/
theorem add (h : IsPartition same rows groups) (hself : same row.1 row.1 = true) :
    IsPartition same (rows ++ [row]) (addRow same groups row) := by
  rw [addRow]
  cases hhome : home? same groups row.1 with
  | none => exact h.start hself hhome
  | some i => exact h.join hhome

/-- All rows, one after the other. -/
theorem foldl {before : List (κ × α)} (h : IsPartition same before groups)
    (hself : ∀ row ∈ rows, same row.1 row.1 = true) :
    IsPartition same (before ++ rows) (rows.foldl (addRow same) groups) := by
  induction rows generalizing before groups with
  | nil => rwa [List.append_nil]
  | cons row rest ih =>
      obtain ⟨hrow, hrest⟩ := List.forall_mem_cons.1 hself
      have hall := ih (h.add hrow) hrest
      rwa [List.append_assoc, List.singleton_append] at hall

theorem exists_row (h : IsPartition same rows groups) {group : κ × List α} (hgroup : group ∈ groups) :
    ∃ row ∈ rows, group.1 = row.1 := by
  obtain ⟨firsts, hsub, hfirsts⟩ := h.firsts
  obtain ⟨i, hi, rfl⟩ := List.getElem_of_mem hgroup
  have hi' : i < firsts.length := hfirsts.length_eq ▸ hi
  exact ⟨firsts[i], hsub.subset (List.getElem_mem hi'), (hfirsts.get hi hi').1⟩

/-- If the relation is an equivalence, rows are in one group exactly if their keys are equal. -/
theorem home?_eq_iff (h : IsPartition same rows groups)
    (hsymm : ∀ row ∈ rows, ∀ other ∈ rows, same row.1 other.1 = true → same other.1 row.1 = true)
    (htrans : ∀ row ∈ rows, ∀ between ∈ rows, ∀ other ∈ rows, same row.1 between.1 = true →
      same between.1 other.1 = true → same row.1 other.1 = true)
    {row other : κ × α} (hrow : row ∈ rows) (hother : other ∈ rows) :
    home? same groups row.1 = home? same groups other.1 ↔ same row.1 other.1 = true := by
  -- A row of the same key comes no later.
  have first {row other : κ × α} (hrow : row ∈ rows) (hother : other ∈ rows)
      (hsame : same row.1 other.1 = true) {i j : Nat} (hi : home? same groups row.1 = some i)
      (hj : home? same groups other.1 = some j) : i ≤ j := by
    obtain ⟨group, hgroup, hequal⟩ := exists_of_home? hj
    obtain ⟨start, hstart, hkey⟩ := h.exists_row (List.mem_of_getElem? hgroup)
    rw [hkey] at hequal
    have hequal' := htrans row hrow other hother start hstart hsame hequal
    refine Nat.le_of_not_lt fun hji => ?_
    obtain ⟨hlt, -, hbefore⟩ := List.findIdx?_eq_some_iff_getElem.1 hi
    obtain ⟨hj', hgroup⟩ := List.getElem?_eq_some_iff.1 hgroup
    exact hbefore j hji (by rw [hgroup, hkey]; exact hequal')
  obtain ⟨i, hi⟩ := Option.isSome_iff_exists.1 (h.home row hrow)
  obtain ⟨j, hj⟩ := Option.isSome_iff_exists.1 (h.home other hother)
  rw [hi, hj, Option.some.injEq]
  constructor
  · rintro rfl
    obtain ⟨group, hgroup, hequal⟩ := exists_of_home? hi
    obtain ⟨group', hgroup', hequal'⟩ := exists_of_home? hj
    cases hgroup.symm.trans hgroup'
    obtain ⟨start, hstart, hkey⟩ := h.exists_row (List.mem_of_getElem? hgroup)
    rw [hkey] at hequal hequal'
    exact htrans row hrow start hstart other hother hequal (hsymm other hother start hstart hequal')
  · intro hsame
    exact Nat.le_antisymm (first hrow hother hsame hi hj)
      (first hother hrow (hsymm row hrow other hother hsame) hj hi)

end IsPartition

end Partition

end RecordAlgebra
