import RecordAlgebra.Proofs.Sequence.Next
import RecordAlgebra.Proofs.Value.Transitivity

/-!
# Values that are taken for one another

Distinct values and groups are found by comparing each value with those before it. Without a
clash among the values it makes no difference in which order they come: two values are taken
for one another exactly if they are equal.
-/

namespace RecordAlgebra

namespace Value

section Keys

variable {v : Value} {m : Type → Type} [Monad m] [LawfulMonad m] (items : ItemRef → m Digest)

theorem digestElements_eq {vs : List Value}
    (step : ∀ v ∈ vs, digest items v = pure (Datum.ofValue v).digest) :
    digestElements items vs = pure (Datum.digests (Datum.ofValues vs)) := by
  induction vs with
  | nil => rfl
  | cons v vs ih =>
      rw [digestElements, step v (by simp), ih fun v hv => step v (by simp [hv])]
      simp [Datum.ofValues, Datum.digests]

theorem digestEntries_eq {fields : Fields Value}
    (step : ∀ field ∈ fields, digest items field.2 = pure (Datum.ofValue field.2).digest) :
    digestEntries items fields =
      pure (Datum.digestEntries (fun _ => true) (Datum.ofFields fields)) := by
  induction fields with
  | nil => rfl
  | cons field fields ih =>
      obtain ⟨name, v⟩ := field
      rw [digestEntries, step (name, v) (by simp), ih fun field h => step field (by simp [h])]
      simp [Datum.ofFields, Datum.digestEntries]

/-- Values without items are digested without a look at any item. -/
theorem IsData.digest_eq (h : v.IsData) : digest items v = pure (Datum.ofValue v).digest := by
  induction h with
  | @single v hsingle => cases v <;> first | rfl | cases hsingle
  | list _ ih =>
      rw [digest, digestElements_eq items ih, pure_bind]
      rfl
  | record _ _ ih =>
      rw [digest, digestEntries_eq items ih, pure_bind]
      rfl

theorem IsData.toKey_eq (h : v.IsData) (access : ItemAccess m) :
    v.toKey access = pure (.ofData v) := by
  rw [toKey, h.digest_eq, pure_bind]
  rfl

theorem IsData.key_equal_eq {u : Value} (hv : v.IsData) (hu : u.IsData) (access : ItemAccess m) :
    (Key.ofData v).equal access (.ofData u) = pure (v.same u) := by
  have hkey := hv.isItemFree.sameKey_eq hu.isItemFree
  rw [Datum.sameKey, ← same] at hkey
  rw [Key.equal]
  simp only [Key.ofData, hv.equal_eq access.equal hu]
  cases hdigest : (Datum.ofValue v).digest.same (Datum.ofValue u).digest with
  | true => rfl
  | false =>
      rw [hdigest, Bool.false_and] at hkey
      rw [← hkey]
      rfl

end Keys

end Value

section Distinct

variable {access : ItemAccess EvalM} {vs seen : List Value}

theorem EvalM.attempt_pure {α : Type} (a : α) : attempt (pure a : EvalM α) = pure (.ok a) := rfl

theorem Stage.isSeen_eq {v : Value} (hv : v.IsData) (hseen : ∀ u ∈ seen, u.IsData) :
    isSeen access (.ofData v) (seen.map .ofData) = pure (seen.any v.same) := by
  induction seen with
  | nil => rfl
  | cons u rest ih =>
      rw [List.forall_mem_cons] at hseen
      rw [List.map_cons, isSeen, hv.key_equal_eq hseen.1, pure_bind, ih hseen.2, List.any_cons]
      cases v.same u <;> rfl

/-- Those values that equal no earlier one. -/
def firsts (seen : List Value) : List Value → List Value
  | [] => []
  | v :: rest => if seen.any v.same then firsts seen rest else v :: firsts (seen ++ [v]) rest

theorem Sequence.foldOf_distinct (hvs : ∀ v ∈ vs, v.IsData) (hseen : ∀ u ∈ seen, u.IsData)
    (found : List Value) :
    foldOf (fun found v => pure (v :: found)) (vs.map pure) [.distinct access (seen.map .ofData)]
      found = pure ((firsts seen vs).reverse ++ found) := by
  induction vs generalizing seen found with
  | nil => rfl
  | cons v rest ih =>
      obtain ⟨hv, hrest⟩ := List.forall_mem_cons.1 hvs
      rw [List.map_cons, foldOf, if_neg (by simp [isSpent, Stage.isSpent]), EvalM.attempt_pure,
        pure_bind, Stage.pushAll, Stage.push, hv.toKey_eq, EvalM.attempt_pure]
      simp only [pure_bind, Stage.isSeen_eq hv hseen, firsts]
      cases hany : seen.any v.same with
      | true =>
          simp only [if_true]
          exact ih hrest hseen found
      | false =>
          have hseen' : ∀ u ∈ seen ++ [v], u.IsData := by
            simpa [or_imp, forall_and] using ⟨hseen, hv⟩
          have hnext := ih hrest hseen' (v :: found)
          rw [List.map_append, List.map_singleton] at hnext
          simp only [Bool.false_eq_true, if_false, Stage.pushAll, pure_bind, hnext]
          simp

/-- What is left of values without items if those that equal an earlier one are dropped. -/
theorem Sequence.collect_distinct (hvs : ∀ v ∈ vs, v.IsData) :
    ((ofValues vs).then_ (.distinct access [])).collect = pure (firsts [] vs) := by
  have hseen : ∀ u ∈ ([] : List Value), u.IsData := nofun
  have hfold : foldOf (fun found v => pure (v :: found)) (vs.map pure) [.distinct access []] [] =
      pure ((firsts [] vs).reverse ++ []) := foldOf_distinct hvs hseen []
  rw [collect]
  show (foldOf _ (vs.map pure) [.distinct access []] [] >>= fun found => pure found.reverse) = _
  rw [hfold, pure_bind, List.append_nil, List.reverse_reverse]

end Distinct

section Equivalence

variable {u v : Value} {vs seen : List Value}

theorem subset_of_firsts : firsts seen vs ⊆ vs := by
  induction vs generalizing seen with
  | nil => exact List.Subset.refl []
  | cons v rest ih =>
      rw [firsts]
      split
      · exact fun u hu => List.mem_cons_of_mem v (ih hu)
      · exact List.cons_subset_cons v ih

/-- Every value equals one that is left, if it does not equal one that was seen before. -/
theorem exists_first (hdata : ∀ v ∈ vs, v.IsData) (hv : v ∈ vs) :
    ∃ u ∈ seen ++ firsts seen vs, v.same u = true := by
  induction vs generalizing seen with
  | nil => cases hv
  | cons w rest ih =>
      rw [List.forall_mem_cons] at hdata
      rw [firsts]
      cases hany : seen.any w.same with
      | true =>
          simp only [if_true]
          rcases List.mem_cons.1 hv with rfl | hv
          · obtain ⟨u, hu, hsame⟩ := List.any_eq_true.1 hany
            exact ⟨u, List.mem_append_left _ hu, hsame⟩
          · exact ih hdata.2 hv
      | false =>
          simp only [Bool.false_eq_true, if_false]
          rcases List.mem_cons.1 hv with rfl | hv
          · exact ⟨v, by simp, hdata.1.same_self⟩
          · obtain ⟨u, hu, hsame⟩ := @ih (seen ++ [w]) hdata.2 hv
            rw [List.append_assoc, List.singleton_append] at hu
            exact ⟨u, hu, hsame⟩

/-- Without a clash two values equal the same of those that are left exactly if they are
equal. -/
theorem exists_first_iff (h : Value.Unclashed true vs) (hdata : ∀ v ∈ vs, v.IsData)
    {ws : List Value} (hws : ws ⊆ vs) (hu : u ∈ ws) (hv : v ∈ ws) :
    (∃ t ∈ firsts [] ws, u.same t = true ∧ v.same t = true) ↔ u.same v = true := by
  constructor
  · rintro ⟨t, ht, hut, hvt⟩
    have ht := hws (subset_of_firsts ht)
    exact (h.same_iff hdata (hws hu) (hws hv) ht hut).1 hvt
  · intro huv
    obtain ⟨t, ht, hut⟩ : ∃ t ∈ [] ++ firsts [] ws, u.same t = true :=
      exists_first (fun w hw => hdata w (hws hw)) hu
    rw [List.nil_append] at ht
    have ht' := hws (subset_of_firsts ht)
    exact ⟨t, ht, hut, (h.same_iff hdata (hws hu) (hws hv) ht' hut).2 huv⟩

end Equivalence

section Groups

variable {access : ItemAccess EvalM} {key v : Value} {groups : Groups}

/-- Puts a value into the group of those whose keys equal its key. -/
def Groups.put (key v : Value) : Groups → Groups
  | [] => [(.ofData key, [v])]
  | (other, members) :: rest =>
      if key.same other.value then (other, v :: members) :: rest
      else (other, members) :: put key v rest

theorem Groups.find?_eq (hkey : key.IsData)
    (hkeys : ∀ group ∈ groups, group.1.value.IsData ∧ group.1 = .ofData group.1.value) :
    (Value.Key.ofData key).find? access groups =
      pure (groups.findIdx? fun group => key.same group.1.value) := by
  induction groups with
  | nil => rfl
  | cons group rest ih =>
      obtain ⟨other, members⟩ := group
      obtain ⟨⟨hdata, hother⟩, hrest⟩ := List.forall_mem_cons.1 hkeys
      have hequal := hkey.key_equal_eq hdata access
      rw [← hother] at hequal
      rw [Value.Key.find?, hequal, pure_bind, ih hrest, List.findIdx?_cons]
      cases key.same other.value <;> simp

variable (key v groups) in
theorem Groups.put_eq :
    groups.put key v = match groups.findIdx? fun group => key.same group.1.value with
      | none => groups ++ [(.ofData key, [v])]
      | some position =>
          groups.modify position fun (key, members) => (key, v :: members) := by
  induction groups with
  | nil => rfl
  | cons group rest ih =>
      obtain ⟨other, members⟩ := group
      rw [put, List.findIdx?_cons]
      cases key.same other.value with
      | true => rfl
      | false =>
          simp only [Bool.false_eq_true, if_false, ih]
          cases rest.findIdx? fun group => key.same group.1.value <;> rfl

theorem Groups.add_eq (hkey : key.IsData)
    (hkeys : ∀ group ∈ groups, group.1.value.IsData ∧ group.1 = .ofData group.1.value) :
    groups.add access (.ofData key) v = pure (groups.put key v) := by
  rw [add, find?_eq hkey hkeys, pure_bind, put_eq]
  cases groups.findIdx? fun group => key.same group.1.value <;> rfl

theorem Groups.mem_put {group : Value.Key × List Value} (h : group ∈ groups.put key v) :
    group ∈ groups ∨ group = (.ofData key, [v]) ∨
      ∃ members, (group.1, members) ∈ groups ∧ key.same group.1.value = true ∧
        group.2 = v :: members := by
  induction groups with
  | nil => exact .inr (.inl (List.mem_singleton.1 h))
  | cons other rest ih =>
      obtain ⟨other, members⟩ := other
      rw [put] at h
      split at h
      next hsame =>
        rcases List.mem_cons.1 h with rfl | h
        · exact .inr (.inr ⟨members, List.mem_cons_self, hsame, rfl⟩)
        · exact .inl (List.mem_cons_of_mem _ h)
      · rcases List.mem_cons.1 h with rfl | h
        · exact .inl List.mem_cons_self
        · rcases ih h with h | h | ⟨members', h, hrest⟩
          · exact .inl (List.mem_cons_of_mem _ h)
          · exact .inr (.inl h)
          · exact .inr (.inr ⟨members', List.mem_cons_of_mem _ h, hrest⟩)

variable (groups key v) in
/-- The keys of the groups, of which there is a new one only if the key equals none of them. -/
theorem Groups.map_fst_put : (groups.put key v).map Prod.fst = groups.map Prod.fst ∨
    (groups.put key v).map Prod.fst = groups.map Prod.fst ++ [Value.Key.ofData key] ∧
      ∀ other ∈ groups.map Prod.fst, key.same other.value = false := by
  induction groups with
  | nil => exact .inr ⟨rfl, nofun⟩
  | cons group rest ih =>
      obtain ⟨other, members⟩ := group
      rw [put]
      cases hsame : key.same other.value with
      | true => exact .inl rfl
      | false =>
          simp only [Bool.false_eq_true, if_false, List.map_cons]
          rcases ih with h | ⟨h, hapart⟩
          · exact .inl (by rw [h])
          · exact .inr ⟨by rw [h, List.cons_append], List.forall_mem_cons.2 ⟨hsame, hapart⟩⟩

/-- Every member stays in its group. -/
theorem Groups.exists_mem_put {u : Value} (h : u = v ∨ ∃ group ∈ groups, u ∈ group.2) :
    ∃ group ∈ groups.put key v, u ∈ group.2 := by
  induction groups with
  | nil =>
      rcases h with rfl | ⟨_, h, -⟩
      · exact ⟨_, List.mem_cons_self, List.mem_cons_self⟩
      · cases h
  | cons group rest ih =>
      obtain ⟨other, members⟩ := group
      rw [put]
      split
      · rcases h with rfl | ⟨group, hgroup, hu⟩
        · exact ⟨_, List.mem_cons_self, List.mem_cons_self⟩
        · rcases List.mem_cons.1 hgroup with rfl | hgroup
          · exact ⟨_, List.mem_cons_self, List.mem_cons_of_mem _ hu⟩
          · exact ⟨group, List.mem_cons_of_mem _ hgroup, hu⟩
      · have hrest (h : u = v ∨ ∃ group ∈ rest, u ∈ group.2) :
            ∃ group ∈ (other, members) :: put key v rest, u ∈ group.2 := by
          obtain ⟨group, hgroup, hu⟩ := ih h
          exact ⟨group, List.mem_cons_of_mem _ hgroup, hu⟩
        rcases h with rfl | ⟨group, hgroup, hu⟩
        · exact hrest (.inl rfl)
        · rcases List.mem_cons.1 hgroup with rfl | hgroup
          · exact ⟨_, List.mem_cons_self, hu⟩
          · exact hrest (.inr ⟨group, hgroup, hu⟩)

/-- The groups hold these values, each together with those whose keys equal its key. -/
structure Groups.Gather (keyOf : Value → Value) (groups : Groups) (vs : List Value) : Prop where
  keys : ∀ group ∈ groups, group.1.value ∈ vs.map keyOf ∧ group.1 = .ofData group.1.value
  members : ∀ group ∈ groups, ∀ v ∈ group.2, v ∈ vs ∧ (keyOf v).same group.1.value = true
  apart : (groups.map Prod.fst).Pairwise fun key other => other.value.same key.value = false
  complete : ∀ v ∈ vs, ∃ group ∈ groups, v ∈ group.2

namespace Groups.Gather

variable {keyOf : Value → Value} {vs ws : List Value}

theorem nil : Gather keyOf [] [] := ⟨nofun, nofun, .nil, nofun⟩

/-- One more value that is put into its group. -/
theorem put (h : Gather keyOf groups vs) (hkey : (keyOf v).IsData) :
    Gather keyOf (groups.put (keyOf v) v) (vs ++ [v]) where
  keys group hgroup := by
    rw [List.map_append, List.map_singleton, List.mem_append, List.mem_singleton]
    rcases mem_put hgroup with hgroup | rfl | ⟨members, hgroup, -, -⟩
    · exact ⟨.inl (h.keys group hgroup).1, (h.keys group hgroup).2⟩
    · exact ⟨.inr rfl, rfl⟩
    · exact ⟨.inl (h.keys _ hgroup).1, (h.keys _ hgroup).2⟩
  members group hgroup u hu := by
    rw [List.mem_append, List.mem_singleton]
    rcases mem_put hgroup with hgroup | rfl | ⟨members, hgroup, hsame, hmembers⟩
    · obtain ⟨hmem, hsame⟩ := h.members group hgroup u hu
      exact ⟨.inl hmem, hsame⟩
    · obtain rfl := List.mem_singleton.1 hu
      exact ⟨.inr rfl, hkey.same_self⟩
    · rw [hmembers] at hu
      rcases List.mem_cons.1 hu with rfl | hu
      · exact ⟨.inr rfl, hsame⟩
      · obtain ⟨hmem, hsame⟩ := h.members _ hgroup u hu
        exact ⟨.inl hmem, hsame⟩
  apart := by
    rcases map_fst_put (keyOf v) v groups with hkeys | ⟨hkeys, hnew⟩
    · rw [hkeys]
      exact h.apart
    · rw [hkeys, List.pairwise_append]
      refine ⟨h.apart, List.pairwise_singleton _ _, fun key hkey other hother => ?_⟩
      obtain rfl := List.mem_singleton.1 hother
      exact hnew key hkey
  complete u hu := by
    refine exists_mem_put ?_
    rcases List.mem_append.1 hu with hu | hu
    · exact .inr (h.complete u hu)
    · exact .inl (List.mem_singleton.1 hu)

variable (access) in
/-- The groups that are formed of values whose keys have no items. -/
theorem exists_of_foldlM (h : Gather keyOf groups ws) (hws : ∀ w ∈ ws, (keyOf w).IsData)
    (hvs : ∀ v ∈ vs, (keyOf v).IsData) :
    ∃ groups', vs.foldlM (fun groups v => do
        Groups.add groups access (← (keyOf v).toKey access) v) groups = pure groups' ∧
      Gather keyOf groups' (ws ++ vs) := by
  induction vs generalizing groups ws with
  | nil => exact ⟨groups, rfl, by rwa [List.append_nil]⟩
  | cons v rest ih =>
      obtain ⟨hv, hrest⟩ := List.forall_mem_cons.1 hvs
      have hkeys : ∀ group ∈ groups, group.1.value.IsData ∧ group.1 = .ofData group.1.value := by
        intro group hgroup
        obtain ⟨hmem, hkey⟩ := h.keys group hgroup
        obtain ⟨w, hw, hwkey⟩ := List.mem_map.1 hmem
        exact ⟨hwkey ▸ hws w hw, hkey⟩
      have hws' : ∀ w ∈ ws ++ [v], (keyOf w).IsData := by
        simpa [or_imp, forall_and] using ⟨hws, hv⟩
      obtain ⟨groups', hfold, hgather⟩ := ih (h.put hv) hws' hrest
      refine ⟨groups', ?_, by rwa [List.append_assoc, List.singleton_append] at hgather⟩
      rw [List.foldlM_cons, hv.toKey_eq, pure_bind, add_eq hv hkeys, pure_bind, hfold]

theorem eq_of_same (h : Gather keyOf groups ws) {group other : Value.Key × List Value}
    (hgroup : group ∈ groups) (hother : other ∈ groups)
    (hsame : group.1.value.same other.1.value = true)
    (hsame' : other.1.value.same group.1.value = true) : group = other := by
  have hapart := List.pairwise_map.1 h.apart
  let One (a b : Value.Key × List Value) : Prop :=
    a.1.value.same b.1.value = true → b.1.value.same a.1.value = true → a = b
  have hone : groups.Pairwise One := hapart.imp fun hne _ h => by rw [hne] at h; cases h
  have hone' : groups.Pairwise (flip One) := hapart.imp fun hne h _ => by rw [hne] at h; cases h
  exact List.Pairwise.forall_of_forall_of_flip (fun _ _ _ _ => rfl) hone hone' hgroup hother
    hsame hsame'

/-- Without a clash among the keys two values are in one group exactly if their keys are
equal. -/
theorem exists_group_iff {keys : List Value} (h : Gather keyOf groups ws)
    (hkeys : Value.Unclashed true keys) (hdata : ∀ key ∈ keys, key.IsData)
    (hws : ∀ w ∈ ws, keyOf w ∈ keys) {u v : Value} (hu : u ∈ ws) (hv : v ∈ ws) :
    (∃ group ∈ groups, u ∈ group.2 ∧ v ∈ group.2) ↔ (keyOf u).same (keyOf v) = true := by
  have hmem {group} (hgroup : group ∈ groups) : group.1.value ∈ keys := by
    obtain ⟨w, hw, hwkey⟩ := List.mem_map.1 (h.keys group hgroup).1
    exact hwkey ▸ hws w hw
  constructor
  · rintro ⟨group, hgroup, hu', hv'⟩
    have husame := (h.members group hgroup u hu').2
    have hvsame := (h.members group hgroup v hv').2
    exact (hkeys.same_iff hdata (hws u hu) (hws v hv) (hmem hgroup) husame).1 hvsame
  · intro huv
    obtain ⟨group, hgroup, hu'⟩ := h.complete u hu
    obtain ⟨other, hother, hv'⟩ := h.complete v hv
    have husame := (h.members group hgroup u hu').2
    have hvsame := (hkeys.same_iff hdata (hws u hu) (hws v hv) (hmem hgroup) husame).2 huv
    have hvsame' := (h.members other hother v hv').2
    -- The keys of both groups equal that of the second value, so they are one group.
    have hsame : group.1.value.same other.1.value = true := by
      have hvg : group.1.value.same (keyOf v) = true :=
        ((hdata _ (hmem hgroup)).same_comm (hdata _ (hws v hv))).trans hvsame
      exact ((hdata _ (hmem hgroup)).same_trans_iff (hdata _ (hws v hv)) (hdata _ (hmem hother))
        hvg hvsame').2 (hkeys _ (hmem hgroup) _ (hws v hv) _ (hmem hother))
    have hsame' : other.1.value.same group.1.value = true :=
      ((hdata _ (hmem hother)).same_comm (hdata _ (hmem hgroup))).trans hsame
    obtain rfl := h.eq_of_same hgroup hother hsame hsame'
    exact ⟨group, hgroup, hu', hv'⟩

end Groups.Gather

end Groups

section Identification

open Value

/-- Equality and order of values without items are transitive where no three values clash, and
equality nowhere else. Without a clash the total order is a preorder, and which values are left
as the distinct ones and which of them are put into one group depends on their equality alone,
however they are ordered. -/
theorem Value.transitive_unless_clash {vs : List Value} (hdata : ∀ v ∈ vs, v.IsData) :
    (∀ a ∈ vs, ∀ b ∈ vs, ∀ c ∈ vs, a.Equals b → b.Equals c →
      (a.Equals c ↔ clash true a b c = false)) ∧
    (∀ a ∈ vs, ∀ b ∈ vs, ∀ c ∈ vs, clash false a b c = false → ∀ x y z,
      order a b = .ok x → order b c = .ok y → order a c = .ok z → x ≠ .gt → y ≠ .gt →
        z ≠ .gt ∧ (z = .eq → x = .eq ∧ y = .eq)) ∧
    (Unclashed false vs →
      (∀ a ∈ vs, ∀ b ∈ vs, totalOrder b a = (totalOrder a b).swap) ∧
      ∀ a ∈ vs, ∀ b ∈ vs, ∀ c ∈ vs, (totalOrder a b).isLE → (totalOrder b c).isLE →
        (totalOrder a c).isLE) ∧
    (Unclashed true vs → ∀ (access : ItemAccess EvalM) (ws : List Value), ws ⊆ vs →
      ∃ kept ⊆ ws, ((Sequence.ofValues ws).then_ (.distinct access [])).collect = pure kept ∧
        ∀ a ∈ ws, ∀ b ∈ ws, (∃ c ∈ kept, a.Equals c ∧ b.Equals c) ↔ a.Equals b) ∧
    (Unclashed true vs → ∀ (access : ItemAccess EvalM) (keyOf : Value → Value) (ws : List Value),
      (∀ w ∈ ws, keyOf w ∈ vs) →
      ∃ groups, (Sequence.ofValues ws).fold (fun groups w => do
          Groups.add groups access (← (keyOf w).toKey access) w) [] = pure groups ∧
        ∀ a ∈ ws, ∀ b ∈ ws,
          (∃ group ∈ groups, a ∈ group.2 ∧ b ∈ group.2) ↔ (keyOf a).Equals (keyOf b)) := by
  refine ⟨fun a ha b hb c hc => ?_, fun a _ b _ c _ h x y z => order_trans_of_clash h, ?_, ?_, ?_⟩
  · have ha := hdata a ha
    have hb := hdata b hb
    have hc := hdata c hc
    rw [ha.equals_iff hb, hb.equals_iff hc, ha.equals_iff hc]
    exact ha.same_trans_iff hb hc
  · intro h
    exact ⟨fun a _ b _ => (totalOrder_swap a b).symm,
      fun a ha b hb c hc => totalOrder_trans_of_clash (h a ha b hb c hc)⟩
  · intro h access ws hws
    have hws' : ∀ w ∈ ws, w.IsData := fun w hw => hdata w (hws hw)
    refine ⟨firsts [] ws, subset_of_firsts, Sequence.collect_distinct hws', fun a ha b hb => ?_⟩
    rw [(hws' a ha).equals_iff (hws' b hb), ← exists_first_iff h hdata hws ha hb]
    refine exists_congr fun c => and_congr_right fun hc => ?_
    have hc' := hws' c (subset_of_firsts hc)
    rw [(hws' a ha).equals_iff hc', (hws' b hb).equals_iff hc']
  · intro h access keyOf ws hws
    have hws' : ∀ w ∈ ws, (keyOf w).IsData := fun w hw => hdata _ (hws w hw)
    obtain ⟨groups, hfold, hgather⟩ := Groups.Gather.nil.exists_of_foldlM access nofun hws'
    rw [List.nil_append] at hgather
    refine ⟨groups, (Sequence.fold_ofValues _ ws []).trans hfold, fun a ha b hb => ?_⟩
    rw [(hws' a ha).equals_iff (hws' b hb), hgather.exists_group_iff h hdata hws ha hb]

/-- Whole and fractional numbers, each in every other order. -/
theorem Value.transitive_unless_clash_mixed :
    (∀ v ∈ [Value.int 1, .float 1.0, .list [.int 2, .float 2.5]], v.IsData) ∧
    Unclashed true [Value.int 1, .float 1.0, .list [.int 2, .float 2.5]] ∧
    ∀ access : ItemAccess EvalM, ∃ kept ⊆ [Value.float 1.0, .int 1],
      ((Sequence.ofValues [Value.float 1.0, .int 1]).then_ (.distinct access [])).collect =
        pure kept ∧
      ∀ a ∈ [Value.float 1.0, .int 1], ∀ b ∈ [Value.float 1.0, .int 1],
        (∃ c ∈ kept, a.Equals c ∧ b.Equals c) ↔ a.Equals b := by
  have hdata : ∀ v ∈ [Value.int 1, .float 1.0, .list [.int 2, .float 2.5]], v.IsData := by
    simp only [List.forall_mem_cons]
    refine ⟨.single rfl, .single rfl, ?_, nofun⟩
    simp only [isData_list, List.forall_mem_cons]
    exact ⟨.single rfl, .single rfl, nofun⟩
  have hclash : Unclashed true [Value.int 1, .float 1.0, .list [.int 2, .float 2.5]] := by
    unfold Unclashed
    decide
  refine ⟨hdata, hclash, fun access => ?_⟩
  exact (transitive_unless_clash hdata).2.2.2.1 hclash access _ (by simp)

/-- An integer and the integer next to it equal the same double. -/
theorem Value.equals_intransitive :
    (Value.int 9007199254740993).Equals (.float (.ofBits 0x4340000000000000)) ∧
    (Value.float (.ofBits 0x4340000000000000)).Equals (.int 9007199254740992) ∧
    ¬(Value.int 9007199254740993).Equals (.int 9007199254740992) := by
  refine ⟨?_, ?_, ?_⟩
  · rfl
  · rfl
  · nofun

end Identification

end RecordAlgebra
