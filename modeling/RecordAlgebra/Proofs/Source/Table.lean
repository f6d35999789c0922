import RecordAlgebra.Proofs.Datum.Alike
import RecordAlgebra.Proofs.Sequence.Stages

/-!
# Tables by their history

What a table holds is told by what was saved and deleted: for every key that was saved and
not deleted since, the row of the latest save, and the rows in the order in which their keys
were first saved since then. To put a row in the place of that under an equal key, or at the
end if there is none, keeps it that way.
-/

namespace RecordAlgebra

namespace Value

/-- Equality of values that have no items. -/
def same (u v : Value) : Bool := (Datum.ofValue u).equal (.ofValue v)

/-- The key that a value without items becomes. -/
def Key.ofData (v : Value) : Key where
  value := v
  digest := (Datum.ofValue v).digest

/-- What may tell records apart: values without items, among which no integer is compared with a
double. -/
structure AreKeys (keys : Value → Prop) : Prop where
  data {v : Value} : keys v → v.IsData
  unmixed {u v : Value} : keys u → keys v → (Datum.ofValue u).mixes (.ofValue v) = false

namespace AreKeys

variable {keys : Value → Prop} (h : AreKeys keys) {u v t : Value}

include h

theorem same_self (hv : keys v) : v.same v = true := (h.data hv).isItemFree.equal_self

theorem same_comm (hu : keys u) (hv : keys v) : u.same v = v.same u := by
  rw [Bool.eq_iff_iff]
  have hu' := (h.data hu).isItemFree
  have hv' := (h.data hv).isItemFree
  exact ⟨hu'.equal_symm hv', hv'.equal_symm hu'⟩

theorem same_trans (hu : keys u) (hv : keys v) (ht : keys t) (huv : u.same v = true)
    (hvt : v.same t = true) : u.same t = true :=
  (h.data hu).isItemFree.equal_trans (h.unmixed hu hv) (h.unmixed hv ht) huv hvt

/-- Equal keys are equal to the same keys. -/
theorem same_congr (hu : keys u) (hv : keys v) (ht : keys t) (huv : u.same v = true) :
    u.same t = v.same t := by
  have hvu := huv
  rw [h.same_comm hu hv] at hvu
  rw [Bool.eq_iff_iff]
  exact ⟨h.same_trans hv hu ht hvu, h.same_trans hu hv ht huv⟩

end AreKeys

end Value

namespace Source.Memory

/-- A change of a table: a row was saved under a key, or a key was deleted. -/
inductive Change where
  | saved (key : Value) (row : Row)
  | deleted (key : Value)

def Change.key : Change → Value
  | .saved key _ | .deleted key => key

/-- The latest save of the key since it was last deleted. The latest changes come first. -/
def latest? (key : Value) : List Change → Option (Value × Row)
  | [] => none
  | .saved other row :: earlier => if key.same other then some (other, row) else latest? key earlier
  | .deleted other :: earlier => if key.same other then none else latest? key earlier

/-- How many changes came before the first save of the key since it was last deleted. -/
def opened? (key : Value) : List Change → Option Nat
  | [] => none
  | .saved other _ :: earlier =>
      if key.same other then some ((opened? key earlier).getD earlier.length)
      else opened? key earlier
  | .deleted other :: earlier => if key.same other then none else opened? key earlier

section History

variable {history : List Change} {key : Value} {n : Nat}

theorem opened?_eq_none_iff : opened? key history = none ↔ latest? key history = none := by
  induction history with
  | nil => simp [opened?, latest?]
  | cons change earlier ih =>
      cases change with
      | saved other row => cases h : key.same other <;> simp [opened?, latest?, h, ih]
      | deleted other => cases h : key.same other <;> simp [opened?, latest?, h, ih]

theorem lt_of_opened? (h : opened? key history = some n) : n < history.length := by
  induction history generalizing n with
  | nil => cases h
  | cons change earlier ih =>
      rw [List.length_cons]
      cases change with
      | saved other row =>
          rw [opened?] at h
          split at h
          · cases hearlier : opened? key earlier with
            | none =>
                rw [hearlier] at h
                cases h
                exact Nat.lt_succ_self _
            | some m =>
                rw [hearlier] at h
                cases h
                exact Nat.lt_succ_of_lt (ih hearlier)
          · exact Nat.lt_succ_of_lt (ih h)
      | deleted other =>
          rw [opened?] at h
          split at h
          · cases h
          · exact Nat.lt_succ_of_lt (ih h)

theorem opened?_saved (h : opened? key history = some n) (other : Value) (row : Row) :
    opened? key (.saved other row :: history) = some n := by
  rw [opened?, h]
  split
  · rfl
  · rfl

/-- The latest save of a key used an equal key. -/
theorem mem_of_latest? {save : Value × Row} (h : latest? key history = some save) :
    .saved save.1 save.2 ∈ history ∧ key.same save.1 = true := by
  induction history with
  | nil => cases h
  | cons change earlier ih =>
      cases change with
      | saved other row =>
          rw [latest?] at h
          split at h
          next hsame =>
            cases h
            exact ⟨List.mem_cons_self, hsame⟩
          next => exact (ih h).imp (List.mem_cons_of_mem _) id
      | deleted other =>
          rw [latest?] at h
          split at h
          · cases h
          · exact (ih h).imp (List.mem_cons_of_mem _) id

end History

/-- The rows with this row in the place of that under an equal key, or at the end if there is
none. -/
def place (key : Value.Key) (row : Row) : List (Value.Key × Row) → List (Value.Key × Row)
  | [] => [(key, row)]
  | entry :: rest =>
      if key.value.same entry.1.value then (entry.1, row) :: rest else entry :: place key row rest

/-- The rows without that under an equal key. -/
def without (key : Value) : List (Value.Key × Row) → List (Value.Key × Row)
  | [] => []
  | entry :: rest => if key.same entry.1.value then rest else entry :: without key rest

section Places

variable {keys : Value → Prop} {key : Value.Key} {k : Value} {row : Row}
  {entries : List (Value.Key × Row)} {i : Nat}

theorem place_of_findIdx?_eq_some (key : Value.Key)
    (h : (entries.findIdx? fun entry => key.value.same entry.1.value) = some i) :
    place key row entries = entries.modify i fun (key, _) => (key, row) := by
  induction entries generalizing i with
  | nil => cases h
  | cons entry rest ih =>
      rw [List.findIdx?_cons] at h
      rw [place]
      split at h
      next hsame =>
        cases h
        rw [if_pos hsame]
        rfl
      next hsame =>
        obtain ⟨j, hj, rfl⟩ := Option.map_eq_some_iff.1 h
        rw [if_neg hsame, ih hj, List.modify_succ_cons]

theorem place_of_findIdx?_eq_none (key : Value.Key)
    (h : (entries.findIdx? fun entry => key.value.same entry.1.value) = none) :
    place key row entries = entries ++ [(key, row)] := by
  induction entries with
  | nil => rfl
  | cons entry rest ih =>
      rw [List.findIdx?_cons] at h
      rw [place]
      split at h
      next => cases h
      next hsame => rw [if_neg hsame, ih (Option.map_eq_none_iff.1 h), List.cons_append]

theorem eraseIdx_of_findIdx? (h : (entries.findIdx? fun entry => k.same entry.1.value) = some i) :
    entries.eraseIdx i = without k entries := by
  induction entries generalizing i with
  | nil => cases h
  | cons entry rest ih =>
      rw [List.findIdx?_cons] at h
      rw [without]
      split at h
      next hsame =>
        cases h
        rw [if_pos hsame]
        rfl
      next hsame =>
        obtain ⟨j, hj, rfl⟩ := Option.map_eq_some_iff.1 h
        rw [if_neg hsame, ← ih hj, List.eraseIdx_cons_succ]

theorem without_of_findIdx?_eq_none
    (h : (entries.findIdx? fun entry => k.same entry.1.value) = none) : without k entries = entries := by
  induction entries with
  | nil => rfl
  | cons entry rest ih =>
      rw [List.findIdx?_cons] at h
      rw [without]
      split at h
      next => cases h
      next hsame => rw [if_neg hsame, ih (Option.map_eq_none_iff.1 h)]

theorem without_sublist (k : Value) (entries : List (Value.Key × Row)) :
    (without k entries).Sublist entries := by
  induction entries with
  | nil => exact .slnil
  | cons entry rest ih =>
      rw [without]
      split
      · exact List.sublist_cons_self entry rest
      · exact ih.cons_cons entry

theorem mem_place {entry : Value.Key × Row} (h : entry ∈ place key row entries) :
    entry ∈ entries ∨ entry.2 = row := by
  induction entries with
  | nil =>
      cases List.mem_singleton.1 h
      exact .inr rfl
  | cons first rest ih =>
      rw [place] at h
      split at h
      · rcases List.mem_cons.1 h with rfl | hrest
        · exact .inr rfl
        · exact .inl (List.mem_cons_of_mem _ hrest)
      · rcases List.mem_cons.1 h with rfl | hrest
        · exact .inl List.mem_cons_self
        · exact (ih hrest).imp (List.mem_cons_of_mem _) id

/-- To put a row in its place changes no key, unless there was none like it. -/
theorem keys_place (key : Value.Key) (row : Row) (entries : List (Value.Key × Row)) :
    (place key row entries).map Prod.fst = entries.map Prod.fst ∨
      (∀ entry ∈ entries, key.value.same entry.1.value = false) ∧
        place key row entries = entries ++ [(key, row)] := by
  cases h : entries.findIdx? fun entry => key.value.same entry.1.value with
  | some i =>
      left
      rw [place_of_findIdx?_eq_some _ h]
      refine List.ext_getElem? fun j => ?_
      rw [List.getElem?_map, List.getElem?_map, List.getElem?_modify]
      cases entries[j]? with
      | none => rfl
      | some entry => by_cases hij : i = j <;> simp [hij]
  | none =>
      right
      exact ⟨List.findIdx?_eq_none_iff.1 h, place_of_findIdx?_eq_none _ h⟩

/-- A relation between the keys, in their order, has to be checked only for a key that is new. -/
theorem pairwise_place {R : Value → Value → Prop}
    (h : entries.Pairwise fun a b => R a.1.value b.1.value)
    (hnew : (∀ entry ∈ entries, key.value.same entry.1.value = false) →
      ∀ entry ∈ entries, R entry.1.value key.value) :
    (place key row entries).Pairwise fun a b => R a.1.value b.1.value := by
  rcases keys_place key row entries with hsame | ⟨hnone, hplace⟩
  · have hentries : (entries.map Prod.fst).Pairwise fun a b => R a.value b.value :=
      List.pairwise_map.2 h
    rw [← hsame, List.pairwise_map] at hentries
    exact hentries
  · rw [hplace, List.pairwise_append]
    refine ⟨h, List.pairwise_singleton _ _, fun entry hentry other hother => ?_⟩
    cases List.mem_singleton.1 hother
    exact hnew hnone entry hentry

variable (hkeys : Value.AreKeys keys) (hk : keys k) (hkey : keys key.value)
  (hentries : ∀ entry ∈ entries, keys entry.1.value)

include hkeys hk hkey hentries

/-- What is found after a row was put in its place. -/
theorem find?_place : ((place key row entries).find? fun entry => k.same entry.1.value).map Prod.snd =
    if k.same key.value then some row
    else (entries.find? fun entry => k.same entry.1.value).map Prod.snd := by
  induction entries with
  | nil => cases h : k.same key.value <;> simp [place, h]
  | cons entry rest ih =>
      obtain ⟨hentry, hrest⟩ := List.forall_mem_cons.1 hentries
      rw [place]
      split
      next hsame =>
        have hcongr : k.same key.value = k.same entry.1.value := by
          rw [hkeys.same_comm hk hkey, hkeys.same_comm hk hentry,
            hkeys.same_congr hkey hentry hk hsame]
        cases h : k.same entry.1.value <;> simp [h, hcongr]
      next hsame =>
        cases h : k.same entry.1.value with
        | false => simpa [h] using ih hrest
        | true =>
            have hnot : k.same key.value = false := by
              rw [hkeys.same_congr hk hentry hkey h, hkeys.same_comm hentry hkey]
              simpa using hsame
            simp [h, hnot]

/-- What is found after the row under a key was removed. -/
theorem find?_without (hdistinct : entries.Pairwise fun a b => a.1.value.same b.1.value = false) :
    (without key.value entries).find? (fun entry => k.same entry.1.value) =
      if k.same key.value then none else entries.find? fun entry => k.same entry.1.value := by
  induction entries with
  | nil => simp [without]
  | cons entry rest ih =>
      obtain ⟨hentry, hrest⟩ := List.forall_mem_cons.1 hentries
      obtain ⟨hfirst, hdistinct⟩ := List.pairwise_cons.1 hdistinct
      rw [without]
      split
      next hsame =>
        have hcongr : k.same key.value = k.same entry.1.value := by
          rw [hkeys.same_comm hk hkey, hkeys.same_comm hk hentry,
            hkeys.same_congr hkey hentry hk hsame]
        cases h : k.same entry.1.value with
        | false => simp [h, hcongr]
        | true =>
            rw [hcongr, h, if_pos rfl]
            refine List.find?_eq_none.2 fun other hother => ?_
            rw [hkeys.same_congr hk hentry (hrest other hother) h, hfirst other hother]
            exact Bool.false_ne_true
      next hsame =>
        cases h : k.same entry.1.value with
        | false => simpa [h] using ih hrest hdistinct
        | true =>
            have hnot : k.same key.value = false := by
              rw [hkeys.same_congr hk hentry hkey h, hkeys.same_comm hentry hkey]
              simpa using hsame
            simp [h, hnot]

omit hkeys hk hkey hentries in
/-- No row that is left has the key that was removed. -/
theorem not_same_of_mem_without (hkeys : Value.AreKeys keys) (hk : keys k)
    (hentries : ∀ entry ∈ entries, keys entry.1.value)
    (hdistinct : entries.Pairwise fun a b => a.1.value.same b.1.value = false)
    {entry : Value.Key × Row} (h : entry ∈ without k entries) : k.same entry.1.value = false := by
  induction entries with
  | nil => cases h
  | cons first rest ih =>
      obtain ⟨hfirst, hrest⟩ := List.forall_mem_cons.1 hentries
      obtain ⟨hothers, hdistinct⟩ := List.pairwise_cons.1 hdistinct
      rw [without] at h
      split at h
      next hsame =>
        rw [hkeys.same_congr hk hfirst (hrest entry h) hsame]
        exact hothers entry h
      next hsame =>
        rcases List.mem_cons.1 h with rfl | hmem
        · simpa using hsame
        · exact ih hrest hdistinct hmem

end Places

/-- The rows are those that this history of a table leads to: one for every key that was saved and
not deleted since, in the order of their first saves. -/
structure Lists (keys : Value → Prop) (history : List Change) (entries : List (Value.Key × Row)) :
    Prop where
  keyed : ∀ entry ∈ entries, keys entry.1.value ∧ entry.1 = .ofData entry.1.value
  distinct : entries.Pairwise fun a b => a.1.value.same b.1.value = false
  found : ∀ key, keys key → (entries.find? fun entry => key.same entry.1.value).map Prod.snd =
    (latest? key history).map Prod.snd
  ordered : entries.Pairwise fun a b => ∃ m n, opened? a.1.value history = some m ∧
    opened? b.1.value history = some n ∧ m < n

namespace Lists

variable {keys : Value → Prop} {history : List Change} {entries : List (Value.Key × Row)}
  {key : Value.Key} {row : Row}

theorem nil (keys : Value → Prop) : Lists keys [] [] where
  keyed := nofun
  distinct := .nil
  found _ _ := rfl
  ordered := .nil

theorem mem_keys (h : Lists keys history entries) : ∀ entry ∈ entries, keys entry.1.value :=
  fun entry hentry => (h.keyed entry hentry).1

theorem opened?_of_mem (hkeys : Value.AreKeys keys) (h : Lists keys history entries)
    {entry : Value.Key × Row} (hentry : entry ∈ entries) :
    ∃ n, opened? entry.1.value history = some n := by
  have hkey := h.mem_keys entry hentry
  have hfound := h.found _ hkey
  rw [← Option.ne_none_iff_exists', Ne, opened?_eq_none_iff]
  intro hnone
  rw [hnone, Option.map_none, Option.map_eq_none_iff] at hfound
  exact List.find?_eq_none.1 hfound entry hentry (hkeys.same_self hkey)

theorem saved (hkeys : Value.AreKeys keys) (h : Lists keys history entries) (key : Value.Key)
    (hkey : keys key.value)
    (hdata : key = .ofData key.value) (row : Row) :
    Lists keys (.saved key.value row :: history) (place key row entries) where
  keyed entry hentry := by
    have hmem := List.mem_map_of_mem (f := Prod.fst) hentry
    rcases keys_place key row entries with hsame | ⟨-, hplace⟩
    · rw [hsame] at hmem
      obtain ⟨old, hold, hkey⟩ := List.mem_map.1 hmem
      rw [← hkey]
      exact h.keyed old hold
    · rw [hplace, List.mem_append, List.mem_singleton] at hentry
      rcases hentry with hold | rfl
      · exact h.keyed entry hold
      · exact ⟨hkey, hdata⟩
  found k hk := by
    rw [find?_place hkeys hk hkey h.mem_keys, h.found k hk, latest?]
    split <;> rfl
  distinct := by
    refine pairwise_place (R := fun a b => a.same b = false) h.distinct fun hnone entry hentry => ?_
    rw [hkeys.same_comm (h.mem_keys entry hentry) hkey]
    exact hnone entry hentry
  ordered := by
    refine pairwise_place (R := fun a b => ∃ m n, opened? a (.saved key.value row :: history) = some m ∧
      opened? b (.saved key.value row :: history) = some n ∧ m < n) ?_ fun hnone entry hentry => ?_
    · refine h.ordered.imp ?_
      rintro a b ⟨m, n, hm, hn, hlt⟩
      exact ⟨m, n, opened?_saved hm key.value row, opened?_saved hn key.value row, hlt⟩
    · obtain ⟨m, hm⟩ := h.opened?_of_mem hkeys hentry
      have hfresh : opened? key.value history = none := by
        have hfound := h.found _ hkey
        rw [List.find?_eq_none.2 fun entry hentry => by simp [hnone entry hentry]] at hfound
        exact opened?_eq_none_iff.2 (Option.map_eq_none_iff.1 hfound.symm)
      refine ⟨m, history.length, opened?_saved hm key.value row, ?_, lt_of_opened? hm⟩
      rw [opened?, if_pos (hkeys.same_self hkey), hfresh]
      rfl

theorem deleted (hkeys : Value.AreKeys keys) (h : Lists keys history entries) (key : Value.Key)
    (hkey : keys key.value) :
    Lists keys (.deleted key.value :: history) (without key.value entries) where
  keyed entry hentry := h.keyed entry ((without_sublist key.value entries).subset hentry)
  found k hk := by
    rw [find?_without hkeys hk hkey h.mem_keys h.distinct, latest?]
    split
    · rfl
    · exact h.found k hk
  distinct := h.distinct.sublist (without_sublist key.value entries)
  ordered := by
    have hleft : ∀ entry ∈ without key.value entries,
        opened? entry.1.value (.deleted key.value :: history) = opened? entry.1.value history := by
      intro entry hentry
      have hkey' := h.mem_keys entry ((without_sublist _ _).subset hentry)
      have hnot := not_same_of_mem_without hkeys hkey h.mem_keys h.distinct hentry
      rw [opened?, hkeys.same_comm hkey' hkey, hnot]
      rfl
    refine (h.ordered.sublist (without_sublist key.value entries)).imp_of_mem ?_
    rintro a b ha hb ⟨m, n, hm, hn, hlt⟩
    exact ⟨m, n, (hleft a ha).trans hm, (hleft b hb).trans hn, hlt⟩

end Lists

end Source.Memory

end RecordAlgebra
