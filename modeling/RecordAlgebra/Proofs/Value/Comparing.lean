import Mathlib.Data.Finset.Card
import Mathlib.Data.List.Chain
import Mathlib.Data.List.Nodup
import RecordAlgebra.Proofs.Value.Order

/-!
# Sorting by comparisons that may fail

A sorting algorithm is a tree of questions about pairs of positions. If some pairs have no order,
an algorithm may happen not to ask about them. But it has to ask about any two neighbours in the
result, or else it could not know which of them comes first: there is a ranking that agrees with
all pairs that have an order and exchanges the two. So whether an algorithm meets a pair without
order does not depend on the algorithm, as long as it sorts every ranking stably.
-/

namespace RecordAlgebra

/-- Something that is found out by comparing positions. -/
inductive Comparing (α : Type) where
  | done (a : α)
  | ask (i j : Nat) (next : Ordering → Comparing α)

namespace Comparing

variable {α β : Type}

def bind : Comparing α → (α → Comparing β) → Comparing β
  | .done a, f => f a
  | .ask i j next, f => .ask i j fun o => bind (next o) f

instance : Monad Comparing where
  pure := .done
  bind := bind

/-- The first pair without order ends it. -/
def run (cmp : Nat → Nat → Except Error Ordering) : Comparing α → Except Error α
  | .done a => .ok a
  | .ask i j next => do run cmp (next (← cmp i j))

/-- A pair without order is taken to be equal, and the first error is told in the end. -/
def finish (cmp : Nat → Nat → Except Error Ordering) (seen : Option Error) :
    Comparing α → Except Error α
  | .done a =>
      match seen with
      | none => .ok a
      | some e => .error e
  | .ask i j next =>
      match cmp i j with
      | .ok o => finish cmp seen (next o)
      | .error e => finish cmp (seen.or (some e)) (next .eq)

/-- What is found if positions are compared by their ranks. -/
def rankedBy (rank : Nat → Nat) : Comparing α → α
  | .done a => a
  | .ask i j next => rankedBy rank (next (Ord.compare (rank i) (rank j)))

/-- Only different positions of so many are compared, and whatever is found has the property. -/
inductive Asks (n : Nat) (P : α → Prop) : Comparing α → Prop
  | done {a : α} (h : P a) : Asks n P (.done a)
  | ask {i j : Nat} {next : Ordering → Comparing α} (hi : i < n) (hj : j < n) (hne : i ≠ j)
      (hnext : ∀ o, Asks n P (next o)) : Asks n P (.ask i j next)

theorem finish_some (cmp : Nat → Nat → Except Error Ordering) (e : Error) (m : Comparing α) :
    m.finish cmp (some e) = .error e := by
  induction m with
  | done a => rfl
  | ask i j next ih =>
      rw [finish]
      cases cmp i j with
      | ok o => exact ih o
      | error e' => exact ih .eq

/-- Going on after a pair without order makes no difference. -/
theorem finish_none (cmp : Nat → Nat → Except Error Ordering) (m : Comparing α) :
    m.finish cmp none = m.run cmp := by
  induction m with
  | done a => rfl
  | ask i j next ih =>
      rw [finish, run]
      cases cmp i j with
      | ok o => exact ih o
      | error e => exact finish_some cmp e (next .eq)

theorem run_bind (cmp : Nat → Nat → Except Error Ordering) (m : Comparing α)
    (f : α → Comparing β) : (m >>= f).run cmp = m.run cmp >>= fun a => (f a).run cmp := by
  induction m with
  | done a => rfl
  | ask i j next ih =>
      show (cmp i j >>= fun o => (next o >>= f).run cmp) = _
      rw [run, bind_assoc]
      exact bind_congr ih

theorem rankedBy_bind (rank : Nat → Nat) (m : Comparing α) (f : α → Comparing β) :
    (m >>= f).rankedBy rank = (f (m.rankedBy rank)).rankedBy rank := by
  induction m with
  | done a => rfl
  | ask i j next ih => exact ih _

theorem Asks.bind {n : Nat} {P : α → Prop} {Q : β → Prop} {m : Comparing α}
    {f : α → Comparing β} (h : m.Asks n P) (hf : ∀ a, P a → (f a).Asks n Q) :
    (m >>= f).Asks n Q := by
  induction h with
  | done h => exact hf _ h
  | ask hi hj hne _ ih => exact .ask hi hj hne ih

end Comparing

/-- A position comes before another one if its rank is less, or if the ranks are equal and it is
less itself. -/
def RankedBefore (rank : Nat → Nat) (i j : Nat) : Prop := rank i < rank j ∨ rank i = rank j ∧ i < j

/-- So many positions in the order of their ranks, equal ones as they were. -/
structure InRankOrder (n : Nat) (rank : Nat → Nat) (order : List Nat) : Prop where
  perm : order.Perm (List.range n)
  pairwise : order.Pairwise (RankedBefore rank)

/-- The algorithm sorts any number of positions stably, whatever their ranks are. -/
structure SortsStably (algorithm : Nat → Comparing (List Nat)) : Prop where
  asks (n : Nat) : (algorithm n).Asks n fun _ => True
  sorts (n : Nat) (rank : Nat → Nat) : InRankOrder n rank ((algorithm n).rankedBy rank)

namespace InRankOrder

variable {n k l : Nat} {rank : Nat → Nat} {order : List Nat} (h : InRankOrder n rank order)

include h

theorem getElem_lt (hk : k < order.length) : order[k] < n :=
  List.mem_range.1 (h.perm.subset (List.getElem_mem hk))

theorem exists_getElem {i : Nat} (hi : i < n) : ∃ (k : Nat) (hk : k < order.length), order[k] = i :=
  List.getElem_of_mem (h.perm.symm.subset (List.mem_range.2 hi))

theorem getElem_ne (hk : k < order.length) (hl : l < order.length) (hkl : k ≠ l) :
    order[k] ≠ order[l] := fun heq =>
  hkl ((h.perm.nodup_iff.2 List.nodup_range).getElem_inj_iff.1 heq)

theorem before (hk : k < order.length) (hl : l < order.length) (hkl : k < l) :
    RankedBefore rank order[k] order[l] :=
  List.pairwise_iff_getElem.1 h.pairwise k l hk hl hkl

theorem rank_le (hk : k < order.length) (hl : l < order.length) (hkl : k ≤ l) :
    rank order[k] ≤ rank order[l] := by
  rcases Nat.lt_or_eq_of_le hkl with hkl | rfl
  · exact (h.before hk hl hkl).elim Nat.le_of_lt fun heq => heq.1.le
  · exact Nat.le_refl _

end InRankOrder

/-- Whether two positions have an order. -/
def Compares (cmp : Nat → Nat → Except Error Ordering) (i j : Nat) : Prop := ∃ o, cmp i j = .ok o

/-- Comparisons of so many positions that are part of a total order. Where they are in a chain,
comparable ones are, too. -/
structure Partly (n : Nat) (cmp : Nat → Nat → Except Error Ordering)
    (total : Nat → Nat → Ordering) : Prop where
  agrees {i j : Nat} {o : Ordering} (h : cmp i j = .ok o) : total i j = o
  swap (i j : Nat) : (total i j).swap = total j i
  symm {i j : Nat} (h : Compares cmp i j) : Compares cmp j i
  chain {i j k : Nat} (hi : i < n) (hj : j < n) (hk : k < n) :
    Chain (total i j) (total j k) (total i k) (Compares cmp i j) (Compares cmp j k)
      (Compares cmp i k)

/-- A ranking that agrees with the comparisons wherever they do not fail. -/
def Agreeing (n : Nat) (cmp : Nat → Nat → Except Error Ordering) (rank : Nat → Nat) : Prop :=
  ∀ i j o, i < n → j < n → i ≠ j → cmp i j = .ok o → Ord.compare (rank i) (rank j) = o

namespace Comparing

variable {α : Type} {n : Nat} {cmp : Nat → Nat → Except Error Ordering} {rank : Nat → Nat}
  {m : Comparing α} {P : α → Prop}

/-- Without a pair that has no order the ranks decide. -/
theorem run_of_comparable (hagreeing : Agreeing n cmp rank)
    (hall : ∀ i j, i < n → j < n → i ≠ j → Compares cmp i j) (h : m.Asks n P) :
    m.run cmp = .ok (m.rankedBy rank) := by
  induction h with
  | done a => rfl
  | @ask i j next hi hj hne _ ih =>
      obtain ⟨o, ho⟩ := hall i j hi hj hne
      rw [run, ho, rankedBy, hagreeing i j o hi hj hne ho]
      exact ih o

/-- What was found without an error is what any agreeing ranking finds. -/
theorem rankedBy_of_run (hagreeing : Agreeing n cmp rank) (h : m.Asks n P) {a : α}
    (hrun : m.run cmp = .ok a) : m.rankedBy rank = a := by
  induction h with
  | done _ => exact Except.ok.inj hrun
  | @ask i j next hi hj hne _ ih =>
      rw [run] at hrun
      cases ho : cmp i j with
      | error e =>
          rw [ho] at hrun
          cases hrun
      | ok o =>
          rw [ho] at hrun
          rw [rankedBy, hagreeing i j o hi hj hne ho]
          exact ih o hrun

/-- An error is that of a pair without order. -/
theorem exists_of_run_error {e : Error} (h : m.run cmp = .error e) : ∃ i j, cmp i j = .error e := by
  induction m with
  | done a => cases h
  | ask i j next ih =>
      rw [run] at h
      cases ho : cmp i j with
      | error e' =>
          rw [ho] at h
          cases h
          exact ⟨i, j, ho⟩
      | ok o =>
          rw [ho] at h
          exact ih o h

end Comparing

namespace Partly

variable {n : Nat} {cmp : Nat → Nat → Except Error Ordering} {total : Nat → Nat → Ordering}
  (h : Partly n cmp total) {i j k : Nat}

/-- How many positions are less. -/
def rankOf (n : Nat) (total : Nat → Nat → Ordering) (i : Nat) : Nat :=
  ((Finset.range n).filter fun k => total k i = .lt).card

include h

theorem total_self (i : Nat) : total i i = .eq := by
  have hswap := h.swap i i
  cases heq : total i i with
  | eq => rfl
  | lt | gt => rw [heq] at hswap; cases hswap

theorem rankOf_lt (hi : i < n) (hj : j < n) (hlt : total i j = .lt) :
    rankOf n total i < rankOf n total j := by
  refine Finset.card_lt_card (Finset.ssubset_iff_of_subset ?_ |>.2 ⟨i, ?_, ?_⟩)
  · intro k hk
    simp only [Finset.mem_filter, Finset.mem_range] at hk ⊢
    refine ⟨hk.1, ?_⟩
    rw [(h.chain hk.1 hi hj).through (by rw [hk.2]; rfl) (by rw [hlt]; rfl), hk.2]
    rfl
  · simp [hi, hlt]
  · simp [h.total_self]

theorem rankOf_le (hi : i < n) (hj : j < n) (hle : (total i j).isLE) :
    rankOf n total i ≤ rankOf n total j := by
  refine Finset.card_le_card fun k hk => ?_
  simp only [Finset.mem_filter, Finset.mem_range] at hk ⊢
  refine ⟨hk.1, ?_⟩
  rw [(h.chain hk.1 hi hj).through (by rw [hk.2]; rfl) hle, hk.2]
  rfl

theorem compare_rankOf (hi : i < n) (hj : j < n) :
    Ord.compare (rankOf n total i) (rankOf n total j) = total i j := by
  have hswap := h.swap i j
  cases hij : total i j with
  | lt => exact Nat.compare_eq_lt.2 (h.rankOf_lt hi hj hij)
  | gt =>
      rw [hij] at hswap
      exact Nat.compare_eq_gt.2 (h.rankOf_lt hj hi hswap.symm)
  | eq =>
      rw [hij] at hswap
      refine Nat.compare_eq_eq.2 (le_antisymm (h.rankOf_le hi hj ?_) (h.rankOf_le hj hi ?_))
      · rw [hij]; rfl
      · rw [← hswap]; rfl

theorem agreeing_rankOf : Agreeing n cmp (rankOf n total) := by
  intro i j o hi hj _ ho
  rw [h.compare_rankOf hi hj]
  exact h.agrees ho

theorem comparable_trans (hi : i < n) (hj : j < n) (hk : k < n)
    (hij : rankOf n total i ≤ rankOf n total j) (hjk : rankOf n total j ≤ rankOf n total k)
    (hcmp : Compares cmp i j) (hcmp' : Compares cmp j k) : Compares cmp i k := by
  refine (h.chain hi hj hk).comparable ?_ ?_ hcmp hcmp'
  · rw [← h.compare_rankOf hi hj]
    exact Nat.isLE_compare.2 hij
  · rw [← h.compare_rankOf hj hk]
    exact Nat.isLE_compare.2 hjk

omit h in
/-- The position ranks as this one does and can be compared with it. -/
def Beside (n : Nat) (cmp : Nat → Nat → Except Error Ordering) (total : Nat → Nat → Ordering)
    (k a : Nat) : Prop :=
  rankOf n total a = rankOf n total k ∧ (a = k ∨ Compares cmp a k)

open Classical in
omit h in
/-- A ranking in which what is beside the second position comes right before what is beside the
first one. -/
noncomputable def exchanged (n : Nat) (cmp : Nat → Nat → Except Error Ordering)
    (total : Nat → Nat → Ordering) (i j a : Nat) : Nat :=
  if Beside n cmp total j a then 4 * rankOf n total i + 1
  else if Beside n cmp total i a then 4 * rankOf n total i + 2
  else 4 * rankOf n total a

theorem beside_of_compares {a b : Nat} (hk : k < n) (ha : a < n) (hb : b < n)
    (hka : Beside n cmp total k a) (hrank : rankOf n total a = rankOf n total b)
    (hab : Compares cmp a b) : Beside n cmp total k b := by
  refine ⟨hrank.symm.trans hka.1, .inr ?_⟩
  rcases hka.2 with rfl | hcmp
  · exact h.symm hab
  · exact h.comparable_trans hb ha hk hrank.symm.le hka.1.le (h.symm hab) hcmp

section Exchange

variable (hi : i < n) (hj : j < n) (hij : rankOf n total i ≤ rankOf n total j)
  (hnot : ¬Compares cmp i j)

include hi hj hij hnot

/-- Otherwise the two positions themselves could be compared. -/
theorem not_comparable_of_beside {a b : Nat} (ha : a < n) (hb : b < n)
    (hia : Beside n cmp total i a) (hjb : Beside n cmp total j b) : ¬Compares cmp a b := by
  intro hab
  have hib : Compares cmp i b := by
    rcases hia.2 with rfl | hcmp
    · exact hab
    · exact h.comparable_trans hi ha hb hia.1.ge (by rw [hia.1, hjb.1]; exact hij)
        (h.symm hcmp) hab
  rcases hjb.2 with rfl | hcmp
  · exact hnot hib
  · exact hnot (h.comparable_trans hi hb hj (hjb.1 ▸ hij) hjb.1.le hib hcmp)

theorem exchanged_lt_iff
    (hgap : ∀ a, a < n →
      rankOf n total a ≤ rankOf n total i ∨ rankOf n total j ≤ rankOf n total a)
    {a b : Nat} (ha : a < n) (hb : b < n) (hab : Compares cmp a b) :
    exchanged n cmp total i j a < exchanged n cmp total i j b ↔
      rankOf n total a < rankOf n total b := by
  have hba := h.symm hab
  have hgapA := hgap a ha
  have hgapB := hgap b hb
  unfold exchanged
  by_cases hja : Beside n cmp total j a
  · rw [if_pos hja]
    have hrankA := hja.1
    by_cases hjb : Beside n cmp total j b
    · have hrankB := hjb.1
      rw [if_pos hjb]
      omega
    · have hne : rankOf n total a ≠ rankOf n total b := fun heq =>
        hjb (h.beside_of_compares hj ha hb hja heq hab)
      have hib : ¬Beside n cmp total i b := fun hib =>
        h.not_comparable_of_beside hi hj hij hnot hb ha hib hja hba
      rw [if_neg hjb, if_neg hib]
      omega
  · rw [if_neg hja]
    by_cases hjb : Beside n cmp total j b
    · have hne : rankOf n total a ≠ rankOf n total b := fun heq =>
        hja (h.beside_of_compares hj hb ha hjb heq.symm hba)
      have hrankB := hjb.1
      have hia : ¬Beside n cmp total i a := fun hia =>
        h.not_comparable_of_beside hi hj hij hnot ha hb hia hjb hab
      rw [if_pos hjb, if_neg hia]
      omega
    · rw [if_neg hjb]
      by_cases hia : Beside n cmp total i a
      · have hrankA := hia.1
        rw [if_pos hia]
        by_cases hib : Beside n cmp total i b
        · have hrankB := hib.1
          rw [if_pos hib]
          omega
        · have hne : rankOf n total a ≠ rankOf n total b := fun heq =>
            hib (h.beside_of_compares hi ha hb hia heq hab)
          rw [if_neg hib]
          omega
      · rw [if_neg hia]
        by_cases hib : Beside n cmp total i b
        · have hne : rankOf n total a ≠ rankOf n total b := fun heq =>
            hia (h.beside_of_compares hi hb ha hib heq.symm hba)
          have hrankB := hib.1
          rw [if_pos hib]
          omega
        · rw [if_neg hib]
          omega

theorem agreeing_exchanged
    (hgap : ∀ a, a < n →
      rankOf n total a ≤ rankOf n total i ∨ rankOf n total j ≤ rankOf n total a) :
    Agreeing n cmp (exchanged n cmp total i j) := by
  intro a b o ha hb hne ho
  have hlt := h.exchanged_lt_iff hi hj hij hnot hgap ha hb ⟨o, ho⟩
  have hgt := h.exchanged_lt_iff hi hj hij hnot hgap hb ha (h.symm ⟨o, ho⟩)
  rw [← h.agreeing_rankOf a b o ha hb hne ho]
  rcases Nat.lt_trichotomy (rankOf n total a) (rankOf n total b) with hrank | hrank | hrank
  · rw [Nat.compare_eq_lt.2 hrank, Nat.compare_eq_lt.2 (hlt.2 hrank)]
  · rw [Nat.compare_eq_eq.2 hrank]
    exact Nat.compare_eq_eq.2 (by omega)
  · rw [Nat.compare_eq_gt.2 hrank, Nat.compare_eq_gt.2 (hgt.2 hrank)]

omit h hi in
theorem exchanged_not_before (hne : i ≠ j) :
    ¬RankedBefore (exchanged n cmp total i j) i j := by
  have hi' : ¬Beside n cmp total j i := by
    rintro ⟨-, rfl | hcmp⟩
    · exact hne rfl
    · exact hnot hcmp
  have hj' : exchanged n cmp total i j j = 4 * rankOf n total i + 1 :=
    if_pos ⟨rfl, .inl rfl⟩
  have hi'' : exchanged n cmp total i j i = 4 * rankOf n total i + 2 := by
    rw [exchanged, if_neg hi', if_pos ⟨rfl, .inl rfl⟩]
  rw [RankedBefore, hi'', hj']
  omega

end Exchange

variable {algorithm : Nat → Comparing (List Nat)} (stable : SortsStably algorithm)

include stable

/-- If all pairs have an order, the positions are sorted by it, and equal ones stay as they
were. -/
theorem run_of_comparable (hall : ∀ i j, i < n → j < n → i ≠ j → Compares cmp i j) :
    (algorithm n).run cmp = .ok ((algorithm n).rankedBy (rankOf n total)) :=
  Comparing.run_of_comparable h.agreeing_rankOf hall (stable.asks n)

/-- If no pair that it asks about is without order, two neighbours of the result have one: an
exchange of the two would make no difference to the answers. -/
theorem compares_neighbours {order : List Nat} (hrun : (algorithm n).run cmp = .ok order)
    {k : Nat} (hk : k + 1 < order.length) : Compares cmp order[k] order[k + 1] := by
  have found {rank : Nat → Nat} (hagreeing : Agreeing n cmp rank) : InRankOrder n rank order :=
    Comparing.rankedBy_of_run hagreeing (stable.asks n) hrun ▸ stable.sorts n rank
  have hsorted := found h.agreeing_rankOf
  have hle := hsorted.rank_le (Nat.lt_of_succ_lt hk) hk (Nat.le_succ k)
  refine Classical.byContradiction fun hnot => ?_
  have hgap : ∀ a, a < n → rankOf n total a ≤ rankOf n total order[k] ∨
      rankOf n total order[k + 1] ≤ rankOf n total a := by
    intro a ha
    obtain ⟨l, hl, rfl⟩ := hsorted.exists_getElem ha
    rcases Nat.lt_or_ge k l with hkl | hlk
    · exact .inr (hsorted.rank_le hk hl hkl)
    · exact .inl (hsorted.rank_le hl _ hlk)
  have hexchanged := found
    (h.agreeing_exchanged (hsorted.getElem_lt _) (hsorted.getElem_lt hk) hle hnot hgap)
  refine exchanged_not_before (hsorted.getElem_lt hk) hle hnot ?_
    (hexchanged.before _ hk (Nat.lt_succ_self k))
  exact hsorted.getElem_ne _ hk (Nat.succ_ne_self k).symm

/-- Whatever pairs the algorithm asks about, it meets one without order if there is one. -/
theorem compares_of_run {order : List Nat} (hrun : (algorithm n).run cmp = .ok order)
    (hi : i < n) (hj : j < n) (hne : i ≠ j) : Compares cmp i j := by
  have hsorted : InRankOrder n (rankOf n total) order :=
    Comparing.rankedBy_of_run h.agreeing_rankOf (stable.asks n) hrun ▸ stable.sorts n _
  let Reaches (a b : Nat) : Prop :=
    a < n ∧ b < n ∧ rankOf n total a ≤ rankOf n total b ∧ Compares cmp a b
  have : Trans Reaches Reaches Reaches := ⟨fun ⟨ha, hb, hab, hcmp⟩ ⟨_, hc, hbc, hcmp'⟩ =>
    ⟨ha, hc, hab.trans hbc, h.comparable_trans ha hb hc hab hbc hcmp hcmp'⟩⟩
  have hchain : order.IsChain Reaches := List.isChain_iff_getElem.2 fun k hk =>
    ⟨hsorted.getElem_lt _, hsorted.getElem_lt hk,
      hsorted.rank_le (Nat.lt_of_succ_lt hk) hk (Nat.le_succ k),
      h.compares_neighbours stable hrun hk⟩
  have : Std.Symm (Compares cmp) := ⟨fun _ _ => h.symm⟩
  exact (hchain.pairwise.imp fun hab => hab.2.2.2).forall
    (hsorted.perm.symm.subset (List.mem_range.2 hi))
    (hsorted.perm.symm.subset (List.mem_range.2 hj)) hne

end Partly

end RecordAlgebra
