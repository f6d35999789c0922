import Mathlib.Algebra.Group.Nat.Defs
import Mathlib.Algebra.Ring.Int.Defs
import RecordAlgebra.Eval.Aggregate
import RecordAlgebra.Proofs.Value.Exactness
import RecordAlgebra.Proofs.Value.Clash

/-!
# Totals of values

What the aggregates come to for values that are taken one after the other. A sum of integers is
exact, and there is one as long as no sum of the first of them leaves the range of words. The best
of values that are comparable is the first one that no other value is better than. The aggregates
that have no result over nothing have none exactly if all values are null.
-/

namespace RecordAlgebra.Value

section Definitions

/-- The aggregate of these values. No value is shown in its errors but integers, so it does not
matter how items are shown. -/
def total (op : AggregateOp) (projected : Bool) (vs : List Value) : Except Error Value :=
  match op with
  | .len => .ok (ofCount (vs.foldl (addToCount false) 0))
  | .count => .ok (ofCount (vs.foldl (addToCount projected) 0))
  | .sum => vs.foldlM (addToSum (fun _ => "") op.name) (.int 0)
  | .avg => do
      match (← vs.foldlM (Mean.add op.name) {}).value? with
      | some v => .ok v
      | none => .error (.ofCause (.emptyAggregate op.name))
  | .min => best op .lt vs
  | .max => best op .gt vs
where
  best (op : AggregateOp) (wanted : Ordering) (vs : List Value) : Except Error Value := do
    match ← vs.foldlM (better wanted) none with
    | some v => .ok v
    | none => .error (.ofCause (.emptyAggregate op.name))

/-- The integers among the values. -/
def integers (vs : List Value) : List Int :=
  vs.filterMap fun
    | .int n => some n.toInt
    | _ => none

/-- How many of the values are not null. -/
def countNonNull (vs : List Value) : Nat := (vs.filter fun v => !v.isNull).length

def AllNull (vs : List Value) : Prop := ∀ v ∈ vs, v.isNull = true

/-- The result is this count, which is exact as long as it is a word. -/
def Counts (n : Nat) (r : Except Error Value) : Prop :=
  r = .ok (ofCount n) ∧ (n < 2 ^ 63 → GivesInteger n r)

/-- The value is not null, and none of those that are not null either is better than it, where it
is better to compare as `wanted`. -/
def IsBest (wanted : Ordering) (vs : List Value) (v : Value) : Prop :=
  v.isNull = false ∧ ∀ u ∈ vs, u.isNull = false → order v u ≠ .ok wanted.swap

/-- The value is the best one, and none before it is. -/
def IsFirstBest (wanted : Ordering) (vs : List Value) (v : Value) : Prop :=
  ∃ front back, vs = front ++ v :: back ∧ IsBest wanted vs v ∧ ∀ u ∈ front, ¬IsBest wanted vs u

/-- How a best value compares with the others, if the aggregate looks for one. -/
def wanted? : AggregateOp → Option Ordering
  | .min => some .lt
  | .max => some .gt
  | _ => none

/-- What is expected of an aggregate of these values. -/
structure IsTotal (op : AggregateOp) (projected : Bool) (vs : List Value)
    (r : Except Error Value) : Prop where
  all : op = .len ∨ op = .count ∧ projected = false → Counts vs.length r
  nonNull : op = .count → projected = true → Counts (countNonNull vs) r
  sum : op = .sum → (∀ v ∈ vs, v = .null ∨ ∃ n, v = .int n) →
    ((∃ v, r = .ok v) ↔ ∀ k, FitsWord ((integers vs).take k).sum) ∧
      ((∃ v, r = .ok v) → GivesInteger (integers vs).sum r)
  best : ∀ wanted, wanted? op = some wanted → vs.Pairwise Comparable → Unmixed vs →
    ¬AllNull vs → ∃ v, r = .ok v ∧ IsFirstBest wanted vs v
  empty : op = .min ∨ op = .max ∨ op = .avg → (FailsWith .emptyAggregation r ↔ AllNull vs)

end Definitions

variable {vs : List Value}

section Count

theorem counts_ofCount (n : Nat) : Counts n (.ok (ofCount n)) := by
  refine ⟨rfl, fun hn => ⟨_, rfl, ?_⟩⟩
  exact Int64.toInt_ofNat_of_lt hn

theorem foldl_addToCount_all (n : Nat) : vs.foldl (addToCount false) n = n + vs.length := by
  induction vs generalizing n with
  | nil => rfl
  | cons v vs ih =>
      rw [List.foldl_cons, ih, List.length_cons]
      show n + 1 + vs.length = _
      omega

theorem countNonNull_cons_null {v : Value} (h : v.isNull = true) :
    countNonNull (v :: vs) = countNonNull vs := by
  simp [countNonNull, h]

theorem countNonNull_cons {v : Value} (h : v.isNull = false) :
    countNonNull (v :: vs) = countNonNull vs + 1 := by
  simp [countNonNull, h]

theorem countNonNull_eq_zero : countNonNull vs = 0 ↔ AllNull vs := by
  simp [countNonNull, AllNull]

theorem foldl_addToCount_nonNull (n : Nat) :
    vs.foldl (addToCount true) n = n + countNonNull vs := by
  induction vs generalizing n with
  | nil => rfl
  | cons v vs ih =>
      rw [List.foldl_cons, ih]
      cases hnull : v.isNull with
      | true => simp [addToCount, countNonNull_cons_null hnull, hnull]
      | false =>
          simp only [addToCount, countNonNull_cons hnull, hnull, Bool.and_false]
          show n + 1 + countNonNull vs = _
          omega

end Count

section Sum

variable (view : ItemRef → String) (name : String)

theorem add_ints (x y : Int64) : add view (.int x) (.int y) =
    numeric view .add (exactly (· + ·)) (· + ·) (.int x) (.int y) := rfl

/-- What is added to a number is a number. -/
theorem isNumber_addToSum {sum v total : Value} (h : addToSum view name sum v = .ok total)
    (hsum : sum.isNumber = true) : total.isNumber = true := by
  cases sum <;> cases hsum <;> cases v
  case int.refl.int x y =>
    simp only [addToSum, add_ints, numeric] at h
    split at h
    · cases h
      rfl
    · cases h
  all_goals
    cases h
    try rfl

theorem addToSum_view (view' : ItemRef → String) {sum : Value} (hsum : sum.isNumber = true)
    (v : Value) : addToSum view name sum v = addToSum view' name sum v := by
  cases sum <;> cases hsum <;> cases v <;> rfl

theorem integers_cons_int (n : Int64) : integers (.int n :: vs) = n.toInt :: integers vs := rfl

/-- Summing integers goes on as long as the sums are words, and then gives their sum. -/
theorem sum_integers (hvs : ∀ v ∈ vs, v = .null ∨ ∃ n, v = .int n) (a : Int64) :
    ((∀ k, FitsWord (a.toInt + ((integers vs).take k).sum)) →
        GivesInteger (a.toInt + (integers vs).sum) (vs.foldlM (addToSum view name) (.int a))) ∧
      ((∃ k, ¬FitsWord (a.toInt + ((integers vs).take k).sum)) →
        FailsWith .arithmetic (vs.foldlM (addToSum view name) (.int a))) := by
  induction vs generalizing a with
  | nil =>
      refine ⟨fun _ => ⟨a, rfl, by simp [integers]⟩, fun ⟨k, hk⟩ => ?_⟩
      exact absurd (fitsWord_toInt a) (by simpa [integers] using hk)
  | cons v vs ih =>
      obtain ⟨hv, hrest⟩ := List.forall_mem_cons.1 hvs
      rw [List.foldlM_cons]
      rcases hv with rfl | ⟨n, rfl⟩
      · exact ih hrest a
      · rw [integers_cons_int]
        obtain ⟨hgives, hfails⟩ :=
          numeric_exactly view .add (x := a) (y := n) (· + ·) (· + ·)
        by_cases hfits : FitsWord (a.toInt + n.toInt)
        · obtain ⟨b, hb, hsum⟩ := hgives hfits
          have hstep : addToSum view name (.int a) (.int n) = .ok (.int b) := hb
          rw [hstep]
          obtain ⟨ihgives, ihfails⟩ := ih hrest b
          simp only [hsum, Int.add_assoc] at ihgives ihfails
          refine ⟨fun h => ?_, fun ⟨k, hk⟩ => ?_⟩
          · rw [List.sum_cons]
            exact ihgives fun k => by simpa using h (k + 1)
          · cases k with
            | zero => exact absurd (fitsWord_toInt a) (by simpa using hk)
            | succ k => exact ihfails ⟨k, by simpa using hk⟩
        · obtain ⟨e, he, hkind⟩ := hfails hfits
          have hstep : addToSum view name (.int a) (.int n) = .error e := he
          rw [hstep]
          exact ⟨fun h => absurd (h 1) (by simpa using hfits), fun _ => ⟨e, rfl, hkind⟩⟩

theorem isTotal_sum (hvs : ∀ v ∈ vs, v = .null ∨ ∃ n, v = .int n) :
    ((∃ v, vs.foldlM (addToSum view name) (.int 0) = .ok v) ↔
        ∀ k, FitsWord ((integers vs).take k).sum) ∧
      ((∃ v, vs.foldlM (addToSum view name) (.int 0) = .ok v) →
        GivesInteger (integers vs).sum (vs.foldlM (addToSum view name) (.int 0))) := by
  obtain ⟨hgives, hfails⟩ := sum_integers view name hvs 0
  simp only [Int64.toInt_zero, Int.zero_add] at hgives hfails
  have hfits (h : ∃ v, vs.foldlM (addToSum view name) (.int 0) = .ok v) (k : Nat) :
      FitsWord ((integers vs).take k).sum := by
    refine Decidable.byContradiction fun hk => ?_
    obtain ⟨v, hv⟩ := h
    obtain ⟨e, he, -⟩ := hfails ⟨k, hk⟩
    cases hv.symm.trans he
  refine ⟨⟨hfits, fun h => ?_⟩, fun h => hgives (hfits h)⟩
  obtain ⟨w, hw, -⟩ := hgives h
  exact ⟨_, hw⟩

end Sum

section Errors

/-- All errors of a fold are errors of its steps. -/
theorem error_of_foldlM {σ : Type} {f : σ → Value → Except Error σ} {kind : ErrorKind}
    (hf : ∀ a v e, f a v = .error e → e.kind = kind) {a : σ} {e : Error}
    (h : vs.foldlM f a = .error e) : e.kind = kind := by
  induction vs generalizing a with
  | nil => cases h
  | cons v vs ih =>
      rw [List.foldlM_cons] at h
      cases hstep : f a v with
      | error first =>
          rw [hstep] at h
          cases h
          exact hf a v e hstep
      | ok b =>
          rw [hstep] at h
          exact ih h

theorem kind_of_better_error {wanted : Ordering} {best : Option Value} {v : Value} {e : Error}
    (h : better wanted best v = .error e) : e.kind = .typeMismatch := by
  unfold better at h
  split at h
  · cases h
  split at h
  · cases h
  · next current =>
    cases horder : order v current with
    | error e' =>
        rw [horder] at h
        cases h
        exact kind_of_order_error horder
    | ok o =>
        rw [horder] at h
        cases o <;> cases wanted <;> cases h

theorem kind_of_meanAdd_error {name : String} {mean : Mean} {v : Value} {e : Error}
    (h : mean.add name v = .error e) : e.kind = .typeMismatch := by
  cases v <;> cases h <;> rfl

end Errors

section Mean

variable {name : String} {mean mean' : Mean}

/-- All numbers are counted, and there are no other values. -/
theorem count_of_foldlM_mean (h : vs.foldlM (Mean.add name) mean = .ok mean') :
    mean'.count = mean.count + countNonNull vs := by
  induction vs generalizing mean with
  | nil =>
      cases h
      rfl
  | cons v vs ih =>
      rw [List.foldlM_cons] at h
      cases v
      case null => exact ih h
      case int | float =>
        rw [countNonNull_cons rfl, Nat.add_comm (countNonNull vs), ← Nat.add_assoc]
        exact ih h
      all_goals cases h

theorem value?_eq_none : mean.value? = none ↔ mean.count = 0 := by
  unfold Mean.value?
  split <;> simp_all

theorem foldlM_mean_allNull (h : AllNull vs) : vs.foldlM (Mean.add name) mean = .ok mean := by
  induction vs with
  | nil => rfl
  | cons v vs ih =>
      obtain ⟨hv, hvs⟩ := List.forall_mem_cons.1 h
      cases v <;> cases hv
      exact ih hvs

end Mean

section Best

variable {wanted : Ordering} {best best' : Option Value} {taken : List Value} {v u x : Value}

theorem better_null (h : x.isNull = true) : better wanted best x = .ok best := if_pos h

theorem better_none (h : x.isNull = false) : better wanted none x = .ok (some x) := by
  simp [better, h]

theorem better_some (h : x.isNull = false) {o : Ordering} (ho : order x v = .ok o) :
    better wanted (some v) x = .ok (some (if o = wanted then x else v)) := by
  unfold better
  rw [if_neg (by simp [h])]
  simp only [ho]
  by_cases hbetter : o = wanted
  · rw [if_pos hbetter, hbetter]
    cases wanted <;> rfl
  · rw [if_neg hbetter]
    revert hbetter
    cases o <;> cases wanted <;> first | exact fun _ => rfl | exact fun h => absurd rfl h

theorem order_eq_totalOrder (h : Comparable u v) : order u v = .ok (totalOrder u v) := by
  obtain ⟨o, ho⟩ := h
  rw [ho, totalOrder_of_order ho]

/-- What is better than a value that is no worse than a third one is better than the third one. -/
theorem better_trans {kind : NumberKind} (hwanted : wanted ≠ .eq)
    (hx : x.hasNumber kind = false) (hv : v.hasNumber kind = false) (hu : u.hasNumber kind = false)
    (hxv : totalOrder x v = wanted) (hvu : totalOrder v u ≠ wanted.swap) :
    totalOrder x u = wanted := by
  cases wanted with
  | eq => exact absurd rfl hwanted
  | lt =>
      have hvu' : (totalOrder v u).isLE := Ordering.isLE_iff_ne_gt.2 hvu
      rw [(chain_of_hasNumber hx hv hu).through (by rw [hxv]; rfl) hvu', hxv]
      rfl
  | gt =>
      have hvx : totalOrder v x = .lt := by rw [← totalOrder_swap, hxv]; rfl
      have huv : (totalOrder u v).isLE := by
        rw [← totalOrder_swap]
        revert hvu
        cases totalOrder v u <;> decide
      have hux : totalOrder u x = .lt := by
        rw [(chain_of_hasNumber hu hv hx).through huv (by rw [hvx]; rfl), hvx]
        revert huv
        cases totalOrder u v <;> decide
      rw [← totalOrder_swap, hux]
      rfl

/-- What was found among the values taken so far: nothing while all of them are null, and later
a value that is better than those before it and no worse than those after it. -/
def Found (wanted : Ordering) (taken : List Value) : Option Value → Prop
  | none => AllNull taken
  | some v => ∃ front back, taken = front ++ v :: back ∧ v.isNull = false ∧
      (∀ u ∈ front, u.isNull = false → totalOrder v u = wanted) ∧
      ∀ u ∈ back, u.isNull = false → totalOrder v u ≠ wanted.swap

theorem Found.mem (h : Found wanted taken (some v)) : v ∈ taken := by
  obtain ⟨front, back, rfl, -⟩ := h
  simp

theorem Found.append_null (h : Found wanted taken best) (hnull : x.isNull = true) :
    Found wanted (taken ++ [x]) best := by
  cases best with
  | none => exact List.forall_mem_append.2 ⟨h, List.forall_mem_singleton.2 hnull⟩
  | some v =>
      obtain ⟨front, back, rfl, hv, hfront, hback⟩ := h
      refine ⟨front, back ++ [x], by simp, hv, hfront, List.forall_mem_append.2 ⟨hback, ?_⟩⟩
      exact List.forall_mem_singleton.2 fun hnot => by simp [hnull] at hnot

theorem Found.first (h : Found wanted taken none) (hx : x.isNull = false) :
    Found wanted (taken ++ [x]) (some x) := by
  refine ⟨taken, [], rfl, hx, fun u hu hu' => ?_, by simp⟩
  rw [h u hu] at hu'
  cases hu'

theorem totalOrder_self_ne (hwanted : wanted ≠ .eq) (v : Value) : totalOrder v v ≠ wanted := by
  have hself := totalOrder_swap v v
  revert hself hwanted
  cases totalOrder v v <;> cases wanted <;> decide

theorem swap_ne_self (hwanted : wanted ≠ .eq) : wanted.swap ≠ .eq ∧ wanted ≠ wanted.swap := by
  revert hwanted
  cases wanted <;> decide

/-- A better value is better than all values before it. -/
theorem Found.replace {kind : NumberKind} (hwanted : wanted ≠ .eq)
    (hkind : ∀ u ∈ taken ++ [x], u.hasNumber kind = false) (h : Found wanted taken (some v))
    (hx : x.isNull = false) (hbetter : totalOrder x v = wanted) :
    Found wanted (taken ++ [x]) (some x) := by
  obtain ⟨hkind, hxkind⟩ := List.forall_mem_append.1 hkind
  have hvkind := hkind v h.mem
  obtain ⟨front, back, rfl, -, hfront, hback⟩ := h
  obtain ⟨hswap, hne⟩ := swap_ne_self hwanted
  refine ⟨front ++ v :: back, [], rfl, hx, fun u hu hu' => ?_, by simp⟩
  refine better_trans hwanted (hxkind x (by simp)) hvkind (hkind u hu) hbetter ?_
  rcases List.mem_append.1 hu with hu | hu
  · rw [hfront u hu hu']
    exact hne
  · rcases List.mem_cons.1 hu with rfl | hu
    · exact totalOrder_self_ne hswap u
    · exact hback u hu hu'

theorem Found.keep (h : Found wanted taken (some v)) (hworse : totalOrder x v ≠ wanted) :
    Found wanted (taken ++ [x]) (some v) := by
  obtain ⟨front, back, rfl, hv, hfront, hback⟩ := h
  refine ⟨front, back ++ [x], by simp, hv, hfront, List.forall_mem_append.2 ⟨hback, ?_⟩⟩
  refine List.forall_mem_singleton.2 fun _ => ?_
  rw [← totalOrder_swap]
  exact fun hswap => hworse (Ordering.swap_inj.1 hswap)

/-- The next value is found if it is better than what was found before. -/
theorem Found.step {kind : NumberKind} (hwanted : wanted ≠ .eq)
    (hkind : ∀ u ∈ taken ++ [x], u.hasNumber kind = false)
    (hcomparable : ∀ u ∈ taken, Comparable u x) (h : Found wanted taken best) :
    ∃ best', better wanted best x = .ok best' ∧ Found wanted (taken ++ [x]) best' := by
  cases hnull : x.isNull with
  | true => exact ⟨best, better_null hnull, h.append_null hnull⟩
  | false =>
      cases best with
      | none => exact ⟨some x, better_none hnull, h.first hnull⟩
      | some v =>
          have horder : order x v = .ok (totalOrder x v) :=
            order_eq_totalOrder (hcomparable v h.mem).symm
          refine ⟨_, better_some hnull horder, ?_⟩
          split
          · next hbetter => exact h.replace hwanted hkind hnull hbetter
          · next hworse => exact h.keep hworse

/-- The induction is on the values that are left. -/
theorem Found.foldlM {kind : NumberKind} (hwanted : wanted ≠ .eq)
    (hkind : ∀ u ∈ taken ++ vs, u.hasNumber kind = false)
    (hcomparable : (taken ++ vs).Pairwise Comparable) (h : Found wanted taken best) :
    ∃ best', vs.foldlM (better wanted) best = .ok best' ∧ Found wanted (taken ++ vs) best' := by
  induction vs generalizing taken best with
  | nil => exact ⟨best, rfl, (List.append_nil taken).symm ▸ h⟩
  | cons x vs ih =>
      have happend : taken ++ x :: vs = taken ++ [x] ++ vs := by simp
      obtain ⟨next, hnext, hfound⟩ := h.step hwanted
        (fun u hu => hkind u (by rw [happend]; exact List.mem_append_left vs hu))
        fun u hu => (List.pairwise_append.1 hcomparable).2.2 u hu x (by simp)
      rw [happend] at hkind hcomparable ⊢
      rw [List.foldlM_cons, hnext]
      exact ih hkind hcomparable hfound

/-- What is found among comparable values is the first of the best. -/
theorem Found.isFirstBest (hwanted : wanted ≠ .eq) (hcomparable : vs.Pairwise Comparable)
    (h : Found wanted vs (some v)) : IsFirstBest wanted vs v := by
  obtain ⟨hswap, hne⟩ := swap_ne_self hwanted
  obtain ⟨front, back, rfl, hv, hfront, hback⟩ := h
  refine ⟨front, back, rfl, ⟨hv, fun u hu hu' horder => ?_⟩, fun u hu hbest => ?_⟩
  · have htotal := totalOrder_of_order horder
    rcases List.mem_append.1 hu with hu | hu
    · exact hne ((hfront u hu hu').symm.trans htotal)
    · rcases List.mem_cons.1 hu with rfl | hu
      · exact totalOrder_self_ne hswap u htotal
      · exact hback u hu hu' htotal
  · have hbefore : Comparable u v :=
      (List.pairwise_append.1 hcomparable).2.2 u hu v (by simp)
    refine hbest.2 v (by simp) hv ?_
    rw [order_eq_totalOrder hbefore, ← totalOrder_swap, hfront u hu hbest.1]

theorem exists_firstBest (hwanted : wanted ≠ .eq) (hcomparable : vs.Pairwise Comparable)
    (hunmixed : Unmixed vs) (hsome : ¬AllNull vs) (op : AggregateOp) :
    ∃ v, total.best op wanted vs = .ok v ∧ IsFirstBest wanted vs v := by
  obtain ⟨kind, hkind⟩ := hunmixed
  have hnone : Found wanted [] none := fun _ hu => by cases hu
  obtain ⟨best, hbest, hfound⟩ := hnone.foldlM hwanted
    (show ∀ u ∈ [] ++ vs, u.hasNumber kind = false from hkind)
    (show ([] ++ vs).Pairwise Comparable from hcomparable)
  cases best with
  | none => exact absurd hfound hsome
  | some v =>
      exact ⟨v, by rw [total.best, hbest]; rfl, Found.isFirstBest hwanted hcomparable hfound⟩

/-- Nothing is found only among nulls. -/
theorem foldlM_better_eq_none : vs.foldlM (better wanted) best = .ok none ↔
    best = none ∧ AllNull vs := by
  induction vs generalizing best with
  | nil => simp [AllNull, pure, Except.pure]
  | cons v vs ih =>
      rw [List.foldlM_cons, AllNull, List.forall_mem_cons]
      cases hnull : v.isNull with
      | true =>
          rw [better_null hnull, and_iff_right rfl]
          exact ih
      | false =>
          cases best with
          | none =>
              rw [better_none hnull]
              exact iff_of_false (fun h => by cases (ih.1 h).1) (by simp)
          | some u =>
              refine iff_of_false (fun h => ?_) (by simp)
              cases horder : order v u with
              | error e =>
                  have hstep : better wanted (some u) v = .error e := by
                    simp [better, hnull, horder]
                    rfl
                  rw [hstep] at h
                  cases h
              | ok o =>
                  rw [better_some hnull horder] at h
                  cases (ih.1 h).1

end Best

section Empty

variable {op : AggregateOp} {wanted : Ordering}

theorem best_fails_iff : FailsWith .emptyAggregation (total.best op wanted vs) ↔ AllNull vs := by
  have hnone : vs.foldlM (better wanted) none = .ok none ↔ AllNull vs :=
    foldlM_better_eq_none.trans (and_iff_right rfl)
  rw [total.best, ← hnone]
  cases hfold : vs.foldlM (better wanted) none with
  | error e =>
      have hkind := error_of_foldlM (fun _ _ _ => kind_of_better_error) hfold
      refine iff_of_false ?_ (by simp)
      rintro ⟨_, ⟨⟩, hempty⟩
      cases hkind.symm.trans hempty
  | ok best =>
      cases best with
      | none => exact iff_of_true ⟨_, rfl, rfl⟩ rfl
      | some v => exact iff_of_false (fun ⟨_, h, _⟩ => by cases h) (by simp)

theorem avg_fails_iff (projected : Bool) :
    FailsWith .emptyAggregation (total .avg projected vs) ↔ AllNull vs := by
  rw [total]
  cases hfold : vs.foldlM (Mean.add AggregateOp.avg.name) {} with
  | error e =>
      have hkind := error_of_foldlM (fun _ _ _ => kind_of_meanAdd_error) hfold
      refine iff_of_false ?_ fun h => ?_
      · rintro ⟨_, ⟨⟩, hempty⟩
        cases hkind.symm.trans hempty
      · rw [foldlM_mean_allNull h] at hfold
        cases hfold
  | ok mean =>
      have hcount : mean.count = 0 ↔ AllNull vs := by
        rw [count_of_foldlM_mean hfold, ← countNonNull_eq_zero]
        exact iff_of_eq (congrArg (· = 0) (Nat.zero_add _))
      rw [← hcount, ← value?_eq_none]
      simp only [bind, Except.bind]
      cases hmean : mean.value? with
      | none => exact iff_of_true ⟨_, rfl, rfl⟩ rfl
      | some v => exact iff_of_false (fun ⟨_, h, _⟩ => by cases h) (by simp)

end Empty

/-- Each aggregate of values comes to what is expected of it. -/
theorem isTotal_total (op : AggregateOp) (projected : Bool) (vs : List Value) :
    IsTotal op projected vs (total op projected vs) where
  all h := by
    have hcount : total op projected vs = .ok (ofCount (vs.foldl (addToCount false) 0)) := by
      rcases h with rfl | ⟨rfl, rfl⟩ <;> rfl
    rw [hcount, foldl_addToCount_all, Nat.zero_add]
    exact counts_ofCount _
  nonNull hop hprojected := by
    rw [hop, hprojected, total, foldl_addToCount_nonNull, Nat.zero_add]
    exact counts_ofCount _
  sum hop hvs := by
    rw [hop]
    exact isTotal_sum _ _ hvs
  best wanted hwanted hcomparable hunmixed hsome := by
    cases op with
    | min =>
        cases hwanted
        exact exists_firstBest (show Ordering.lt ≠ .eq by decide) hcomparable hunmixed hsome .min
    | max =>
        cases hwanted
        exact exists_firstBest (show Ordering.gt ≠ .eq by decide) hcomparable hunmixed hsome .max
    | _ => cases hwanted
  empty h := by
    rcases h with rfl | rfl | rfl
    · exact best_fails_iff
    · exact best_fails_iff
    · exact avg_fails_iff projected

end RecordAlgebra.Value
