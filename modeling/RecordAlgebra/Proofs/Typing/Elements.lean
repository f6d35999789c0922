import RecordAlgebra.Proofs.Typing.Tolerance

/-!
# Elements of settled types

Stages, aggregates, sorting and grouping of elements that fit a settled type.
-/

namespace RecordAlgebra.Datum

/-- The elements are data of this type or tolerated errors. -/
def AllProgress (t : DataType) (xs : List Element) : Prop :=
  ∀ x ∈ xs, Progresses (fun d => d.Fits t) x

namespace Elements

variable {t u : DataType} {xs : List Element}

theorem allProgress_ofData {ds : List Datum} (h : ∀ d ∈ ds, d.Fits t) :
    AllProgress t (ofData ds) := by
  intro x hx
  obtain ⟨d, hd, rfl⟩ := List.mem_map.1 hx
  exact h d hd

theorem collect_progresses (h : AllProgress t xs) :
    Progresses (fun ds => ∀ d ∈ ds, d.Fits t) (collect xs) := by
  induction xs with
  | nil => exact fun d hd => by cases hd
  | cons x xs ih =>
      obtain ⟨hx, hxs⟩ := List.forall_mem_cons.1 h
      cases x with
      | error kind => exact hx
      | ok d => exact (ih hxs).map fun ds hds => List.forall_mem_cons.2 ⟨hx, hds⟩

theorem fold_progresses {σ : Type} {P : σ → Prop} {f : σ → Datum → Except ErrorKind σ}
    (step : ∀ s d, P s → d.Fits t → Progresses P (f s d)) (h : AllProgress t xs) {s : σ}
    (hs : P s) : Progresses P (fold f s xs) := by
  induction xs generalizing s with
  | nil => exact hs
  | cons x xs ih =>
      obtain ⟨hx, hxs⟩ := List.forall_mem_cons.1 h
      cases x with
      | error kind => exact hx
      | ok d => exact (step s d hs hx).bind fun s' hs' => ih hxs hs'

theorem filter_progresses {keep : Datum → Except ErrorKind Bool}
    (step : ∀ d, d.Fits t → Progresses (fun _ => True) (keep d)) (h : AllProgress t xs) :
    AllProgress t (filter keep xs) := by
  induction xs with
  | nil => exact h
  | cons x xs ih =>
      obtain ⟨hx, hxs⟩ := List.forall_mem_cons.1 h
      cases x with
      | error kind => exact List.forall_mem_cons.2 ⟨hx, ih hxs⟩
      | ok d =>
          have hkeep := step d hx
          rw [filter]
          cases hk : keep d with
          | error kind =>
              rw [hk] at hkeep
              exact List.forall_mem_cons.2 ⟨hkeep, ih hxs⟩
          | ok b =>
              cases b with
              | true => exact List.forall_mem_cons.2 ⟨hx, ih hxs⟩
              | false => exact ih hxs

theorem map_progresses {project : Datum → Except ErrorKind Datum}
    (step : ∀ d, d.Fits t → Progresses (fun e => e.Fits u) (project d))
    (h : AllProgress t xs) : AllProgress u (map project xs) := by
  intro y hy
  obtain ⟨x, hx, rfl⟩ := List.mem_map.1 hy
  exact (h x hx).bind step

theorem mem_of_mem_distinct {seen : List Datum} {x : Element} (h : x ∈ distinct seen xs) :
    x ∈ xs := by
  induction xs generalizing seen with
  | nil => cases h
  | cons y xs ih =>
      cases y with
      | error kind =>
          rcases List.mem_cons.1 h with rfl | h
          · exact List.mem_cons_self
          · exact List.mem_cons_of_mem _ (ih h)
      | ok d =>
          rw [distinct] at h
          split at h
          · exact List.mem_cons_of_mem _ (ih h)
          · rcases List.mem_cons.1 h with rfl | h
            · exact List.mem_cons_self
            · exact List.mem_cons_of_mem _ (ih h)

theorem mem_of_mem_window {start position : Nat} {left : Option Nat} {x : Element}
    (h : x ∈ window start position left xs) : x ∈ xs := by
  induction xs generalizing position left with
  | nil => cases h
  | cons y xs ih =>
      rw [window.eq_def] at h
      simp only at h
      split at h
      · cases h
      · cases y with
        | error kind =>
            rcases List.mem_cons.1 h with rfl | h
            · exact List.mem_cons_self
            · exact List.mem_cons_of_mem _ (ih h)
        | ok d =>
            simp only at h
            split at h
            · rcases List.mem_cons.1 h with rfl | h
              · exact List.mem_cons_self
              · exact List.mem_cons_of_mem _ (ih h)
            · exact List.mem_cons_of_mem _ (ih h)

theorem settle_progresses {r : Except ErrorKind (List Datum)}
    (h : Progresses (fun ds => ∀ d ∈ ds, d.Fits t) r) : AllProgress t (settle r) := by
  cases r with
  | ok ds => exact allProgress_ofData h
  | error kind =>
      intro x hx
      rw [settle, List.mem_singleton] at hx
      subst hx
      exact h

theorem only_progresses (h : AllProgress t xs) :
    Progresses (fun found => ∀ d, found = some d → d.Fits t) (only xs) := by
  cases xs with
  | nil => exact fun d hd => by cases hd
  | cons x xs =>
      obtain ⟨hx, hxs⟩ := List.forall_mem_cons.1 h
      cases x with
      | error kind => exact hx
      | ok d =>
          cases xs with
          | nil =>
              rintro _ ⟨⟩
              exact hx
          | cons y ys =>
              cases y with
              | error kind => exact (List.forall_mem_cons.1 hxs).1
              | ok e => exact .inr (.inr rfl)

section Aggregates

theorem count_progresses (skipNulls : Bool) (h : AllProgress t xs) :
    Progresses (fun d => d.Fits .int) (count skipNulls xs) :=
  (fold_progresses (P := fun _ => True) (f := fun n d => .ok (addToCount skipNulls n d))
    (fun _ _ _ _ => trivial) h trivial).map fun _ _ => .scalar rfl

theorem sum_progresses (ht : t = .int ∨ t = .float) (h : AllProgress t xs) :
    Progresses (fun d => d.Fits t) (fold addToSum (.int 0) xs) := by
  have hsettled : t.isSettled = true := by rcases ht with rfl | rfl <;> rfl
  have hresult : ArithmeticOp.add.resultType t t = .ok t := by rcases ht with rfl | rfl <;> rfl
  refine fold_progresses (fun total d htotal hd => ?_) h ?_
  · have hadd := apply_progresses hsettled hsettled hsettled hresult htotal hd
    unfold addToSum
    split
    · exact htotal
    · exact hadd
    · exact hadd
    · next hnull hint hfloat =>
        rcases ht with rfl | rfl
        · rcases fits_int hd with rfl | ⟨n, rfl⟩
          · exact absurd rfl hnull
          · exact absurd rfl (hint n)
        · rcases fits_float hd with rfl | ⟨n, rfl⟩ | ⟨x, rfl⟩
          · exact absurd rfl hnull
          · exact absurd rfl (hint n)
          · exact absurd rfl (hfloat x)
  · rcases ht with rfl | rfl <;> exact .scalar rfl

theorem addToMean_progresses (ht : t = .int ∨ t = .float) {d : Datum} (hd : d.Fits t)
    (mean : Value.Mean) : Progresses (fun _ => True) (addToMean mean d) := by
  rcases ht with rfl | rfl
  · rcases fits_int hd with rfl | ⟨n, rfl⟩ <;> exact trivial
  · rcases fits_float hd with rfl | ⟨n, rfl⟩ | ⟨x, rfl⟩ <;> exact trivial

theorem better_progresses (ht : t.isSettled = true) (horderable : t.isOrderable = true)
    (wanted : Ordering) {best : Option Datum} (hbest : ∀ d, best = some d → d.Fits t)
    {d : Datum} (hd : d.Fits t) :
    Progresses (fun best => ∀ d, best = some d → d.Fits t) (better wanted best d) := by
  unfold better
  split
  · exact hbest
  · cases best with
    | none =>
        rintro _ ⟨⟩
        exact hd
    | some current =>
        obtain ⟨o, ho⟩ := order_ok ht ht (isComparable_self horderable) hd (hbest current rfl)
        simp only [order, ho, ofResult_ok]
        show Progresses _ (if o == wanted then _ else _)
        split
        · rintro _ ⟨⟩
          exact hd
        · exact hbest

theorem best_progresses (ht : t.isSettled = true) (horderable : t.isOrderable = true)
    (wanted : Ordering) (h : AllProgress t xs) :
    Progresses (fun d => d.Fits t) (best wanted xs) := by
  refine (fold_progresses (fun best d hbest hd =>
    better_progresses ht horderable wanted hbest hd) h (fun d hd => by cases hd)).bind ?_
  intro found hfound
  cases found with
  | none => exact .inr (.inl rfl)
  | some d => exact hfound d rfl

/-- An aggregate of elements of a settled type gives the type that is derived. -/
theorem aggregate_progresses {op : AggregateOp} (projected : Bool) (ht : t.isSettled = true)
    (hresult : op.resultType t = .ok u) (h : AllProgress t xs) :
    Progresses (fun d => d.Fits u) (aggregate op projected xs) := by
  cases op with
  | len =>
      cases hresult
      exact count_progresses false h
  | count =>
      cases hresult
      exact count_progresses projected h
  | sum =>
      simp only [AggregateOp.resultType] at hresult
      split at hresult
      · next hlike =>
          have hnumeric := numeric_of_isNumericLike hlike ht
          have hu : t = u := by
            rcases hnumeric with rfl | rfl <;> cases hresult <;> rfl
          exact hu ▸ sum_progresses hnumeric h
      · cases hresult
  | avg =>
      simp only [AggregateOp.resultType] at hresult
      split at hresult
      · next hlike =>
          cases hresult
          have hnumeric := numeric_of_isNumericLike hlike ht
          refine (fold_progresses (P := fun _ => True) (fun mean d _ hd =>
            addToMean_progresses hnumeric hd mean) h trivial).bind fun mean _ => ?_
          cases hmean : mean.value? with
          | none => exact .inr (.inl rfl)
          | some v =>
              rw [Value.Mean.value?] at hmean
              split at hmean
              · cases hmean
              · cases hmean
                exact .scalar rfl
      · cases hresult
  | min =>
      simp only [AggregateOp.resultType] at hresult
      split at hresult
      · next horderable =>
          cases hresult
          exact best_progresses ht horderable .lt h
      · cases hresult
  | max =>
      simp only [AggregateOp.resultType] at hresult
      split at hresult
      · next horderable =>
          cases hresult
          exact best_progresses ht horderable .gt h
      · cases hresult

end Aggregates

end Elements

end RecordAlgebra.Datum
