import RecordAlgebra.Proofs.Item.Fitting

/-!
# Aggregates and groups of fitting elements

If a sequence sends elements of a type, aggregates of it have the type that is derived
for them, and so have keys and members of groups.
-/

namespace RecordAlgebra

variable {known : ItemRef → Prop} {I : World → Prop} {s : Sequence} {t u : DataType}

namespace Sequence

theorem count_ensures (skipNulls : Bool) (hs : s.Sends I fun v => v.Fits known t) :
    Ensures I (fun v => v.Fits known .int) (s.count skipNulls) :=
  (hs.fold (S := fun _ => True) (fun _ _ _ _ => .pure trivial) trivial).map fun _ _ =>
    Value.fits_int _

theorem best_ensures (op : AggregateOp) (wanted : Ordering)
    (hs : s.Sends I fun v => v.Fits known t) :
    Ensures I (fun v => v.Fits known t) (s.best op wanted) := by
  have step (best : Option Value) (v : Value) (hbest : ∀ v, best = some v → v.Fits known t)
      (hv : v.Fits known t) : Ensures I (fun best => ∀ v, best = some v → Value.Fits known v t)
        (EvalM.lift (Value.better wanted best v)) := by
    refine .lift fun found hfound u hu => ?_
    rcases Value.better_mem hfound hu with hbest' | rfl
    · exact hbest u hbest'
    · exact hv
  refine (hs.fold step (fun _ h => by cases h)).bind fun best hbest => ?_
  cases best with
  | none => exact .fail _
  | some v => exact .pure (hbest v rfl)

/-- An aggregate has the type that is derived for it. -/
theorem aggregate_ensures {op : AggregateOp} (projected : Bool)
    (hs : s.Sends I fun v => v.Fits known t) (h : op.resultType t = .ok u) :
    Ensures I (fun v => v.Fits known u) (s.aggregate op projected) := by
  cases op with
  | len =>
      cases h
      exact count_ensures false hs
  | count =>
      cases h
      exact count_ensures projected hs
  | sum =>
      refine hs.fold (S := fun v : Value => v.Fits known u) (fun total v htotal hv => ?_)
        (Value.zero_fits_sum h)
      exact .view fun _ => .lift fun r hr => Value.addToSum_fits h htotal hv hr
  | avg =>
      have hu : u = .float := by
        simp only [AggregateOp.resultType] at h
        split at h <;> cases h
        rfl
      subst hu
      refine (hs.fold (S := fun _ => True) (fun _ _ _ _ => .lift fun _ _ => trivial)
        trivial).bind fun mean _ => ?_
      cases hmean : mean.value? with
      | none => exact .fail _
      | some v =>
          rw [Value.Mean.value?] at hmean
          split at hmean
          · cases hmean
          · cases hmean
            exact .pure (.scalar rfl rfl)
  | min =>
      simp only [AggregateOp.resultType] at h
      split at h <;> cases h
      exact best_ensures .min .lt hs
  | max =>
      simp only [AggregateOp.resultType] at h
      split at h <;> cases h
      exact best_ensures .max .gt hs

end Sequence

namespace Groups

/-- Groups with keys and members of these types. -/
def Fit (known : ItemRef → Prop) (k t : DataType) (groups : Groups) : Prop :=
  ∀ group ∈ groups, group.1.value.Fits known k ∧ ∀ v ∈ group.2, v.Fits known t

variable {k : DataType} {groups : Groups}

theorem Fit.modify (h : Fit known k t groups) {v : Value} (hv : v.Fits known t) (position : Nat) :
    Fit known k t (groups.modify position fun group => (group.1, v :: group.2)) := by
  induction groups generalizing position with
  | nil => cases position <;> exact h
  | cons group rest ih =>
      obtain ⟨hgroup, hrest⟩ := List.forall_mem_cons.1 h
      cases position with
      | zero =>
          exact List.forall_mem_cons.2 ⟨⟨hgroup.1, List.forall_mem_cons.2 ⟨hv, hgroup.2⟩⟩, hrest⟩
      | succ position => exact List.forall_mem_cons.2 ⟨hgroup, ih hrest position⟩

theorem add_ensures {access : ItemAccess EvalM} (reads : access.Reads known I)
    (h : Fit known k t groups) {key : Value.Key} (hkey : key.value.Fits known k) {v : Value}
    (hv : v.Fits known t) : Ensures I (Fit known k t) (groups.add access key v) := by
  have compares := reads.compares (P := fun v => v.Fits known k) fun _ hv => hv.isKnown
  refine (compares.find? hkey fun group hgroup => (h group hgroup).1).bind fun position _ => ?_
  cases position with
  | none =>
      refine .pure fun group hgroup => ?_
      rcases List.mem_append.1 hgroup with hgroup | hgroup
      · exact h group hgroup
      · rw [List.mem_singleton.1 hgroup]
        refine ⟨hkey, fun u hu => ?_⟩
        rw [List.mem_singleton.1 hu]
        exact hv
  | some position => exact .pure (h.modify hv position)

end Groups

end RecordAlgebra
