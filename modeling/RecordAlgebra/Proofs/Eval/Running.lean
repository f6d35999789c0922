import RecordAlgebra.Proofs.Eval.Adequacy

/-!
# Running expressions

Running an expression over a sequence binds the sequence as an input that is
kept if it is needed more than once. The run ends with what the expression
means for the data of the sequence. What it leaves behind may need more shared
inputs than there were before.
-/

namespace RecordAlgebra

/-- The action ends with the outcome in a state that keeps the heap and all
shared inputs, and may have some more of them. -/
def Settles {α β : Type} (shared : Shared) (w : World) (m : EvalM α)
    (R : Shared → World → α → β → Prop) (r : Except ErrorKind β) : Prop :=
  ∃ others, shared.Within others ∧ w.Extends (m.run w).2 ∧ (m.run w).2.Holds others ∧
    EndsAs (R others (m.run w).2) (m.run w).1 r

section

variable {shared : Shared} {w : World} {α β γ δ : Type}

theorem Computes.settles {m : EvalM α} {R : World → α → β → Prop} {r : Except ErrorKind β}
    (h : Computes shared none w m R r) (hholds : w.Holds shared) :
    Settles shared w m (fun _ => R) r := by
  obtain ⟨hleads, hends⟩ := h w (.refl w) hholds (.none w shared)
  exact ⟨shared, fun _ _ h => h, hleads.heap, hleads.holds, hends⟩

theorem Settles.bind {m : EvalM α} {R : Shared → World → α → β → Prop} {r : Except ErrorKind β}
    {f : α → EvalM γ} {g : β → Except ErrorKind δ} {S : Shared → World → γ → δ → Prop}
    (h : Settles shared w m R r)
    (step : ∀ a b others w', shared.Within others → w.Extends w' → w'.Holds others →
      R others w' a b → Settles others w' (f a) S (g b)) : Settles shared w (m >>= f) S (r >>= g) := by
  obtain ⟨others, hwithin, hheap, hholds, hends⟩ := h
  rw [Settles, EvalM.run_bind]
  rcases hm : m.run w with ⟨(e | _) | a, w'⟩ <;> rw [hm] at hheap hholds hends
  · cases r with
    | ok b => exact hends.elim
    | error kind => exact ⟨others, hwithin, hheap, hholds, hends⟩
  · cases r <;> exact hends.elim
  · cases r with
    | error kind => exact hends.elim
    | ok b =>
        obtain ⟨more, hwithin', hheap', hholds', hends'⟩ :=
          step a b others w' hwithin hheap hholds hends
        exact ⟨more, fun i ds hi => hwithin' i ds (hwithin i ds hi), hheap.trans hheap', hholds',
          hends'⟩

end

theorem World.Holds.none_of_size {shared : Shared} {w : World} (h : w.Holds shared) :
    shared w.inputs.size = none := by
  cases hs : shared w.inputs.size with
  | none => rfl
  | some ds =>
      have hnone : w.inputs[w.inputs.size]? = none := by simp
      rcases h _ ds hs with hpending | ⟨vs, hvs, -⟩
      · rw [hnone] at hpending
        cases hpending
      · rw [hnone] at hvs
        cases hvs

namespace Input

/-- The state with one more input. -/
def stateCreated (w : World) : World := { w with inputs := w.inputs.push .pending }

theorem run_create (materialize : Bool) (source : EvalM Sequence) (w : World) :
    (create materialize source).run w =
      (.ok { cell := w.inputs.size, materialize, source }, stateCreated w) := rfl

theorem stateCreated_self (w : World) :
    (stateCreated w).inputs[w.inputs.size]? = some .pending := by
  simp [stateCreated]

theorem stateCreated_of_lt {w : World} {i : Nat} (h : i < w.inputs.size) :
    (stateCreated w).inputs[i]? = w.inputs[i]? := by
  simp only [stateCreated, Array.getElem?_push]
  rw [if_neg (Nat.ne_of_lt h)]

theorem stateCreated_holds {shared : Shared} {w : World} (h : w.Holds shared) :
    (stateCreated w).Holds shared := by
  intro i ds hi
  refine (h i ds hi).mono (stateCreated_of_lt ?_) (.of_eq rfl rfl)
  rcases h i ds hi with hpending | ⟨vs, hvs, -⟩
  · exact (Array.getElem?_eq_some_iff.1 hpending).1
  · exact (Array.getElem?_eq_some_iff.1 hvs).1

theorem stateCreated_holds_insert {shared : Shared} {w : World} (h : w.Holds shared)
    (data : List Datum) : (stateCreated w).Holds (shared.insert w.inputs.size data) := by
  intro i ds hi
  rw [Shared.insert] at hi
  split at hi
  · next hcell =>
      subst hcell
      exact .inl (stateCreated_self w)
  · exact stateCreated_holds h i ds hi

end Input

namespace Expr

variable {access : ItemAccess EvalM} {lit : Value → Datum} {shared : Shared} {w : World}

/-- Running an expression gives what it means, whichever nodes of it are given by
outputs. -/
theorem runWith_settles (reads : access.ReadsLoaded) {e : Expr} {substitution : Substitution}
    {source : EvalM Sequence} {data : List Datum} (hholds : w.Holds shared)
    (hopens : Opens w source data) (literals : ∀ v, e.HasLiteral v → w.Shows v (lit v))
    (outputs : ∀ path output, substitution path = some output →
      ∃ node r, e.sameNode? path = some node ∧ denote lit [.input data] node = .ok r ∧
        Gives shared w output r) :
    Settles shared w (runWith access substitution e source) Gives
      (denote lit [.input data] e) := by
  have hheap : w.Extends (Input.stateCreated w) := .of_eq rfl rfl
  have hcell := hholds.none_of_size
  have hrefs : (fun path => (substitution path).isSome) = substituted substitution := rfl
  rw [Settles, runWith]
  simp only [hrefs]
  rw [EvalM.run_bind_ok (Input.run_create _ _ w)]
  cases hkept : decide (1 < (e.references (substituted substitution) 0).total) ||
      decide (0 < (e.references (substituted substitution) 0).nested) with
  | true =>
      have hwithin := Shared.within_insert hcell data
      have hevaluable : Evaluable lit (shared.insert w.inputs.size data) none
          (Input.stateCreated w) substitution
          [.input { cell := w.inputs.size, materialize := true, source }] [.input data] e := by
        refine ⟨.cons ⟨hopens.mono hheap, fun _ => ?_⟩ .nil, fun depth input hinput hfalse => ?_,
          fun v hv => (literals v hv).mono hheap, fun path output hpath => ?_⟩
        · exact if_pos rfl
        · cases depth with
          | zero =>
              cases hinput
              cases hfalse
          | succ depth => cases hinput
        · obtain ⟨node, r, hnode, hr, hgives⟩ := outputs path output hpath
          exact ⟨node, r, hnode, hr, (hgives.mono hheap).within hwithin⟩
      obtain ⟨hleads, hends⟩ := eval_computes reads e _ _ _ _ _ hevaluable _ (.refl _)
        (Input.stateCreated_holds_insert hholds data) (.none _ _)
      exact ⟨_, hwithin, hheap.trans hleads.heap, hleads.holds, hends⟩
  | false =>
      obtain ⟨htotal, hnested⟩ := Bool.or_eq_false_iff.1 hkept
      rw [decide_eq_false_iff_not, References.total] at htotal
      rw [decide_eq_false_iff_not] at hnested
      have hevaluable : Evaluable lit shared (some w.inputs.size)
          (Input.stateCreated w) substitution
          [.input { cell := w.inputs.size, materialize := false, source }] [.input data] e := by
        refine ⟨.cons ⟨hopens.mono hheap, by simp⟩ .nil, fun depth input hinput hfalse => ?_,
          fun v hv => (literals v hv).mono hheap, fun path output hpath => ?_⟩
        · cases depth with
          | zero =>
              cases hinput
              refine ⟨Nat.eq_zero_of_not_pos hnested, ?_⟩
              by_cases hdirect : (e.references (substituted substitution) 0).direct = 0
              · exact .inl hdirect
              · refine .inr ⟨?_, rfl⟩
                show (e.references (substituted substitution) 0).direct = 1
                omega
          | succ depth => cases hinput
        · obtain ⟨node, r, hnode, hr, hgives⟩ := outputs path output hpath
          exact ⟨node, r, hnode, hr, hgives.mono hheap⟩
      obtain ⟨hleads, hends⟩ := eval_computes reads e _ _ _ _ _ hevaluable _ (.refl _)
        (Input.stateCreated_holds hholds) (by
          rintro i ⟨⟩
          exact ⟨hcell, Input.stateCreated_self w⟩)
      exact ⟨shared, fun _ _ h => h, hheap.trans hleads.heap, hleads.holds, hends⟩

/-- Running an expression over a sequence gives what it means for the data of the
sequence. -/
theorem run_settles (reads : access.ReadsLoaded) {e : Expr} {s : Sequence} {data : List Datum}
    (hholds : w.Holds shared) (hs : Yields .empty w s (Datum.Elements.ofData data))
    (literals : ∀ v, e.HasLiteral v → w.Shows v (lit v)) :
    Settles shared w (e.run access s) Gives (denote lit [.input data] e) :=
  runWith_settles reads hholds (.pure fun _ hw => hs.mono hw) literals fun _ _ h => by cases h

theorem runValue_settles (reads : access.ReadsLoaded) {e : Expr} {v : Value} {d : Datum}
    (hholds : w.Holds shared) (hv : w.Shows v d)
    (literals : ∀ v, e.HasLiteral v → w.Shows v (lit v)) :
    Settles shared w (e.runValue access v) Gives (denote lit [.value d] e) := by
  have hevaluable : Evaluable lit shared none w .empty [.value v] [.value d] e := by
    refine ⟨.cons hv .nil, fun depth input hinput _ => ?_, literals, fun _ _ h => by cases h⟩
    cases depth with
    | zero => cases hinput
    | succ depth => cases hinput
  obtain ⟨hleads, hends⟩ := eval_computes reads e _ _ _ _ _ hevaluable w (.refl w) hholds
    (.none w shared)
  exact ⟨shared, fun _ _ h => h, hleads.heap, hleads.holds, hends⟩

end Expr

/-- The value of what an action gives. -/
theorem Settles.intoValue {shared : Shared} {w : World} {m : EvalM Output}
    {r : Except ErrorKind Result} (h : Settles shared w m Gives r) :
    Settles shared w (do (← m).intoValue) (fun _ => World.Shows) (do (← r).intoValue) :=
  h.bind fun _ _ _ _ _ _ hholds hgives => (computes_intoValue hgives).settles hholds

end RecordAlgebra
