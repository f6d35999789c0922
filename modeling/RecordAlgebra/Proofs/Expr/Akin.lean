import RecordAlgebra.Expr.Equality
import RecordAlgebra.Proofs.Expr.Parts
import RecordAlgebra.Proofs.Expr.Twins
import RecordAlgebra.Proofs.Item.Live

/-!
# Comparing expressions

Expressions are compared node by node, and their literals as values. Values may be equal that
operations tell apart: an integer and a double, or items of the same identity. Without such
literals the comparison finds twins.
-/

namespace RecordAlgebra

/-- A pattern of the function is what its text is read as. -/
def ScalarFunction.IsRead (f : ScalarFunction) : Prop :=
  ∀ pattern, f = .matches pattern → Pattern.ofText pattern.text = .ok pattern

theorem ScalarFunction.eq_of_same {f g : ScalarFunction} (hf : f.IsRead) (hg : g.IsRead)
    (h : f.same g = true) : f = g := by
  cases f with
  | «matches» a =>
      cases g with
      | «matches» b =>
          have htext : a.text = b.text := by simpa [same, Pattern.same] using h
          have ha := hf a rfl
          rw [htext, hg b rfl, Except.ok.injEq] at ha
          rw [ha]
      | _ => cases h
  | _ => cases g <;> first | rfl | cases h

namespace Expr

/-- The literals of the expressions are shown and kin to one another at the same places, and
their patterns are read from texts. -/
structure Akin (lit : Value → Datum) (w : World) (e e' : Expr) : Prop where
  shown : ∀ v, e.HasLiteral v → w.Shows v (lit v)
  shown' : ∀ v, e'.HasLiteral v → w.Shows v (lit v)
  kin : ∀ path v u, e.node? path = some (.literal v) → e'.node? path = some (.literal u) →
    (lit v).Kin (lit u)
  read : ∀ path f input, e.node? path = some (.function f input) → f.IsRead
  read' : ∀ path f input, e'.node? path = some (.function f input) → f.IsRead

variable {lit : Value → Datum} {w : World} {e e' : Expr}

theorem node?_part {position : Nat} {part : Expr × ChildScope}
    (h : e.children[position]? = some part) (path : Path) :
    e.node? (position :: path) = part.1.node? path := by
  rw [node?, h]

theorem Akin.part (h : Akin lit w e e') (position : Nat) {part part' : Expr × ChildScope}
    (hpart : e.children[position]? = some part) (hpart' : e'.children[position]? = some part') :
    Akin lit w part.1 part'.1 where
  shown v hv := h.shown v (hv.part (List.mem_of_getElem? hpart))
  shown' v hv := h.shown' v (hv.part (List.mem_of_getElem? hpart'))
  kin path v u hv hu := h.kin (position :: path) v u ((node?_part hpart path).trans hv)
    ((node?_part hpart' path).trans hu)
  read path f input hf := h.read (position :: path) f input ((node?_part hpart path).trans hf)
  read' path f input hf := h.read' (position :: path) f input ((node?_part hpart' path).trans hf)

theorem run_andThen {a b : EvalM Bool} {w' : World} (h : (andThen a b).run w = (.ok true, w')) :
    ∃ w₁, a.run w = (.ok true, w₁) ∧ b.run w₁ = (.ok true, w') := by
  obtain ⟨found, w₁, ha, h⟩ := EvalM.exists_of_run_bind h
  cases found with
  | true => exact ⟨w₁, ha, h⟩
  | false => cases h

theorem run_pure_true {b : Bool} {w' : World}
    (h : (pure b : EvalM Bool).run w = (.ok true, w')) : b = true ∧ w' = w := by
  cases h
  exact ⟨rfl, rfl⟩

/-- If the expressions are found to be the same, nothing has changed and they are twins. -/
def FoundTwins (lit : Value → Datum) (w : World) (e e' : Expr) : Prop :=
  ∀ w', (same ItemAccess.live.equal e e').run w = (.ok true, w') → w' = w ∧ Twin lit e e'

/-- Different nodes are not the same. -/
theorem foundTwins_of_ctorIdx_ne (h : (e.ctorIdx == e'.ctorIdx) = false) :
    FoundTwins lit w e e' := by
  intro w' hrun
  rw [same.eq_def] at hrun
  split at hrun
  all_goals first | cases hrun | cases h

section Lists

variable {w' : World}

theorem FoundTwins.andThen (h : FoundTwins lit w e e') {m : EvalM Bool}
    (hrun : (andThen (same ItemAccess.live.equal e e') m).run w = (.ok true, w')) :
    Twin lit e e' ∧ m.run w = (.ok true, w') := by
  obtain ⟨w₁, hsame, hm⟩ := run_andThen hrun
  obtain ⟨rfl, htwin⟩ := h w₁ hsame
  exact ⟨htwin, hm⟩

theorem twins_of_sameAll {as bs : List Expr}
    (step : ∀ (i : Nat) (h : i < as.length) (h' : i < bs.length), FoundTwins lit w as[i] bs[i])
    (h : (sameAll ItemAccess.live.equal as bs).run w = (.ok true, w')) :
    w' = w ∧ List.Forall₂ (Twin lit) as bs := by
  induction as generalizing bs with
  | nil =>
      cases bs with
      | nil =>
          rw [sameAll] at h
          exact ⟨(run_pure_true h).2, .nil⟩
      | cons b bs =>
          simp only [sameAll] at h
          cases h
  | cons a as ih =>
      cases bs with
      | nil =>
          simp only [sameAll] at h
          cases h
      | cons b bs =>
          rw [sameAll] at h
          obtain ⟨hfirst, h⟩ := (step 0 (by simp) (by simp)).andThen h
          obtain ⟨hw, hrest⟩ := ih (fun i hi hi' =>
            step (i + 1) (Nat.succ_lt_succ hi) (Nat.succ_lt_succ hi')) h
          exact ⟨hw, .cons hfirst hrest⟩

theorem twins_of_sameFields {as bs : List (String × Expr)}
    (step : ∀ (i : Nat) (h : i < as.length) (h' : i < bs.length),
      FoundTwins lit w as[i].2 bs[i].2)
    (h : (sameFields ItemAccess.live.equal as bs).run w = (.ok true, w')) :
    w' = w ∧ List.Forall₂ (fun a b => a.1 = b.1 ∧ Twin lit a.2 b.2) as bs := by
  induction as generalizing bs with
  | nil =>
      cases bs with
      | nil =>
          rw [sameFields] at h
          exact ⟨(run_pure_true h).2, .nil⟩
      | cons b bs =>
          simp only [sameFields] at h
          cases h
  | cons a as ih =>
      cases bs with
      | nil =>
          simp only [sameFields] at h
          cases h
      | cons b bs =>
          rw [sameFields] at h
          split at h
          · next hname =>
            obtain ⟨hfirst, h⟩ := (step 0 (by simp) (by simp)).andThen h
            obtain ⟨hw, hrest⟩ := ih (fun i hi hi' =>
              step (i + 1) (Nat.succ_lt_succ hi) (Nat.succ_lt_succ hi')) h
            exact ⟨hw, .cons ⟨beq_iff_eq.1 hname, hfirst⟩ hrest⟩
          · cases h

theorem twins_of_sameKeys {as bs : List (Expr × Direction)}
    (step : ∀ (i : Nat) (h : i < as.length) (h' : i < bs.length),
      FoundTwins lit w as[i].1 bs[i].1)
    (h : (sameKeys ItemAccess.live.equal as bs).run w = (.ok true, w')) :
    w' = w ∧ List.Forall₂ (fun a b => Twin lit a.1 b.1 ∧ a.2 = b.2) as bs := by
  induction as generalizing bs with
  | nil =>
      cases bs with
      | nil =>
          rw [sameKeys] at h
          exact ⟨(run_pure_true h).2, .nil⟩
      | cons b bs =>
          simp only [sameKeys] at h
          cases h
  | cons a as ih =>
      cases bs with
      | nil =>
          simp only [sameKeys] at h
          cases h
      | cons b bs =>
          rw [sameKeys] at h
          obtain ⟨hfirst, h⟩ := (step 0 (by simp) (by simp)).andThen h
          split at h
          · next hdirection =>
            obtain ⟨hw, hrest⟩ := ih (fun i hi hi' =>
              step (i + 1) (Nat.succ_lt_succ hi) (Nat.succ_lt_succ hi')) h
            exact ⟨hw, .cons ⟨hfirst, beq_iff_eq.1 hdirection⟩ hrest⟩
          · cases h

theorem andThen_sameOption {p q : Option Expr} {m : EvalM Bool}
    (step : ∀ b b', p = some b → q = some b' → FoundTwins lit w b b')
    (h : (andThen (sameOption ItemAccess.live.equal p q) m).run w = (.ok true, w')) :
    ((p = none ∧ q = none) ∨ ∃ b b', p = some b ∧ q = some b' ∧ Twin lit b b') ∧
      m.run w = (.ok true, w') := by
  cases p with
  | none =>
      cases q with
      | none =>
          rw [sameOption] at h
          obtain ⟨w₁, hnone, hrest⟩ := run_andThen h
          obtain ⟨-, rfl⟩ := run_pure_true hnone
          exact ⟨.inl ⟨rfl, rfl⟩, hrest⟩
      | some b' =>
          simp only [sameOption] at h
          cases h
  | some b =>
      cases q with
      | none =>
          simp only [sameOption] at h
          cases h
      | some b' =>
          rw [sameOption] at h
          obtain ⟨htwin, hrest⟩ := (step b b' rfl rfl).andThen h
          exact ⟨.inr ⟨b, b', rfl, rfl, htwin⟩, hrest⟩

end Lists

section Nodes

variable {a b c a' b' c' : Expr} {s t : DataType}

theorem context_found {n k : Nat} : FoundTwins lit w (.context n s) (.context k t) := by
  intro w' hrun
  rw [same.eq_def] at hrun
  obtain ⟨hsame, rfl⟩ := run_pure_true hrun
  rw [Bool.and_eq_true, beq_iff_eq] at hsame
  exact ⟨rfl, hsame.1 ▸ .context⟩

theorem literal_found {v u : Value} (h : Akin lit w (.literal v) (.literal u)) :
    FoundTwins lit w (.literal v) (.literal u) := by
  intro w' hrun
  have hequal := Value.equal_reads ItemAccess.live_readsLoaded
    (h.shown v (hasLiteral_self v)) (h.shown' u (hasLiteral_self u))
  rw [same.eq_def] at hrun
  rw [hequal, Prod.mk.injEq, Except.ok.injEq] at hrun
  exact ⟨hrun.2.symm, .literal ((h.kin [] v u rfl rfl).twin hrun.1)⟩

theorem field_found {name other : String} (h : FoundTwins lit w a a') :
    FoundTwins lit w (.field a name s) (.field a' other t) := by
  intro w' hrun
  rw [same.eq_def] at hrun
  obtain ⟨htwin, hrest⟩ := h.andThen hrun
  obtain ⟨hsame, rfl⟩ := run_pure_true hrest
  rw [Bool.and_eq_true, beq_iff_eq] at hsame
  exact ⟨rfl, hsame.1 ▸ .field htwin⟩

theorem comparison_found {op op' : ComparisonOp} (h : FoundTwins lit w a a')
    (h' : FoundTwins lit w b b') :
    FoundTwins lit w (.comparison op a b) (.comparison op' a' b') := by
  intro w' hrun
  rw [same.eq_def] at hrun
  obtain ⟨hleft, hrest⟩ := h.andThen hrun
  obtain ⟨hright, hlast⟩ := h'.andThen hrest
  obtain ⟨hop, rfl⟩ := run_pure_true hlast
  rw [beq_iff_eq.1 hop]
  exact ⟨rfl, .comparison hleft hright⟩

theorem boolean_found {op op' : BooleanOp} {as bs : List Expr}
    (h : ∀ (i : Nat) (h : i < as.length) (h' : i < bs.length), FoundTwins lit w as[i] bs[i]) :
    FoundTwins lit w (.boolean op as) (.boolean op' bs) := by
  intro w' hrun
  rw [same.eq_def] at hrun
  dsimp only at hrun
  split at hrun
  · next hop =>
    obtain ⟨hw, htwins⟩ := twins_of_sameAll h hrun
    obtain ⟨hlength, htwins⟩ := List.forall₂_iff_get.1 htwins
    rw [beq_iff_eq.1 hop]
    exact ⟨hw, .boolean hlength htwins⟩
  · cases hrun

theorem negation_found {op op' : NegationOp} (h : FoundTwins lit w a a') :
    FoundTwins lit w (.negation op a) (.negation op' a') := by
  intro w' hrun
  rw [same.eq_def] at hrun
  dsimp only at hrun
  split at hrun
  · next hop =>
    obtain ⟨hw, htwin⟩ := h w' hrun
    rw [beq_iff_eq.1 hop]
    exact ⟨hw, .negation htwin⟩
  · cases hrun

theorem arithmetic_found {op op' : ArithmeticOp} (h : FoundTwins lit w a a')
    (h' : FoundTwins lit w b b') :
    FoundTwins lit w (.arithmetic op a b s) (.arithmetic op' a' b' t) := by
  intro w' hrun
  rw [same.eq_def] at hrun
  dsimp only at hrun
  split at hrun
  · next hop =>
    obtain ⟨hleft, hrest⟩ := h.andThen hrun
    obtain ⟨hright, htype⟩ := h'.andThen hrest
    rw [beq_iff_eq.1 hop]
    exact ⟨(run_pure_true htype).2, .arithmetic hleft hright⟩
  · cases hrun

theorem merge_found (h : FoundTwins lit w a a') (h' : FoundTwins lit w b b') :
    FoundTwins lit w (.merge a b s) (.merge a' b' t) := by
  intro w' hrun
  rw [same.eq_def] at hrun
  obtain ⟨hleft, hrest⟩ := h.andThen hrun
  obtain ⟨hright, htype⟩ := h'.andThen hrest
  exact ⟨(run_pure_true htype).2, .merge hleft hright⟩

theorem record_found {as bs : List (String × Expr)}
    (h : ∀ (i : Nat) (h : i < as.length) (h' : i < bs.length), FoundTwins lit w as[i].2 bs[i].2) :
    FoundTwins lit w (.record as s) (.record bs t) := by
  intro w' hrun
  rw [same.eq_def] at hrun
  obtain ⟨w₁, hfields, htype⟩ := run_andThen hrun
  obtain ⟨rfl, htwins⟩ := twins_of_sameFields h hfields
  obtain ⟨hlength, htwins⟩ := List.forall₂_iff_get.1 htwins
  exact ⟨(run_pure_true htype).2, .record hlength (fun i hi hi' => (htwins i hi hi').1)
    fun i hi hi' => (htwins i hi hi').2⟩

theorem function_found {f g : ScalarFunction} (hf : f.IsRead) (hg : g.IsRead)
    (h : FoundTwins lit w a a') : FoundTwins lit w (.function f a) (.function g a') := by
  intro w' hrun
  rw [same.eq_def] at hrun
  dsimp only at hrun
  split at hrun
  · next hsame =>
    obtain ⟨hw, htwin⟩ := h w' hrun
    rw [ScalarFunction.eq_of_same hf hg hsame]
    exact ⟨hw, .function htwin⟩
  · cases hrun

theorem filter_found (h : FoundTwins lit w a a') (h' : FoundTwins lit w b b') :
    FoundTwins lit w (.filter a b) (.filter a' b') := by
  intro w' hrun
  rw [same.eq_def] at hrun
  obtain ⟨hsource, hrest⟩ := h.andThen hrun
  obtain ⟨hw, hpredicate⟩ := h' w' hrest
  exact ⟨hw, .filter hsource hpredicate⟩

theorem map_found (h : FoundTwins lit w a a') (h' : FoundTwins lit w b b') :
    FoundTwins lit w (.map a b s) (.map a' b' t) := by
  intro w' hrun
  rw [same.eq_def] at hrun
  obtain ⟨hsource, hrest⟩ := h.andThen hrun
  obtain ⟨hprojection, htype⟩ := h'.andThen hrest
  exact ⟨(run_pure_true htype).2, .map hsource hprojection⟩

theorem sort_found {as bs : List (Expr × Direction)} (h : FoundTwins lit w a a')
    (h' : ∀ (i : Nat) (h : i < as.length) (h' : i < bs.length),
      FoundTwins lit w as[i].1 bs[i].1) : FoundTwins lit w (.sort a as) (.sort a' bs) := by
  intro w' hrun
  rw [same.eq_def] at hrun
  obtain ⟨hsource, hkeys⟩ := h.andThen hrun
  obtain ⟨hw, htwins⟩ := twins_of_sameKeys h' hkeys
  refine ⟨hw, .sort hsource ?_ fun i hi hi' => ?_⟩
  · exact map_eq_map_of_forall₂ (htwins.imp fun _ _ hkey => hkey.2)
  · exact ((List.forall₂_iff_get.1 htwins).2 i hi hi').1

theorem groupBy_found (h : FoundTwins lit w a a') (h' : FoundTwins lit w b b')
    (h'' : FoundTwins lit w c c') :
    FoundTwins lit w (.groupBy a b c s) (.groupBy a' b' c' t) := by
  intro w' hrun
  rw [same.eq_def] at hrun
  obtain ⟨hsource, hrest⟩ := h.andThen hrun
  obtain ⟨hkey, hlast⟩ := h'.andThen hrest
  obtain ⟨htotal, htype⟩ := h''.andThen hlast
  exact ⟨(run_pure_true htype).2, .groupBy hsource hkey htotal⟩

theorem aggregate_found {op op' : AggregateOp} {p q : Option Expr} (h : FoundTwins lit w a a')
    (h' : ∀ b b', p = some b → q = some b' → FoundTwins lit w b b') :
    FoundTwins lit w (.aggregate op a p s) (.aggregate op' a' q t) := by
  intro w' hrun
  rw [same.eq_def] at hrun
  dsimp only at hrun
  split at hrun
  · next hop =>
    obtain ⟨hsource, hrest⟩ := h.andThen hrun
    obtain ⟨hprojection, htype⟩ := andThen_sameOption h' hrest
    rw [beq_iff_eq.1 hop]
    refine ⟨(run_pure_true htype).2, ?_⟩
    rcases hprojection with ⟨rfl, rfl⟩ | ⟨b, b', rfl, rfl, hprojection⟩
    · exact .aggregateAll hsource
    · exact .aggregateOf hsource hprojection
  · cases hrun

theorem distinct_found (h : FoundTwins lit w a a') :
    FoundTwins lit w (.distinct a) (.distinct a') := by
  intro w' hrun
  rw [same.eq_def] at hrun
  obtain ⟨hw, htwin⟩ := h w' hrun
  exact ⟨hw, .distinct htwin⟩

theorem slice_found {start start' : Nat} {stop stop' : Option Nat} (h : FoundTwins lit w a a') :
    FoundTwins lit w (.slice a start stop) (.slice a' start' stop') := by
  intro w' hrun
  rw [same.eq_def] at hrun
  obtain ⟨hsource, hrest⟩ := h.andThen hrun
  obtain ⟨hbounds, rfl⟩ := run_pure_true hrest
  rw [Bool.and_eq_true, beq_iff_eq, beq_iff_eq] at hbounds
  rw [hbounds.1, hbounds.2]
  exact ⟨rfl, .slice hsource⟩

theorem one_found {p q : Option Expr} (h : FoundTwins lit w a a')
    (h' : ∀ b b', p = some b → q = some b' → FoundTwins lit w b b') :
    FoundTwins lit w (.one a p s) (.one a' q t) := by
  intro w' hrun
  rw [same.eq_def] at hrun
  obtain ⟨hsource, hrest⟩ := h.andThen hrun
  obtain ⟨hdefault, htype⟩ := andThen_sameOption h' hrest
  refine ⟨(run_pure_true htype).2, ?_⟩
  rcases hdefault with ⟨rfl, rfl⟩ | ⟨b, b', rfl, rfl, hdefault⟩
  · exact .one hsource
  · exact .oneOr hsource hdefault

end Nodes

theorem childAt {α : Type} {xs : List α} {f : α → Expr × ChildScope} {i : Nat}
    (h : i < xs.length) : (xs.map f)[i]? = some (f xs[i]) := by
  rw [List.getElem?_map, List.getElem?_eq_getElem h, Option.map_some]

/-- The comparison of akin expressions finds twins. -/
theorem Akin.foundTwins (h : Akin lit w e e') : FoundTwins lit w e e' := by
  induction e using childInduction generalizing e' with
  | step e ih =>
      have part (position : Nat) {a b : Expr} {s t : ChildScope}
          (hpart : e.children[position]? = some (a, s))
          (hpart' : e'.children[position]? = some (b, t)) : FoundTwins lit w a b :=
        ih (a, s) (List.mem_of_getElem? hpart) (h.part position hpart hpart')
      cases e with
      | context =>
          cases e' with
          | context =>
              exact context_found
          | _ => exact foundTwins_of_ctorIdx_ne rfl
      | literal =>
          cases e' with
          | literal =>
              exact literal_found h
          | _ => exact foundTwins_of_ctorIdx_ne rfl
      | field =>
          cases e' with
          | field =>
              exact field_found (part 0 rfl rfl)
          | _ => exact foundTwins_of_ctorIdx_ne rfl
      | comparison =>
          cases e' with
          | comparison =>
              exact comparison_found (part 0 rfl rfl) (part 1 rfl rfl)
          | _ => exact foundTwins_of_ctorIdx_ne rfl
      | boolean =>
          cases e' with
          | boolean =>
              exact boolean_found fun i hi hi' => part i (childAt hi) (childAt hi')
          | _ => exact foundTwins_of_ctorIdx_ne rfl
      | negation =>
          cases e' with
          | negation =>
              exact negation_found (part 0 rfl rfl)
          | _ => exact foundTwins_of_ctorIdx_ne rfl
      | arithmetic =>
          cases e' with
          | arithmetic =>
              exact arithmetic_found (part 0 rfl rfl) (part 1 rfl rfl)
          | _ => exact foundTwins_of_ctorIdx_ne rfl
      | merge =>
          cases e' with
          | merge =>
              exact merge_found (part 0 rfl rfl) (part 1 rfl rfl)
          | _ => exact foundTwins_of_ctorIdx_ne rfl
      | record =>
          cases e' with
          | record =>
              exact record_found fun i hi hi' => part i (childAt hi) (childAt hi')
          | _ => exact foundTwins_of_ctorIdx_ne rfl
      | function =>
          cases e' with
          | function =>
              exact function_found (h.read [] _ _ rfl) (h.read' [] _ _ rfl) (part 0 rfl rfl)
          | _ => exact foundTwins_of_ctorIdx_ne rfl
      | filter =>
          cases e' with
          | filter =>
              exact filter_found (part 0 rfl rfl) (part 1 rfl rfl)
          | _ => exact foundTwins_of_ctorIdx_ne rfl
      | map =>
          cases e' with
          | map =>
              exact map_found (part 0 rfl rfl) (part 1 rfl rfl)
          | _ => exact foundTwins_of_ctorIdx_ne rfl
      | sort =>
          cases e' with
          | sort =>
              exact sort_found (part 0 rfl rfl) fun i hi hi' =>
                part (i + 1) (childAt hi) (childAt hi')
          | _ => exact foundTwins_of_ctorIdx_ne rfl
      | groupBy =>
          cases e' with
          | groupBy =>
              exact groupBy_found (part 0 rfl rfl) (part 1 rfl rfl) (part 2 rfl rfl)
          | _ => exact foundTwins_of_ctorIdx_ne rfl
      | aggregate =>
          cases e' with
          | aggregate =>
              exact aggregate_found (part 0 rfl rfl) fun b b' hp hq =>
                part 1 (by rw [hp]; rfl) (by rw [hq]; rfl)
          | _ => exact foundTwins_of_ctorIdx_ne rfl
      | distinct =>
          cases e' with
          | distinct =>
              exact distinct_found (part 0 rfl rfl)
          | _ => exact foundTwins_of_ctorIdx_ne rfl
      | slice =>
          cases e' with
          | slice =>
              exact slice_found (part 0 rfl rfl)
          | _ => exact foundTwins_of_ctorIdx_ne rfl
      | one =>
          cases e' with
          | one =>
              exact one_found (part 0 rfl rfl) fun b b' hp hq =>
                part 1 (by rw [hp]; rfl) (by rw [hq]; rfl)
          | _ => exact foundTwins_of_ctorIdx_ne rfl

end Expr

end RecordAlgebra
