import RecordAlgebra.Proofs.Datum.Operations
import RecordAlgebra.Proofs.Item.Shows
import RecordAlgebra.Proofs.Runs
import RecordAlgebra.Proofs.Value.Bare

/-!
# Operations on shown data

The operations on values do with values what the operations on data do with
what the values show.
-/

namespace RecordAlgebra

namespace World

open Datum (ofResult unseen)

variable {w : World} {v u : Value} {d e : Datum}

theorem Shows.bare_eq (h : w.Shows v d) : v.bare = d.bare := by
  induction d using Datum.partsInduction generalizing v with
  | step d ih =>
      cases d with
      | list ds =>
          obtain ⟨vs, rfl, hvs⟩ := shows_list_iff.1 h
          simp only [Value.bare, Datum.bare, Value.bares_eq_map, Datum.bares_eq_map]
          rw [map_eq_map_of_forall₂ (forall₂_mp hvs fun d hd v hv => ih d hd hv)]
      | record ds =>
          obtain ⟨vs, rfl, -, hvs⟩ := shows_record_iff.1 h
          have hfields := forall₂_field_mp hvs fun d hd v hv => ih d hd hv
          simp only [Value.bare, Datum.bare, Value.bareFields_eq_map, Datum.bareFields_eq_map]
          congr 1
          refine map_eq_map_of_forall₂ (hfields.imp ?_)
          rintro ⟨name, v⟩ ⟨other, d⟩ ⟨rfl, hbare⟩
          simp only [hbare]
      | item source ds =>
          obtain ⟨ref, vs, rfl, hsource, -⟩ := shows_item_iff.1 h
          rw [Value.bare, hsource, Datum.bare]
      | _ =>
          simp only [Shows] at h
          subst h
          rfl

theorem bares_eq_of_forall₂ {vs : List Value} {ds : List Datum}
    (h : List.Forall₂ w.Shows vs ds) : Value.bares vs = Datum.bares ds := by
  rw [Value.bares_eq_map, Datum.bares_eq_map]
  exact map_eq_map_of_forall₂ (h.imp fun _ _ hv => hv.bare_eq)

theorem Shows.isNull_eq (h : w.Shows v d) : v.isNull = d.isNull := by
  rw [Datum.isNull, ← h.bare_eq, Value.isNull_bare]

theorem shows_ofValue (w : World) (h : v.isSingle = true) : w.Shows v (.ofValue v) := by
  cases v <;> first | rfl | cases h

/-- Outcomes of one kind of a value that is no list, record or item. -/
theorem agrees_of_ofResult_eq {r r' : Except Error Value} (h : ofResult r = ofResult r')
    (single : ∀ v, r = .ok v → v.isSingle = true) (w : World) :
    Agrees w.Shows r ((ofResult r').map .ofValue) := by
  rw [← h]
  cases r with
  | ok v => exact shows_ofValue w (single v rfl)
  | error e => exact rfl

theorem agrees_of_eq {α : Type} {r r' : Except Error α} (h : ofResult r = ofResult r') :
    Agrees Eq r (ofResult r') := by
  rw [← h]
  cases r <;> exact rfl

section Operations

variable (view : ItemRef → String)

theorem apply_agrees (op : ArithmeticOp) (hv : w.Shows v d) (hu : w.Shows u e) :
    Agrees w.Shows (Value.apply view op v u) (Datum.apply op d e) := by
  by_cases lists : ∃ as bs, op = .add ∧ v = .list as ∧ u = .list bs
  · obtain ⟨as, bs, rfl, rfl, rfl⟩ := lists
    cases d with
    | list ds =>
        cases e with
        | list es =>
            rw [shows_list] at hv hu
            exact shows_list.2 (List.rel_append hv hu)
        | _ => simp [Shows] at hu
    | _ => simp [Shows] at hv
  · have hop : Datum.apply op d e =
        (ofResult (Value.apply unseen op d.bare e.bare)).map .ofValue := by
      unfold Datum.apply
      split
      · obtain ⟨as, rfl, -⟩ := shows_list_iff.1 hv
        obtain ⟨bs, rfl, -⟩ := shows_list_iff.1 hu
        exact absurd ⟨as, bs, rfl, rfl, rfl⟩ lists
      · rfl
    have hlists : ∀ as bs, ¬(op = .add ∧ v = .list as ∧ u = .list bs) :=
      fun as bs h => lists ⟨as, bs, h⟩
    rw [hop, ← hv.bare_eq, ← hu.bare_eq]
    exact agrees_of_ofResult_eq (Value.apply_bare view hlists)
      (fun r hr => Value.isSingle_of_apply hlists hr) w

theorem function_agrees (f : ScalarFunction) (hv : w.Shows v d) :
    Agrees w.Shows (f.apply v) (Datum.function f d) := by
  rw [Datum.function, ← hv.bare_eq]
  exact agrees_of_ofResult_eq (Value.function_bare f v)
    (fun r hr => Value.isSingle_of_function hr) w

theorem predicate_agrees (hv : w.Shows v d) :
    Agrees Eq (v.toPredicate view) (Datum.predicate d) := by
  rw [Datum.predicate, ← hv.bare_eq]
  exact agrees_of_eq (Value.toPredicate_bare view v)

theorem order_agrees (hv : w.Shows v d) (hu : w.Shows u e) :
    Agrees Eq (Value.order v u) (Datum.order d e) := by
  rw [Datum.order, ← hv.bare_eq, ← hu.bare_eq, Value.order_bare]
  exact agrees_of_eq rfl

theorem addToSum_agrees (name : String) {sum : Value} {total : Datum}
    (hsum : w.Shows sum total) (hv : w.Shows v d) :
    Agrees w.Shows (Value.addToSum view name sum v) (Datum.addToSum total d) := by
  cases d with
  | null =>
      cases hv
      exact hsum
  | int n =>
      cases hv
      exact apply_agrees view .add hsum rfl
  | float x =>
      cases hv
      exact apply_agrees view .add hsum rfl
  | list ds =>
      obtain ⟨vs, rfl, -⟩ := shows_list_iff.1 hv
      exact rfl
  | record ds =>
      obtain ⟨vs, rfl, -⟩ := shows_record_iff.1 hv
      exact rfl
  | item source ds =>
      obtain ⟨ref, vs, rfl, -⟩ := shows_item_iff.1 hv
      exact rfl
  | _ =>
      cases hv
      exact rfl

theorem addToMean_agrees (name : String) (mean : Value.Mean) (hv : w.Shows v d) :
    Agrees Eq (mean.add name v) (Datum.addToMean mean d) := by
  rw [Datum.addToMean, ← hv.bare_eq]
  refine agrees_of_eq ?_
  rw [Value.mean_bare]
  cases v <;> rfl

/-- The best value so far shows the best datum so far. -/
def ShowsOption (w : World) : Option Value → Option Datum → Prop
  | none, none => True
  | some v, some d => w.Shows v d
  | _, _ => False

theorem ShowsOption.mono {w' : World} {best : Option Value} {best' : Option Datum}
    (h : w.ShowsOption best best') (hw : w.Extends w') : w'.ShowsOption best best' := by
  cases best with
  | none =>
      cases best' with
      | none => trivial
      | some d => exact h.elim
  | some v =>
      cases best' with
      | none => exact h.elim
      | some d => exact Shows.mono h hw

theorem better_agrees (wanted : Ordering) {best : Option Value} {best' : Option Datum}
    (hbest : w.ShowsOption best best') (hv : w.Shows v d) :
    Agrees w.ShowsOption (Value.better wanted best v) (Datum.better wanted best' d) := by
  unfold Value.better Datum.better
  rw [hv.isNull_eq]
  split
  · exact hbest
  · cases best with
    | none =>
        cases best' with
        | none => exact hv
        | some => exact hbest.elim
    | some current =>
        cases best' with
        | none => exact hbest.elim
        | some current' =>
            refine (order_agrees hv hbest).bind ?_
            rintro o _ rfl
            split
            · exact hv
            · exact hbest

theorem addToCount_eq (skipNulls : Bool) (n : Nat) (hv : w.Shows v d) :
    Value.addToCount skipNulls n v = Datum.addToCount skipNulls n d := by
  rw [Datum.addToCount, ← hv.bare_eq, ← Value.addToCount_bare]

end Operations

end World

end RecordAlgebra
