import RecordAlgebra.Expr.Build
import RecordAlgebra.Proofs.Eval.Running
import RecordAlgebra.Proofs.Expr.Akin

/-!
# Exchanging expressions

An expression can be exchanged for one that it is found to be the same as, if their literals
tell integers from doubles and hold the same items: both end with equal values, element by
element, or with errors of the same kind.
-/

namespace RecordAlgebra

open Datum.Elements (ofData)

namespace Result

/-- Equal values, or sequences that are equal element by element, errors by their kind. -/
def Equal : Result → Result → Prop
  | .value d, .value e => d.equal e = true
  | .sequence xs, .sequence ys => List.Forall₂ (Concur fun d e => d.equal e = true) xs ys
  | _, _ => False

theorem Twin.equal {r t : Result} (h : r.Twin t) : r.Equal t := by
  cases r with
  | value d =>
      cases t with
      | value e =>
          have htwin : d.Twin e := h
          exact htwin.equal
      | sequence ys => exact h.elim
  | sequence xs =>
      cases t with
      | value e => exact h.elim
      | sequence ys =>
          have htwins : Datum.Elements.Twins xs ys := h
          exact htwins.imp fun x y hxy => hxy.mono fun _ _ htwin => htwin.equal

end Result

/-- What a sequence yields is formed. -/
theorem Yields.isFormed {w : World} {s : Sequence} {data : List Datum}
    (h : Yields .empty w s (ofData data)) : ∀ d ∈ data, d.IsFormed := by
  induction data generalizing w s with
  | nil => simp
  | cons d data ih =>
      obtain ⟨-, hends⟩ := h.2 w (.refl w) (fun _ _ hnone => by cases hnone) (.none w .empty)
      cases hnext : (s.next.run w).1 with
      | error stop =>
          rw [hnext] at hends
          cases stop <;> exact hends.elim
      | ok next =>
          rw [hnext] at hends
          obtain ⟨element, rest, -, hd, hrest⟩ := nextYields_cons.1 hends
          cases element with
          | error e => exact hd.elim
          | ok v =>
              have hshows : World.Shows _ v d := hd
              exact List.forall_mem_cons.2 ⟨hshows.isFormed, ih hrest⟩

namespace Expr

/-- Runs from one state end with equal outcomes, and with such as nothing tells apart. -/
def EndAlike (shared : Shared) (w : World) (m m' : EvalM Output) : Prop :=
  ∃ r r', Settles shared w m Gives r ∧ Settles shared w m' Gives r' ∧ Concur Result.Twin r r' ∧
    Concur Result.Equal r r'

/-- Expressions that are found to be the same are interchangeable, over whatever input. -/
theorem interchangeable {lit : Value → Datum} {shared : Shared} {w w' : World} {e e' : Expr}
    (hholds : w.Holds shared) (akin : Akin lit w e e')
    (hsame : (same ItemAccess.live.equal e e').run w = (.ok true, w')) :
    (∀ s data, Yields .empty w s (ofData data) →
      EndAlike shared w (e.run ItemAccess.live s) (e'.run ItemAccess.live s)) ∧
    ∀ v d, w.Shows v d →
      EndAlike shared w (e.runValue ItemAccess.live v) (e'.runValue ItemAccess.live v) := by
  obtain ⟨-, htwin⟩ := akin.foundTwins w' hsame
  have reads := ItemAccess.live_readsLoaded
  refine ⟨fun s data hs => ?_, fun v d hv => ?_⟩
  · have hdata : List.Forall₂ Datum.Twin data data :=
      List.forall₂_same.2 fun d hd => .refl (hs.isFormed d hd)
    have hconcur := htwin.meansAlike [.input data] [.input data] (.cons hdata .nil)
    exact ⟨_, _, run_settles reads hholds hs akin.shown, run_settles reads hholds hs akin.shown',
      hconcur, hconcur.mono fun _ _ => Result.Twin.equal⟩
  · have hd : Datum.Twin d d := .refl hv.isFormed
    have hconcur := htwin.meansAlike [.value d] [.value d] (.cons hd .nil)
    exact ⟨_, _, runValue_settles reads hholds hv akin.shown,
      runValue_settles reads hholds hv akin.shown', hconcur,
      hconcur.mono fun _ _ => Result.Twin.equal⟩

/-- Fields that are added to a record, in both orders and with both zeros. -/
theorem interchangeable_zeros :
    let fields : Value := .record [("a", .int 1), ("b", .float (.ofBits 0))]
    let others : Value := .record [("b", .float (.ofBits 0x8000000000000000)), ("a", .int 1)]
    let added (v : Value) : Expr := .merge (.context 0 .any) (.literal v) .any
    let input : Value := .record [("c", .bool true)]
    (same ItemAccess.live.equal (added fields) (added others)).run {} = (.ok true, {}) ∧
      EndAlike .empty {} ((added fields).runValue ItemAccess.live input)
        ((added others).runValue ItemAccess.live input) := by
  intro fields others added input
  have nodes (v : Value) (path : Path) (node : Expr) (h : (added v).node? path = some node) :
      node = added v ∨ node = .context 0 .any ∨ node = .literal v := by
    rcases path with _ | ⟨_ | _ | position, _ | ⟨next, path⟩⟩ <;>
      simp_all [node?, children, added]
  have literals (v u : Value) (path : Path) (h : (added v).node? path = some (.literal u)) :
      u = v := by
    rcases nodes v path _ h with h | h | h <;> cases h
    rfl
  have functions (v : Value) (path : Path) (f : ScalarFunction) (part : Expr)
      (h : (added v).node? path = some (.function f part)) : f.IsRead := by
    rcases nodes v path _ h with h | h | h <;> cases h
  have shown {r : Fields Value} (hdistinct : r.names.Nodup)
      (hsingle : ∀ field ∈ r, field.2.isSingle = true) :
      World.Shows {} (.record r) (.ofValue (.record r)) :=
    Value.IsData.shows (.record hdistinct fun field hfield => .single (hsingle field hfield)) {}
  have hfields : World.Shows {} fields (.ofValue fields) :=
    shown (by decide) (by simp [Value.isSingle])
  have hothers : World.Shows {} others (.ofValue others) :=
    shown (by decide) (by simp [Value.isSingle])
  have hkin : (Datum.ofValue fields).Kin (.ofValue others) := by
    refine .record (by decide) fun name a b ha hb => ?_
    have hmem := Fields.mem_of_get? ha
    simp only [Datum.ofFields, List.mem_cons, Prod.mk.injEq, List.not_mem_nil, or_false] at hmem
    rcases hmem with ⟨rfl, rfl⟩ | ⟨rfl, rfl⟩ <;> cases hb <;> exact .single rfl rfl
  have hakin : Akin Datum.ofValue {} (added fields) (added others) := by
    refine ⟨?_, ?_, ?_, functions fields, functions others⟩
    · rintro v ⟨path, hpath⟩
      exact literals fields v path hpath ▸ hfields
    · rintro v ⟨path, hpath⟩
      exact literals others v path hpath ▸ hothers
    · intro path v u hv hu
      rw [literals fields v path hv, literals others u path hu]
      exact hkin
  have hsame : (same ItemAccess.live.equal (added fields) (added others)).run {} =
      (.ok true, {}) := by
    simp only [same, added]
    rfl
  have hholds : World.Holds {} .empty := fun _ _ h => by cases h
  refine ⟨hsame, (interchangeable hholds hakin hsame).2 input (.ofValue input) ?_⟩
  exact shown (by decide) (by simp [Value.isSingle])

/-- A sum with an integer and one with the double that equals it. -/
theorem same_sums_differ :
    let integer : Value := .int 9007199254740993
    let double : Value := .float (.ofBits 0x4340000000000000)
    let sum (v : Value) : Expr := .arithmetic .add (outer 0) (.literal v) .any
    mkArithmetic (fun _ => "") .add (outer 0) (.literal integer) = .ok (sum integer) ∧
      mkArithmetic (fun _ => "") .add (outer 0) (.literal double) = .ok (sum double) ∧
      (same ItemAccess.live.equal (sum integer) (sum double)).run {} = (.ok true, {}) ∧
      ((sum integer).runValue ItemAccess.live (.int 1)).run {} =
        (.ok (.value (.int 9007199254740994)), {}) ∧
      ((sum double).runValue ItemAccess.live (.int 1)).run {} = (.ok (.value double), {}) ∧
      (Value.equal ItemAccess.live.equal (.int 9007199254740994) double).run {} =
        (.ok false, {}) := by
  refine ⟨rfl, rfl, ?_, rfl, rfl, rfl⟩
  simp only [same, outer]
  rfl

end Expr

end RecordAlgebra
