import RecordAlgebra.Proofs.Sequence.Yields

/-!
# What stages do

Filters and projections treat every element alike. Distinct elements depend on
those that came before, and a window counts them.
-/

namespace RecordAlgebra

namespace World

/-- The key of a value that shows the datum. -/
def ShowsKey (w : World) (key : Value.Key) (d : Datum) : Prop :=
  w.Shows key.value d ∧ key.digest = d.digest

theorem ShowsKey.mono {w w' : World} {key : Value.Key} {d : Datum} (h : w.ShowsKey key d)
    (hw : w.Extends w') : w'.ShowsKey key d :=
  ⟨h.1.mono hw, h.2⟩

section

variable {access : ItemAccess EvalM} (reads : access.ReadsLoaded) {w : World}

include reads

theorem keyEqual_run {a b : Value.Key} {d e : Datum} (ha : w.ShowsKey a d)
    (hb : w.ShowsKey b e) : (a.equal access b).run w = (.ok (Datum.sameKey d e), w) := by
  rw [Value.Key.equal, ha.2, hb.2, Datum.sameKey]
  cases d.digest.same e.digest with
  | true => exact Value.equal_reads reads ha.1 hb.1
  | false => rfl

theorem computes_toKey {shared : Shared} {once : Option Nat} {v : Value} {d : Datum}
    (hv : w.Shows v d) : Computes shared once w (v.toKey access) ShowsKey (.ok d) := by
  refine .of_reads fun w' hw => ⟨.ok { value := v, digest := d.digest }, ?_, hv.mono hw, rfl⟩
  rw [Value.toKey, EvalM.run_bind_ok (Value.digest_reads reads (hv.mono hw))]
  rfl

end

end World

namespace Stage

variable {shared : Shared}

/-- A filter whose predicate computes the truth of data. -/
def IsFilter (shared : Shared) (w : World) (stage : Stage)
    (F : List Datum.Element → List Datum.Element) : Prop :=
  ∃ keep p, stage = .filter keep ∧ F = Datum.Elements.filter p ∧
    ∀ w' v d, w.Extends w' → w'.Shows v d →
      Computes shared none w' (keep v) (fun _ => Eq) (p d)

def IsMap (shared : Shared) (w : World) (stage : Stage)
    (F : List Datum.Element → List Datum.Element) : Prop :=
  ∃ project f, stage = .map project ∧ F = Datum.Elements.map f ∧
    ∀ w' v d, w.Extends w' → w'.Shows v d →
      Computes shared none w' (project v) World.Shows (f d)

/-- The keys seen so far are those of the data seen so far. -/
def IsDistinct (access : ItemAccess EvalM) (w : World) (stage : Stage)
    (F : List Datum.Element → List Datum.Element) : Prop :=
  ∃ seen data, stage = .distinct access seen ∧ F = Datum.Elements.distinct data ∧
    List.Forall₂ w.ShowsKey seen data

def IsWindow (_ : World) (stage : Stage) (F : List Datum.Element → List Datum.Element) :
    Prop :=
  ∃ start position left, stage = .window start position left ∧
    F = Datum.Elements.window start position left

/-- A stage that never ends, and that passes errors on as it is, implements a function that does
so if it does with values what the function does with data. -/
theorem implements_of_values {P : World → Stage → (List Datum.Element → List Datum.Element) → Prop}
    (mono : ∀ w w' stage F, P w stage F → w.Extends w' → P w' stage F)
    (unspent : ∀ w stage F, P w stage F → stage.isSpent = false ∧ F [] = [])
    (errors : ∀ w stage F, P w stage F →
      (∀ e, stage.push (.error e) = pure (some (.error e), stage)) ∧
        ∀ kind xs, F (.error kind :: xs) = .error kind :: F xs)
    (values : ∀ w stage F, P w stage F → ∀ v d, w.Shows v d →
      Computes shared none w (stage.push (.ok v)) (fun w out (_ : Unit) =>
        ∃ F', P w out.2 F' ∧
          match out.1 with
          | none => ∀ xs, F (.ok d :: xs) = F' xs
          | some result =>
              ∃ y, Agrees w.Shows result y ∧ ∀ xs, F (.ok d :: xs) = y :: F' xs) (.ok ())) :
    Implements shared P where
  mono h := mono _ _ _ _ h
  nil h := (unspent _ _ _ h).2
  spent h hspent := by
    rw [(unspent _ _ _ h).1] at hspent
    cases hspent
  push := by
    intro w stage F h _ element x hx
    cases element with
    | error e =>
        cases x with
        | error kind =>
            rw [(errors w stage F h).1]
            exact .pure fun w' hw => ⟨F, mono _ _ _ _ h hw, .error kind, agrees_shows_mono hx hw,
              (errors w stage F h).2 kind⟩
        | ok d => exact hx.elim
    | ok v =>
        cases x with
        | error kind => exact hx.elim
        | ok d => exact values w stage F h v d hx

theorem isFilter_implements : Implements shared (IsFilter shared) := by
  have mono (w w' : World) (stage : Stage) (F : List Datum.Element → List Datum.Element) :
      IsFilter shared w stage F → w.Extends w' → IsFilter shared w' stage F := by
    rintro ⟨keep, p, rfl, rfl, h⟩ hw
    exact ⟨keep, p, rfl, rfl, fun w'' v d hw' hv => h w'' v d (hw.trans hw') hv⟩
  refine implements_of_values mono ?_ ?_ ?_
  · rintro w _ _ ⟨keep, p, rfl, rfl, h⟩
    exact ⟨rfl, rfl⟩
  · rintro w _ _ ⟨keep, p, rfl, rfl, h⟩
    exact ⟨fun _ => rfl, fun _ _ => rfl⟩
  · rintro w _ _ hfilter v d hv
    have same {w'} (hw : w.Extends w') := mono _ _ _ _ hfilter hw
    obtain ⟨keep, p, rfl, rfl, h⟩ := hfilter
    refine (h w v d (.refl w) hv).attempt.bind_ok (.first none) fun kept w' hw hkept => ?_
    cases hp : p d with
    | error kind =>
        rw [hp] at hkept
        cases kept with
        | ok b => exact hkept.elim
        | error e =>
            refine .pure fun w'' hw' => ⟨_, same (hw.trans hw'), .error kind, hkept, ?_⟩
            intro xs
            simp only [Datum.Elements.filter, hp]
    | ok b =>
        rw [hp] at hkept
        cases kept with
        | error e => exact hkept.elim
        | ok b' =>
            obtain rfl : b' = b := hkept
            cases b' with
            | true =>
                refine .pure fun w'' hw' => ⟨_, same (hw.trans hw'), .ok d, ?_, ?_⟩
                · exact World.Shows.mono hv (hw.trans hw')
                · intro xs
                  simp only [Datum.Elements.filter, hp]
            | false =>
                refine .pure fun w'' hw' => ⟨_, same (hw.trans hw'), ?_⟩
                intro xs
                simp only [Datum.Elements.filter, hp]

theorem isMap_implements : Implements shared (IsMap shared) := by
  have mono (w w' : World) (stage : Stage) (F : List Datum.Element → List Datum.Element) :
      IsMap shared w stage F → w.Extends w' → IsMap shared w' stage F := by
    rintro ⟨project, f, rfl, rfl, h⟩ hw
    exact ⟨project, f, rfl, rfl, fun w'' v d hw' hv => h w'' v d (hw.trans hw') hv⟩
  refine implements_of_values mono ?_ ?_ ?_
  · rintro w _ _ ⟨project, f, rfl, rfl, h⟩
    exact ⟨rfl, rfl⟩
  · rintro w _ _ ⟨project, f, rfl, rfl, h⟩
    exact ⟨fun _ => rfl, fun _ _ => rfl⟩
  · rintro w _ _ hmap v d hv
    have same {w'} (hw : w.Extends w') := mono _ _ _ _ hmap hw
    obtain ⟨project, f, rfl, rfl, h⟩ := hmap
    refine (h w v d (.refl w) hv).attempt.bind_ok (.first none) fun result w' hw hr => ?_
    refine .pure fun w'' hw' => ⟨_, same (hw.trans hw'), f d, ?_, fun xs => rfl⟩
    exact agrees_shows_mono hr hw'

theorem isWindow_implements : Implements shared IsWindow where
  mono h _ := h
  nil := by
    rintro w _ _ ⟨start, position, left, rfl, rfl⟩
    rfl
  spent := by
    rintro w _ _ ⟨start, position, left, rfl, rfl⟩ hspent xs
    have hleft : left = some 0 := by
      unfold isSpent at hspent
      split at hspent
      · next heq => cases heq; rfl
      · cases hspent
    subst hleft
    cases xs with
    | nil => rfl
    | cons x xs => simp [Datum.Elements.window]
  push := by
    rintro w _ _ ⟨start, position, left, rfl, rfl⟩ hspent element x hx
    have hleft : left ≠ some 0 := by
      rintro rfl
      cases hspent
    cases element with
    | error e =>
        cases x with
        | error kind =>
            refine .pure fun w' hw => ⟨_, ⟨_, _, _, rfl, rfl⟩, .error kind, agrees_shows_mono hx hw, ?_⟩
            intro xs
            simp only [Datum.Elements.window, hleft, if_false]
        | ok d => exact hx.elim
    | ok v =>
        cases x with
        | error kind => exact hx.elim
        | ok d =>
            simp only [push]
            by_cases hposition : start ≤ position
            · rw [if_pos hposition]
              refine .pure fun w' hw => ⟨_, ⟨_, _, _, rfl, rfl⟩, .ok d, World.Shows.mono hx hw, ?_⟩
              intro xs
              simp only [Datum.Elements.window, hleft, hposition, if_false, if_true]
            · rw [if_neg hposition]
              refine .pure fun w' hw => ⟨_, ⟨_, _, _, rfl, rfl⟩, ?_⟩
              intro xs
              simp only [Datum.Elements.window, hleft, hposition, if_false]

section Distinct

variable {access : ItemAccess EvalM} (reads : access.ReadsLoaded)

include reads

theorem isSeen_run {w : World} {key : Value.Key} {d : Datum} (hkey : w.ShowsKey key d)
    {seen : List Value.Key} {data : List Datum} (hseen : List.Forall₂ w.ShowsKey seen data) :
    (isSeen access key seen).run w = (.ok (data.any (Datum.sameKey d)), w) := by
  induction hseen with
  | nil => rfl
  | cons hother _ ih =>
      rw [isSeen, EvalM.run_bind_ok (World.keyEqual_run reads hkey hother), List.any_cons]
      cases Datum.sameKey d _ with
      | true => rfl
      | false => exact ih

theorem isDistinct_implements : Implements shared (IsDistinct access) := by
  have mono (w w' : World) (stage : Stage) (F : List Datum.Element → List Datum.Element) :
      IsDistinct access w stage F → w.Extends w' → IsDistinct access w' stage F := by
    rintro ⟨seen, data, rfl, rfl, h⟩ hw
    exact ⟨seen, data, rfl, rfl, h.imp fun _ _ hkey => hkey.mono hw⟩
  refine implements_of_values mono ?_ ?_ ?_
  · rintro w _ _ ⟨seen, data, rfl, rfl, h⟩
    exact ⟨rfl, rfl⟩
  · rintro w _ _ ⟨seen, data, rfl, rfl, h⟩
    exact ⟨fun _ => rfl, fun _ _ => rfl⟩
  · rintro w _ _ hdistinct v d hv
    have same {w'} (hw : w.Extends w') := mono _ _ _ _ hdistinct hw
    obtain ⟨seen, data, rfl, rfl, h⟩ := hdistinct
    refine (World.computes_toKey reads hv).attempt.bind_ok (.first none) ?_
    intro key w' hw hkey
    cases key with
    | error e => exact hkey.elim
    | ok key =>
        have hseen : Computes shared none w' (isSeen access key seen) (fun _ => Eq)
            (.ok (data.any (Datum.sameKey d))) :=
          .of_run_eq (fun w'' hw' => isSeen_run reads (World.ShowsKey.mono hkey hw')
            (h.imp fun _ _ hkey => hkey.mono (hw.trans hw'))) fun _ _ => rfl
        refine hseen.bind_ok (.first none) ?_
        rintro _ w'' hw' rfl
        cases hany : data.any (Datum.sameKey d) with
        | true =>
            refine .pure fun w₃ hw₃ => ⟨_, same ((hw.trans hw').trans hw₃), ?_⟩
            intro xs
            simp only [Datum.Elements.distinct, hany, if_true]
        | false =>
            refine .pure fun w₃ hw₃ => ⟨_, ⟨_, data ++ [d], rfl, rfl, ?_⟩, .ok d, ?_, ?_⟩
            · refine List.rel_append ?_ (.cons (World.ShowsKey.mono hkey (hw'.trans hw₃)) .nil)
              exact h.imp fun _ _ hkey => hkey.mono ((hw.trans hw').trans hw₃)
            · exact World.Shows.mono hv ((hw.trans hw').trans hw₃)
            · intro xs
              simp only [Datum.Elements.distinct, hany, Bool.false_eq_true, if_false]

end Distinct

end Stage

end RecordAlgebra
