import RecordAlgebra.Proofs.Item.Live

/-!
# Computations with known outcomes

An action computes an outcome if it ends with it from every state that comes
after a given one, and disturbs nothing that others rely on. What others rely
on are the items of the heap and the inputs that are kept once they were read,
the shared inputs. An input that is not kept may be read by one action at most,
which then needs it unread.
-/

namespace RecordAlgebra

/-- The data of those inputs that are kept once they were read. -/
abbrev Shared := Nat → Option (List Datum)

namespace Shared

def empty : Shared := fun _ => none

/-- All inputs and one more. -/
def insert (shared : Shared) (cell : Nat) (data : List Datum) : Shared :=
  fun i => if i = cell then some data else shared i

/-- All inputs but one. -/
def erase (shared : Shared) (cell : Nat) : Shared := fun i => if i = cell then none else shared i

/-- The inputs of `shared` are also shared in `others`. -/
def Within (shared others : Shared) : Prop :=
  ∀ i ds, shared i = some ds → others i = some ds

variable {shared others : Shared}

theorem empty_within (shared : Shared) : empty.Within shared := by
  intro i ds h
  cases h

theorem Within.none (h : shared.Within others) {i : Nat} (hi : others i = none) :
    shared i = none := by
  cases hs : shared i with
  | none => rfl
  | some ds => rw [h i ds hs] at hi; cases hi

theorem within_insert {cell : Nat} (h : shared cell = none) (data : List Datum) :
    shared.Within (shared.insert cell data) := by
  intro i ds hi
  rw [insert, if_neg]
  · exact hi
  · rintro rfl
    rw [h] at hi
    cases hi

end Shared

namespace World

/-- The input is unread or holds these data. -/
def HoldsAt (w : World) (i : Nat) (ds : List Datum) : Prop :=
  w.inputs[i]? = some .pending ∨
    ∃ vs, w.inputs[i]? = some (.materialized vs) ∧ List.Forall₂ w.Shows vs ds

theorem HoldsAt.mono {w w' : World} {i : Nat} {ds : List Datum} (h : w.HoldsAt i ds)
    (hinputs : w'.inputs[i]? = w.inputs[i]?) (hheap : w.Extends w') : w'.HoldsAt i ds := by
  rw [HoldsAt, hinputs]
  exact h.imp_right fun ⟨vs, hvs, hshows⟩ => ⟨vs, hvs, forall₂_shows_mono hshows hheap⟩

/-- Every shared input is unread or holds its data. -/
def Holds (w : World) (shared : Shared) : Prop := ∀ i ds, shared i = some ds → w.HoldsAt i ds

/-- The input that an action may read once is unread. -/
def Ready (w : World) (shared : Shared) (once : Option Nat) : Prop :=
  ∀ i, once = some i → shared i = none ∧ w.inputs[i]? = some .pending

/-- What an action that may read one input once leaves behind. -/
structure Leads (shared : Shared) (once : Option Nat) (w w' : World) : Prop where
  heap : w.Extends w'
  holds : w'.Holds shared
  others : ∀ i : Nat, shared i = none → once ≠ some i → w'.inputs[i]? = w.inputs[i]?

variable {shared : Shared} {once : Option Nat} {w w' w'' : World}

theorem Ready.none (w : World) (shared : Shared) : w.Ready shared none := by
  intro i h
  cases h

theorem Leads.refl (h : w.Holds shared) : w.Leads shared once w :=
  ⟨.refl w, h, fun _ _ _ => rfl⟩

/-- A step outside of evaluation, which leaves all inputs as they are. -/
theorem Leads.of_extends (h : w.Holds shared) (hheap : w.Extends w')
    (hinputs : w'.inputs = w.inputs) : w.Leads shared once w' :=
  ⟨hheap, fun i ds hi => (h i ds hi).mono (by rw [hinputs]) hheap, fun i _ _ => by rw [hinputs]⟩

theorem Leads.trans (h : w.Leads shared once w') (h' : w'.Leads shared once w'') :
    w.Leads shared once w'' :=
  ⟨h.heap.trans h'.heap, h'.holds, fun i hi honce =>
    (h'.others i hi honce).trans (h.others i hi honce)⟩

theorem Leads.weaken (h : w.Leads shared none w') : w.Leads shared once w' :=
  ⟨h.heap, h.holds, fun i hi _ => h.others i hi (by simp)⟩

theorem Holds.within {others : Shared} (h : w.Holds others) (hs : shared.Within others) :
    w.Holds shared :=
  fun i ds hi => h i ds (hs i ds hi)

theorem Leads.within {others : Shared} (h : w.Leads shared once w') (hs : shared.Within others)
    (hw : w.Holds others) (hready : w.Ready others once) : w.Leads others once w' := by
  refine ⟨h.heap, fun i ds hi => ?_, fun i hi honce => h.others i (hs.none hi) honce⟩
  cases hshared : shared i with
  | some ds' =>
      have heq := hs i ds' hshared
      rw [hi] at heq
      cases heq
      exact h.holds i ds hshared
  | none =>
      have honce : once ≠ some i := by
        rintro rfl
        rw [(hready i rfl).1] at hi
        cases hi
      exact (hw i ds hi).mono (h.others i hshared honce) h.heap

theorem Leads.ready (h : w.Leads shared none w') (hready : w.Ready shared once) :
    w'.Ready shared once := by
  intro i hi
  obtain ⟨hnone, hpending⟩ := hready i hi
  exact ⟨hnone, by rw [h.others i hnone (by simp), hpending]⟩

end World

/-- Of two actions in a row, one at most may read the input. -/
inductive Split : Option Nat → Option Nat → Option Nat → Prop
  | first (once : Option Nat) : Split once once none
  | second (once : Option Nat) : Split once none once

/-- From every state after `start`, the action ends with the outcome. The
relation between results may depend on the heap. -/
def Computes {α β : Type} (shared : Shared) (once : Option Nat) (start : World) (m : EvalM α)
    (R : World → α → β → Prop) (r : Except ErrorKind β) : Prop :=
  ∀ w, start.Extends w → w.Holds shared → w.Ready shared once →
    w.Leads shared once (m.run w).2 ∧ EndsAs (R (m.run w).2) (m.run w).1 r

namespace Computes

variable {α β γ δ : Type} {shared : Shared} {once : Option Nat} {start : World} {m : EvalM α}
  {R : World → α → β → Prop} {S : World → γ → δ → Prop} {r : Except ErrorKind β}

theorem mono (h : Computes shared once start m R r) {later : World}
    (hlater : start.Extends later) : Computes shared once later m R r :=
  fun w hw => h w (hlater.trans hw)

/-- An action that computes something with some shared inputs does so with more. -/
theorem within {others : Shared} (h : Computes shared once start m R r)
    (hs : shared.Within others) : Computes others once start m R r := by
  intro w hw hholds hready
  obtain ⟨hleads, hends⟩ := h w hw (hholds.within hs) fun i hi =>
    ⟨hs.none (hready i hi).1, (hready i hi).2⟩
  exact ⟨hleads.within hs hholds hready, hends⟩

theorem imp {R' : World → α → β → Prop} (h : Computes shared once start m R r)
    (hR : ∀ w a b, start.Extends w → R w a b → R' w a b) :
    Computes shared once start m R' r := by
  intro w hw hholds hready
  obtain ⟨hleads, hends⟩ := h w hw hholds hready
  exact ⟨hleads, hends.mono fun a b hab => hR _ a b (hw.trans hleads.heap) hab⟩

theorem weaken (h : Computes shared none start m R r) : Computes shared once start m R r := by
  intro w hw hholds _
  obtain ⟨hleads, hends⟩ := h w hw hholds (.none w shared)
  exact ⟨hleads.weaken, hends⟩

theorem pure {a : α} {b : β} (h : ∀ w, start.Extends w → R w a b) :
    Computes shared once start (pure a) R (.ok b) :=
  fun w hw hholds _ => ⟨.refl hholds, h w hw⟩

theorem raise {e : Error} {kind : ErrorKind} (h : e.kind = kind) :
    Computes shared once start (EvalM.raise e : EvalM α) R (.error kind) :=
  fun _ _ hholds _ => ⟨.refl hholds, h⟩

theorem lift {result : Except Error α}
    (h : ∀ w, start.Extends w → Agrees (R w) result r) :
    Computes shared once start (EvalM.lift result) R r := by
  intro w hw hholds _
  obtain ⟨x, hx, hends⟩ := endsAs_lift (h w hw) w
  rw [hx]
  exact ⟨.refl hholds, hends⟩

theorem of_reads (h : ∀ w, start.Extends w → Reads w m (R w) r) :
    Computes shared once start m R r := by
  intro w hw hholds _
  obtain ⟨x, hx, hends⟩ := h w hw
  rw [hx]
  exact ⟨.refl hholds, hends⟩

theorem of_run_eq {a : α} {b : β} (h : ∀ w, start.Extends w → m.run w = (.ok a, w))
    (hR : ∀ w, start.Extends w → R w a b) : Computes shared once start m R (.ok b) :=
  of_reads fun w hw => ⟨_, h w hw, hR w hw⟩

/-- An action that depends on the state computes what it computes for each. -/
theorem of_get {f : World → EvalM α} (h : ∀ w, start.Extends w → Computes shared once start (f w) R r) :
    Computes shared once start (get >>= f) R r := by
  intro w hw hholds hready
  rw [EvalM.run_bind_ok (EvalM.run_get w)]
  exact h w hw w hw hholds hready

theorem of_view {f : (ItemRef → String) → EvalM α}
    (h : ∀ view, Computes shared once start (f view) R r) :
    Computes shared once start (EvalM.view >>= f) R r := by
  intro w hw hholds hready
  rw [EvalM.run_bind_ok (EvalM.run_view w)]
  exact h w.view w hw hholds hready

theorem bind {first second : Option Nat} {f : α → EvalM γ} {g : β → Except ErrorKind δ}
    (hsplit : Split once first second) (h : Computes shared first start m R r)
    (step : ∀ a b w, start.Extends w → R w a b → Computes shared second w (f a) S (g b)) :
    Computes shared once start (m >>= f) S (r >>= g) := by
  intro w hw hholds hready
  have hfirst : w.Ready shared first := by
    cases hsplit with
    | first => exact hready
    | second => exact .none w shared
  obtain ⟨hleads, hends⟩ := h w hw hholds hfirst
  have hleads' : w.Leads shared once (m.run w).2 := by
    cases hsplit with
    | first => exact hleads
    | second => exact hleads.weaken
  rw [EvalM.run_bind]
  rcases hm : m.run w with ⟨(e | _) | a, w'⟩ <;> rw [hm] at hleads hleads' hends
  · cases r with
    | ok b => exact hends.elim
    | error kind => exact ⟨hleads', hends⟩
  · cases r with
    | ok b => exact hends.elim
    | error kind => exact hends.elim
  · cases r with
    | error kind => exact hends.elim
    | ok b =>
        have hready' : w'.Ready shared second := by
          cases hsplit with
          | first => exact .none w' shared
          | second => exact hleads.ready hready
        obtain ⟨hnext, hends'⟩ :=
          step a b w' (hw.trans hleads.heap) hends w' (.refl w') hleads.holds hready'
        refine ⟨hleads'.trans ?_, hends'⟩
        cases hsplit with
        | first => exact hnext.weaken
        | second => exact hnext

theorem map {f : α → γ} {g : β → δ} (h : Computes shared once start m R r)
    (step : ∀ a b w, start.Extends w → R w a b → S w (f a) (g b)) :
    Computes shared once start (do return f (← m)) S (r.map g) := by
  intro w hw hholds hready
  obtain ⟨hleads, hends⟩ := h w hw hholds hready
  rw [EvalM.run_bind]
  rcases hm : m.run w with ⟨(e | _) | a, w'⟩ <;> rw [hm] at hleads hends
  · cases r with
    | ok b => exact hends.elim
    | error kind => exact ⟨hleads, hends⟩
  · cases r <;> exact hends.elim
  · cases r with
    | ok b => exact ⟨hleads, step a b w' (hw.trans hleads.heap) hends⟩
    | error kind => exact hends.elim

/-- A step after an action whose result is known. -/
theorem bind_ok {b : β} {f : α → EvalM γ} {t : Except ErrorKind δ} {first second : Option Nat}
    (hsplit : Split once first second) (h : Computes shared first start m R (.ok b))
    (step : ∀ a w, start.Extends w → R w a b → Computes shared second w (f a) S t) :
    Computes shared once start (m >>= f) S t := by
  have hknown : Computes shared first start m (fun w a c => R w a c ∧ c = b) (.ok b) := by
    intro w hw hholds hready
    obtain ⟨hleads, hends⟩ := h w hw hholds hready
    refine ⟨hleads, ?_⟩
    obtain ⟨a, ha, hab⟩ := hends.ok_right
    rw [ha]
    exact ⟨hab, rfl⟩
  have hbind := hknown.bind (g := fun _ => t) hsplit fun a c w hw hac => by
    obtain ⟨hab, rfl⟩ := hac
    exact step a w hw hab
  exact hbind

theorem map_ok {b : β} {c : δ} {f : α → γ} (h : Computes shared once start m R (.ok b))
    (step : ∀ a w, start.Extends w → R w a b → S w (f a) c) :
    Computes shared once start (do return f (← m)) S (.ok c) := by
  intro w hw hholds hready
  obtain ⟨hleads, hends⟩ := h w hw hholds hready
  obtain ⟨a, ha, hab⟩ := hends.ok_right
  rw [EvalM.run_bind]
  rcases hm : m.run w with ⟨x, w'⟩
  rw [hm] at hleads ha hab
  cases ha
  exact ⟨hleads, step a w' (hw.trans hleads.heap) hab⟩

theorem attempt (h : Computes shared once start m R r) :
    Computes shared once start m.attempt (fun w => Agrees (R w)) (.ok r) := by
  intro w hw hholds hready
  obtain ⟨hleads, hends⟩ := h w hw hholds hready
  rw [EvalM.run_attempt]
  rcases hm : m.run w with ⟨(e | _) | a, w'⟩ <;> rw [hm] at hleads hends
  · cases r with
    | ok b => exact hends.elim
    | error kind => exact ⟨hleads, hends⟩
  · cases r <;> exact hends.elim
  · cases r with
    | ok b => exact ⟨hleads, hends⟩
    | error kind => exact hends.elim

end Computes

end RecordAlgebra
