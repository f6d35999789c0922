import RecordAlgebra.Eval.Aggregate
import RecordAlgebra.Eval.Basic
import RecordAlgebra.Proofs.Ensures

/-!
# What sequences send

A sequence sends values with a property if its feed gives values with some property
and every stage turns what the one before it sends into what it sends itself.
Whatever is made of the sequence can rely on the property.
-/

namespace RecordAlgebra

/-- Values with the property can be made keys and compared. -/
structure ItemAccess.Compares (access : ItemAccess EvalM) (I : World → Prop) (P : Value → Prop) :
    Prop where
  digest : ∀ v, P v → Ensures I (fun _ => True) (v.digest access.digest)
  equal : ∀ v u, P v → P u → Ensures I (fun _ => True) (Value.equal access.equal v u)

section Keys

variable {access : ItemAccess EvalM} {I : World → Prop} {P : Value → Prop}
  (compares : access.Compares I P)

include compares

theorem ItemAccess.Compares.toKey {v : Value} (hv : P v) :
    Ensures I (fun key => key.value = v) (v.toKey access) :=
  (compares.digest v hv).map fun _ _ => rfl

theorem ItemAccess.Compares.keyEqual {a b : Value.Key} (ha : P a.value) (hb : P b.value) :
    Ensures I (fun _ => True) (a.equal access b) := by
  rw [Value.Key.equal]
  split
  · exact compares.equal a.value b.value ha hb
  · exact .pure trivial

theorem ItemAccess.Compares.isSeen {key : Value.Key} {seen : List Value.Key} (hkey : P key.value)
    (hseen : ∀ other ∈ seen, P other.value) :
    Ensures I (fun _ => True) (Stage.isSeen access key seen) := by
  induction seen with
  | nil => exact .pure trivial
  | cons other rest ih =>
      obtain ⟨hother, hrest⟩ := List.forall_mem_cons.1 hseen
      refine (compares.keyEqual hkey hother).bind fun found _ => ?_
      cases found with
      | true => exact .pure trivial
      | false => exact ih hrest

theorem ItemAccess.Compares.find? {α : Type} {key : Value.Key} {entries : List (Value.Key × α)}
    (hkey : P key.value) (hentries : ∀ entry ∈ entries, P entry.1.value) :
    Ensures I (fun _ => True) (key.find? access entries) := by
  induction entries with
  | nil => exact .pure trivial
  | cons entry rest ih =>
      obtain ⟨hentry, hrest⟩ := List.forall_mem_cons.1 hentries
      refine (compares.keyEqual hkey hentry).bind fun found _ => ?_
      cases found with
      | true => exact .pure trivial
      | false => exact (ih hrest).map fun _ _ => trivial

end Keys

/-- The element is an error or a value with the property. -/
def Element.Has (P : Value → Prop) (element : Element) : Prop := ∀ v, element = .ok v → P v

theorem Element.has_error {P : Value → Prop} (e : Error) : Element.Has P (.error e) :=
  fun _ h => by cases h

theorem Element.has_ok {P : Value → Prop} {v : Value} (h : P v) : Element.Has P (.ok v) := by
  intro u hu
  cases hu
  exact h

namespace Stage

/-- The stage sends values with `Q` for values with `P`. -/
def Sends (I : World → Prop) (P Q : Value → Prop) : Stage → Prop
  | .filter keep => (∀ v, P v → Q v) ∧ ∀ v, P v → Ensures I (fun _ => True) (keep v)
  | .map project => ∀ v, P v → Ensures I Q (project v)
  | .distinct access seen =>
      (∀ v, P v → Q v) ∧ access.Compares I P ∧ ∀ key ∈ seen, P key.value
  | .window .. => ∀ v, P v → Q v

variable {I : World → Prop} {P Q R : Value → Prop}

/-- What comes out of the stage has the property, and so has what comes out later. -/
def Sent (I : World → Prop) (P Q : Value → Prop) (out : Option Element × Stage) : Prop :=
  (∀ result, out.1 = some result → Element.Has Q result) ∧ out.2.Sends I P Q

theorem sent_some {result : Element} {stage : Stage} (hresult : result.Has Q)
    (hstage : stage.Sends I P Q) : Ensures I (Sent I P Q) (pure (some result, stage)) := by
  refine .pure ⟨?_, hstage⟩
  rintro _ ⟨⟩
  exact hresult

theorem sent_none {stage : Stage} (hstage : stage.Sends I P Q) :
    Ensures I (Sent I P Q) (pure (none, stage)) :=
  .pure ⟨fun _ h => (by cases h), hstage⟩

theorem Sends.push {stage : Stage} (h : stage.Sends I P Q) {element : Element}
    (helement : element.Has P) : Ensures I (Sent I P Q) (stage.push element) := by
  cases element with
  | error e => cases stage <;> exact sent_some (Element.has_error e) h
  | ok v =>
      have hv : P v := helement v rfl
      cases stage with
      | filter keep =>
          refine (h.2 v hv).attempt.bind fun outcome _ => ?_
          rcases outcome with e | _ | _
          · exact sent_some (Element.has_error e) h
          · exact sent_none h
          · exact sent_some (Element.has_ok (h.1 v hv)) h
      | map project =>
          refine (h v hv).attempt.bind fun outcome houtcome => ?_
          exact sent_some houtcome h
      | distinct access seen =>
          obtain ⟨hkeep, compares, hseen⟩ := h
          refine (compares.toKey hv).attempt.bind fun outcome houtcome => ?_
          cases outcome with
          | error e => exact sent_some (Element.has_error e) ⟨hkeep, compares, hseen⟩
          | ok key =>
              have hkey : P key.value := by rw [houtcome key rfl]; exact hv
              refine (compares.isSeen hkey hseen).bind fun found _ => ?_
              cases found with
              | true => exact sent_none ⟨hkeep, compares, hseen⟩
              | false =>
                  refine sent_some (Element.has_ok (hkeep v hv)) ⟨hkeep, compares, fun other hother => ?_⟩
                  rcases List.mem_append.1 hother with hother | hother
                  · exact hseen other hother
                  · rw [List.mem_singleton.1 hother]
                    exact hkey
      | window start position left =>
          simp only [Stage.push]
          split
          · exact sent_some (Element.has_ok (h v hv)) h
          · exact sent_none h

/-- The stages in a row send values with `Q` for values with `P`. -/
inductive SendAll (I : World → Prop) : (Value → Prop) → List Stage → (Value → Prop) → Prop
  | nil (P : Value → Prop) : SendAll I P [] P
  | cons {P Q R : Value → Prop} {stage : Stage} {rest : List Stage} :
      stage.Sends I P Q → SendAll I Q rest R → SendAll I P (stage :: rest) R

theorem SendAll.then_ {stages : List Stage} (h : SendAll I P stages Q) {stage : Stage}
    (hstage : stage.Sends I Q R) : SendAll I P (stages ++ [stage]) R := by
  induction h with
  | nil => exact .cons hstage (.nil R)
  | cons hfirst _ ih => exact .cons hfirst (ih hstage)

theorem SendAll.pushAll {stages : List Stage} (h : SendAll I P stages Q) {element : Element}
    (helement : element.Has P) :
    Ensures I (fun out => (∀ result, out.1 = some result → Element.Has Q result) ∧
      SendAll I P out.2 Q) (Stage.pushAll stages element) := by
  induction h generalizing element with
  | nil P =>
      refine .pure ⟨?_, .nil P⟩
      rintro _ ⟨⟩
      exact helement
  | cons hfirst hrest ih =>
      refine (hfirst.push helement).bind fun out hout => ?_
      obtain ⟨result | result, stage⟩ := out
      · exact .pure ⟨fun _ h => (by cases h), .cons hout.2 hrest⟩
      · refine (ih (hout.1 result rfl)).map fun out' hout' => ?_
        exact ⟨hout'.1, .cons hout.2 hout'.2⟩

end Stage

namespace Sequence

variable {I : World → Prop} {P Q : Value → Prop} {s : Sequence}

/-- The feed ends, and gives values with the property. -/
def feeds (I : World → Prop) (P : Value → Prop) : Feed → Prop
  | .actions elements => ∀ action ∈ elements, Ensures I P action
  | .deferred elements => Ensures I (fun vs => ∀ v ∈ vs, P v) elements
  | .endless .. => False

/-- The sequence sends values with the property. -/
def Sends (I : World → Prop) (Q : Value → Prop) (s : Sequence) : Prop :=
  ∃ P, feeds I P s.feed ∧ Stage.SendAll I P s.stages Q

theorem sends_ofActions {actions : List (EvalM Value)} (h : ∀ action ∈ actions, Ensures I P action) :
    (ofActions actions).Sends I P := ⟨P, h, .nil P⟩

theorem sends_ofValues {vs : List Value} (h : ∀ v ∈ vs, P v) : (ofValues vs).Sends I P := by
  refine sends_ofActions fun action haction => ?_
  obtain ⟨v, hv, rfl⟩ := List.mem_map.1 haction
  exact .pure (h v hv)

theorem sends_ofDeferred {elements : EvalM (List Value)}
    (h : Ensures I (fun vs => ∀ v ∈ vs, P v) elements) : (ofDeferred elements).Sends I P :=
  ⟨P, h, .nil P⟩

theorem Sends.then_ (h : s.Sends I P) {stage : Stage} (hstage : stage.Sends I P Q) :
    (s.then_ stage).Sends I Q := by
  obtain ⟨P', hfeed, hstages⟩ := h
  exact ⟨P', hfeed, hstages.then_ hstage⟩

theorem Sends.map (h : s.Sends I P) {project : Value → EvalM Value}
    (hproject : ∀ v, P v → Ensures I Q (project v)) : (s.then_ (.map project)).Sends I Q :=
  h.then_ hproject

theorem Sends.window (h : s.Sends I P) (start position : Nat) (left : Option Nat) :
    (s.then_ (.window start position left)).Sends I P :=
  h.then_ fun _ hv => hv

theorem settle_ensures {elements : EvalM (List Value)}
    (h : Ensures I (fun vs => ∀ v ∈ vs, P v) elements) :
    Ensures I (fun actions => ∀ action ∈ actions, Ensures I P action) (settle elements) := by
  refine h.attempt.bind fun outcome houtcome => ?_
  cases outcome with
  | error e =>
      refine .pure fun action haction => ?_
      rw [List.mem_singleton.1 haction]
      exact .raise e
  | ok vs =>
      refine .pure fun action haction => ?_
      obtain ⟨v, hv, rfl⟩ := List.mem_map.1 haction
      exact .pure (houtcome vs rfl v hv)

/-- What a pull gives: an element with the property and a sequence that sends more. -/
def NextHas (I : World → Prop) (Q : Value → Prop) (next : Option (Element × Sequence)) : Prop :=
  ∀ element rest, next = some (element, rest) → element.Has Q ∧ rest.Sends I Q

theorem nextOf_ensures {actions : List (EvalM Value)} {stages : List Stage}
    (hactions : ∀ action ∈ actions, Ensures I P action) (hstages : Stage.SendAll I P stages Q) :
    Ensures I (NextHas I Q) (nextOf actions stages) := by
  induction actions generalizing stages with
  | nil => exact .pure fun _ _ h => by cases h
  | cons action rest ih =>
      obtain ⟨haction, hrest⟩ := List.forall_mem_cons.1 hactions
      rw [nextOf]
      split
      · exact .pure fun _ _ h => by cases h
      · refine haction.attempt.bind fun element helement => ?_
        refine (hstages.pushAll helement).bind fun out hout => ?_
        obtain ⟨_ | result, stages⟩ := out
        · exact ih hrest hout.2
        · refine .pure ?_
          rintro _ _ ⟨⟩
          exact ⟨hout.1 result rfl, P, hrest, hout.2⟩

theorem Sends.next (h : s.Sends I Q) : Ensures I (NextHas I Q) s.next := by
  obtain ⟨P, hfeed, hstages⟩ := h
  rw [Sequence.next]
  split
  · exact .pure fun _ _ h => by cases h
  · cases hs : s.feed with
    | actions elements =>
        rw [hs] at hfeed
        exact nextOf_ensures hfeed hstages
    | deferred elements =>
        rw [hs] at hfeed
        exact (settle_ensures hfeed).bind fun actions hactions => nextOf_ensures hactions hstages
    | endless element position =>
        rw [hs] at hfeed
        exact hfeed.elim

section Fold

variable {σ : Type} {S : σ → Prop} {f : σ → Value → EvalM σ}

theorem foldOf_ensures (step : ∀ state v, S state → Q v → Ensures I S (f state v))
    {actions : List (EvalM Value)} {stages : List Stage}
    (hactions : ∀ action ∈ actions, Ensures I P action) (hstages : Stage.SendAll I P stages Q)
    {state : σ} (hstate : S state) : Ensures I S (foldOf f actions stages state) := by
  induction actions generalizing stages state with
  | nil => exact .pure hstate
  | cons action rest ih =>
      obtain ⟨haction, hrest⟩ := List.forall_mem_cons.1 hactions
      rw [foldOf]
      split
      · exact .pure hstate
      · refine haction.attempt.bind fun element helement => ?_
        refine (hstages.pushAll helement).bind fun out hout => ?_
        obtain ⟨_ | e | v, stages⟩ := out
        · exact ih hrest hout.2 hstate
        · exact .raise e
        · refine (step state v hstate (hout.1 _ rfl v rfl)).bind fun next hnext => ?_
          exact ih hrest hout.2 hnext

/-- A fold over a sequence keeps what each of its steps keeps. -/
theorem Sends.fold (h : s.Sends I Q) (step : ∀ state v, S state → Q v → Ensures I S (f state v))
    {initial : σ} (hinitial : S initial) : Ensures I S (s.fold f initial) := by
  obtain ⟨P, hfeed, hstages⟩ := h
  rw [Sequence.fold]
  split
  · exact .pure hinitial
  · cases hs : s.feed with
    | actions elements =>
        rw [hs] at hfeed
        exact foldOf_ensures step hfeed hstages hinitial
    | deferred elements =>
        rw [hs] at hfeed
        exact (settle_ensures hfeed).bind fun actions hactions =>
          foldOf_ensures step hactions hstages hinitial
    | endless element position =>
        rw [hs] at hfeed
        exact hfeed.elim

end Fold

theorem Sends.collect (h : s.Sends I Q) : Ensures I (fun vs => ∀ v ∈ vs, Q v) s.collect := by
  refine (h.fold (S := fun vs => ∀ v ∈ vs, Q v) (fun vs v hvs hv => .pure ?_) ?_).map fun vs hvs v hv => ?_
  · exact List.forall_mem_cons.2 ⟨hv, hvs⟩
  · simp
  · exact hvs v (List.mem_reverse.1 hv)

theorem Sends.onlyElement (h : s.Sends I Q) :
    Ensures I (fun found => ∀ v, found = some v → Q v) (Expr.onlyElement s) := by
  refine h.next.bind fun next hnext => ?_
  rcases next with _ | ⟨e | v, rest⟩
  · exact .pure fun _ h => by cases h
  · exact .raise e
  · obtain ⟨hv, hrest⟩ := hnext _ _ rfl
    refine hrest.next.bind fun next _ => ?_
    rcases next with _ | ⟨e | u, rest⟩
    · refine .pure ?_
      rintro _ ⟨⟩
      exact hv v rfl
    · exact .raise e
    · exact .fail _

end Sequence

end RecordAlgebra
