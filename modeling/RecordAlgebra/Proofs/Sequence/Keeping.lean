import RecordAlgebra.Eval.Basic
import RecordAlgebra.Proofs.Allowance

/-!
# Sequences that use up nothing

Whether pulling uses something up is decided by the actions of the feed and by what
the stages do with single elements. So all that is made of a sequence by pulling it,
now or later, uses up as much as the steps in between do.
-/

namespace RecordAlgebra

/-- Looking into items uses up nothing. -/
structure ItemAccess.Keeps (A : Allowance) (access : ItemAccess EvalM) : Prop where
  field : ∀ ref name, Spends A 0 (fun _ => True) (access.field ref name)
  entries : ∀ ref, Spends A 0 (fun _ => True) (access.entries ref)
  equal : ∀ a b, Spends A 0 (fun _ => True) (access.equal a b)
  digest : ∀ ref, Spends A 0 (fun _ => True) (access.digest ref)
  view : access.view = EvalM.view

variable {A : Allowance} {access : ItemAccess EvalM}

section Values

variable {items : ItemRef → ItemRef → EvalM Bool}

mutual

theorem equal_spends (h : ∀ a b, Spends A 0 (fun _ => True) (items a b)) :
    ∀ v u : Value, Spends A 0 (fun _ => True) (Value.equal items v u)
  | v, u => by
      cases v <;> cases u
      case list.list as bs =>
        rw [Value.equal]
        split
        · exact equalElements_spends h as bs
        · exact .pure trivial
      case record.record as bs =>
        rw [Value.equal]
        split
        · exact equalFields_spends h as bs
        · exact .pure trivial
      case item.item a b => exact h a b
      all_goals exact .pure trivial

theorem equalElements_spends (h : ∀ a b, Spends A 0 (fun _ => True) (items a b)) :
    ∀ as bs : List Value, Spends A 0 (fun _ => True) (Value.equalElements items as bs)
  | [], [] | [], _ :: _ | _ :: _, [] => .pure trivial
  | a :: as, b :: bs => by
      rw [Value.equalElements]
      refine (equal_spends h a b).first fun same _ => ?_
      cases same with
      | true => exact equalElements_spends h as bs
      | false => exact .pure trivial

theorem equalFields_spends (h : ∀ a b, Spends A 0 (fun _ => True) (items a b)) :
    ∀ as bs : List (String × Value), Spends A 0 (fun _ => True) (Value.equalFields items as bs)
  | [], _ => .pure trivial
  | (name, a) :: as, bs => by
      rw [Value.equalFields]
      split
      · exact .pure trivial
      · next b _ =>
          refine (equal_spends h a b).first fun same _ => ?_
          cases same with
          | true => exact equalFields_spends h as bs
          | false => exact .pure trivial

end

theorem equalEntries_spends (h : ∀ a b, Spends A 0 (fun _ => True) (items a b)) :
    ∀ as bs : List (String × Value), Spends A 0 (fun _ => True) (Value.equalEntries items as bs)
  | [], [] | [], _ :: _ | _ :: _, [] => .pure trivial
  | (name, a) :: as, (other, b) :: bs => by
      rw [Value.equalEntries]
      split
      · refine (equal_spends h a b).first fun same _ => ?_
        cases same with
        | true => exact equalEntries_spends h as bs
        | false => exact .pure trivial
      · exact .pure trivial

variable {digests : ItemRef → EvalM Digest}

mutual

theorem digest_spends (h : ∀ ref, Spends A 0 (fun _ => True) (digests ref)) :
    ∀ v : Value, Spends A 0 (fun _ => True) (v.digest digests)
  | .null | .bool _ | .int _ | .float _ | .text _ | .bytes _ | .timestamp _ => .pure trivial
  | .list elements => (digestElements_spends h elements).map fun _ _ => trivial
  | .record fields => (digestEntries_spends h fields).map fun _ _ => trivial
  | .item ref => h ref

theorem digestElements_spends (h : ∀ ref, Spends A 0 (fun _ => True) (digests ref)) :
    ∀ elements : List Value, Spends A 0 (fun _ => True) (Value.digestElements digests elements)
  | [] => .pure trivial
  | element :: rest => by
      rw [Value.digestElements]
      exact (digest_spends h element).first fun _ _ =>
        (digestElements_spends h rest).map fun _ _ => trivial

theorem digestEntries_spends (h : ∀ ref, Spends A 0 (fun _ => True) (digests ref)) :
    ∀ fields : List (String × Value),
      Spends A 0 (fun _ => True) (Value.digestEntries digests fields)
  | [] => .pure trivial
  | (name, value) :: rest => by
      rw [Value.digestEntries]
      exact (digest_spends h value).first fun _ _ =>
        (digestEntries_spends h rest).map fun _ _ => trivial

end

end Values

namespace ItemAccess.Keeps

variable (keeps : access.Keeps A)

include keeps

theorem toKey (v : Value) : Spends A 0 (fun _ => True) (v.toKey access) :=
  (digest_spends keeps.digest v).map fun _ _ => trivial

theorem keyEqual (a b : Value.Key) : Spends A 0 (fun _ => True) (a.equal access b) := by
  rw [Value.Key.equal]
  split
  · exact equal_spends keeps.equal _ _
  · exact .pure trivial

theorem find? {α : Type} (key : Value.Key) (entries : List (Value.Key × α)) :
    Spends A 0 (fun _ => True) (key.find? access entries) := by
  induction entries with
  | nil => exact .pure trivial
  | cons entry rest ih =>
      refine (keeps.keyEqual key entry.1).first fun same _ => ?_
      cases same with
      | true => exact .pure trivial
      | false => exact ih.map fun _ _ => trivial

theorem isSeen (key : Value.Key) (seen : List Value.Key) :
    Spends A 0 (fun _ => True) (Stage.isSeen access key seen) := by
  induction seen with
  | nil => exact .pure trivial
  | cons other rest ih =>
      refine (keeps.keyEqual key other).first fun same _ => ?_
      cases same with
      | true => exact .pure trivial
      | false => exact ih

end ItemAccess.Keeps

/-- If the element is an error, it is an admissible one. -/
def Element.Admissible (A : Allowance) (element : Element) : Prop :=
  ∀ e, element = .error e → A.error e

theorem Element.admissible_ok (v : Value) : Element.Admissible A (.ok v) := fun _ h => nomatch h

theorem Element.admissible_error {e : Error} (h : A.error e) :
    Element.Admissible A (.error e) := by
  rintro _ ⟨⟩
  exact h

/-- Handing an element through the stage uses up nothing. -/
def Stage.Keeps (A : Allowance) : Stage → Prop
  | .filter keep => ∀ v, Spends A 0 (fun _ => True) (keep v)
  | .map project => ∀ v, Spends A 0 (fun _ => True) (project v)
  | .distinct access _ => access.Keeps A
  | .window .. => True

/-- Finding the elements of the feed uses up nothing. -/
def Feed.Keeps (A : Allowance) : Feed → Prop
  | .actions elements => ∀ action ∈ elements, Spends A 0 (fun _ => True) action
  | .deferred elements => Spends A 0 (fun _ => True) elements
  | .endless element _ => ∀ position, Spends A 0 (fun _ => True) (element position)

/-- Pulling uses up nothing. -/
structure Sequence.Keeps (A : Allowance) (s : Sequence) : Prop where
  feed : s.feed.Keeps A
  stages : ∀ stage ∈ s.stages, stage.Keeps A

namespace Stage

theorem Keeps.push {stage : Stage} (h : stage.Keeps A) {element : Element}
    (helement : element.Admissible A) :
    Spends A 0 (fun out => (∀ result, out.1 = some result → Element.Admissible A result) ∧
      out.2.Keeps A) (stage.push element) := by
  have handedOn {result : Element} {next : Stage} (hresult : result.Admissible A)
      (hnext : next.Keeps A) :
      Spends A 0 (fun out : Option Element × Stage =>
        (∀ result, out.1 = some result → Element.Admissible A result) ∧ out.2.Keeps A)
        (pure (some result, next)) := by
    refine .pure ⟨?_, hnext⟩
    rintro _ ⟨⟩
    exact hresult
  have dropped {next : Stage} (hnext : next.Keeps A) :
      Spends A 0 (fun out : Option Element × Stage =>
        (∀ result, out.1 = some result → Element.Admissible A result) ∧ out.2.Keeps A)
        (pure (none, next)) := .pure ⟨fun _ h => (nomatch h), hnext⟩
  cases element with
  | error e => cases stage <;> exact handedOn helement h
  | ok v =>
      cases stage with
      | filter keep =>
          refine (h v).attempt.first fun outcome houtcome => ?_
          rcases outcome with e | _ | _
          · exact handedOn (Element.admissible_error (houtcome.2 e rfl)) h
          · exact dropped h
          · exact handedOn (Element.admissible_ok v) h
      | map project =>
          refine (h v).attempt.first fun outcome houtcome => ?_
          exact handedOn houtcome.2 h
      | distinct access seen =>
          have hkeeps : access.Keeps A := h
          refine (hkeeps.toKey v).attempt.first fun outcome houtcome => ?_
          cases outcome with
          | error e => exact handedOn (Element.admissible_error (houtcome.2 e rfl)) h
          | ok key =>
              refine (hkeeps.isSeen key seen).first fun found _ => ?_
              cases found with
              | true => exact dropped h
              | false => exact handedOn (Element.admissible_ok v) h
      | window start position left =>
          simp only [Stage.push]
          split
          · exact handedOn (Element.admissible_ok v) trivial
          · exact dropped trivial

theorem pushAll_spends {stages : List Stage} (h : ∀ stage ∈ stages, stage.Keeps A)
    {element : Element} (helement : element.Admissible A) :
    Spends A 0 (fun out => (∀ result, out.1 = some result → Element.Admissible A result) ∧
      ∀ stage ∈ out.2, stage.Keeps A) (pushAll stages element) := by
  induction stages generalizing element with
  | nil =>
      refine .pure ⟨?_, by simp⟩
      rintro _ ⟨⟩
      exact helement
  | cons stage rest ih =>
      obtain ⟨hstage, hrest⟩ := List.forall_mem_cons.1 h
      refine (hstage.push helement).first fun out hout => ?_
      obtain ⟨_ | result, next⟩ := out
      · exact .pure ⟨fun _ h => (nomatch h), List.forall_mem_cons.2 ⟨hout.2, hrest⟩⟩
      · refine (ih hrest (hout.1 result rfl)).map fun later hlater => ?_
        exact ⟨hlater.1, List.forall_mem_cons.2 ⟨hout.2, hlater.2⟩⟩

end Stage

namespace Sequence

variable {s : Sequence}

theorem keeps_ofActions {actions : List (EvalM Value)}
    (h : ∀ action ∈ actions, Spends A 0 (fun _ => True) action) : (ofActions actions).Keeps A :=
  ⟨h, by simp [ofActions]⟩

theorem keeps_ofValues (vs : List Value) : (ofValues vs).Keeps A := by
  refine keeps_ofActions fun action haction => ?_
  obtain ⟨v, -, rfl⟩ := List.mem_map.1 haction
  exact .pure trivial

theorem keeps_ofDeferred {elements : EvalM (List Value)}
    (h : Spends A 0 (fun _ => True) elements) : (ofDeferred elements).Keeps A :=
  ⟨h, by simp [ofDeferred]⟩

theorem Keeps.then_ (h : s.Keeps A) {stage : Stage} (hstage : stage.Keeps A) :
    (s.then_ stage).Keeps A := by
  refine ⟨h.feed, fun other hother => ?_⟩
  rcases List.mem_append.1 hother with hother | hother
  · exact h.stages other hother
  · rw [List.mem_singleton.1 hother]
    exact hstage

theorem settle_spends {elements : EvalM (List Value)} (h : Spends A 0 (fun _ => True) elements) :
    Spends A 0 (fun actions => ∀ action ∈ actions, Spends A 0 (fun _ => True) action)
      (settle elements) := by
  refine h.attempt.first fun outcome houtcome => ?_
  cases outcome with
  | error e =>
      refine .pure fun action haction => ?_
      rw [List.mem_singleton.1 haction]
      exact .raise (houtcome.2 e rfl)
  | ok vs =>
      refine .pure fun action haction => ?_
      obtain ⟨v, -, rfl⟩ := List.mem_map.1 haction
      exact .pure trivial

/-- What a pull gives: an admissible element, and a sequence that uses up nothing. -/
def Pulled (A : Allowance) (pulled : Option (Element × Sequence)) : Prop :=
  ∀ element rest, pulled = some (element, rest) → element.Admissible A ∧ rest.Keeps A

theorem nextOf_spends {actions : List (EvalM Value)} {stages : List Stage}
    (hactions : ∀ action ∈ actions, Spends A 0 (fun _ => True) action)
    (hstages : ∀ stage ∈ stages, stage.Keeps A) :
    Spends A 0 (Pulled A) (nextOf actions stages) := by
  induction actions generalizing stages with
  | nil => exact .pure fun _ _ h => nomatch h
  | cons action rest ih =>
      obtain ⟨haction, hrest⟩ := List.forall_mem_cons.1 hactions
      rw [nextOf]
      split
      · exact .pure fun _ _ h => nomatch h
      · refine haction.attempt.first fun element helement => ?_
        refine (Stage.pushAll_spends hstages helement.2).first fun out hout => ?_
        obtain ⟨_ | result, later⟩ := out
        · exact ih hrest hout.2
        · refine .pure ?_
          rintro _ _ ⟨⟩
          exact ⟨hout.1 result rfl, hrest, hout.2⟩

theorem nextEndless_spends {feed : Nat → EvalM Value} {stages : List Stage}
    (hfeed : ∀ position, Spends A 0 (fun _ => True) (feed position))
    (hstages : ∀ stage ∈ stages, stage.Keeps A) (steps position : Nat) :
    Spends A 0 (Pulled A) (nextEndless feed steps position stages) := by
  induction steps generalizing position stages with
  | zero => exact .diverge
  | succ steps ih =>
      rw [nextEndless]
      split
      · exact .pure fun _ _ h => nomatch h
      · refine (hfeed position).attempt.first fun element helement => ?_
        refine (Stage.pushAll_spends hstages helement.2).first fun out hout => ?_
        obtain ⟨_ | result, later⟩ := out
        · exact ih hout.2 (position + 1)
        · refine .pure ?_
          rintro _ _ ⟨⟩
          exact ⟨hout.1 result rfl, hfeed, hout.2⟩

theorem Keeps.next (h : s.Keeps A) : Spends A 0 (Pulled A) s.next := by
  obtain ⟨feed, stages⟩ := s
  obtain ⟨hfeed, hstages⟩ := h
  rw [Sequence.next]
  split
  · exact .pure fun _ _ h => nomatch h
  · cases feed with
    | actions elements => exact nextOf_spends hfeed hstages
    | deferred elements =>
        exact (settle_spends hfeed).first fun actions hactions => nextOf_spends hactions hstages
    | endless element position => exact nextEndless_spends hfeed hstages patience position

section Fold

variable {σ : Type} {f : σ → Value → EvalM σ} (step : ∀ a v, Spends A 0 (fun _ => True) (f a v))

include step

theorem foldOf_spends {actions : List (EvalM Value)} {stages : List Stage}
    (hactions : ∀ action ∈ actions, Spends A 0 (fun _ => True) action)
    (hstages : ∀ stage ∈ stages, stage.Keeps A) (a : σ) :
    Spends A 0 (fun _ => True) (foldOf f actions stages a) := by
  induction actions generalizing stages a with
  | nil => exact .pure trivial
  | cons action rest ih =>
      obtain ⟨haction, hrest⟩ := List.forall_mem_cons.1 hactions
      rw [foldOf]
      split
      · exact .pure trivial
      · refine haction.attempt.first fun element helement => ?_
        refine (Stage.pushAll_spends hstages helement.2).first fun out hout => ?_
        obtain ⟨_ | e | v, later⟩ := out
        · exact ih hrest hout.2 a
        · exact .raise (hout.1 _ rfl e rfl)
        · exact (step a v).first fun b _ => ih hrest hout.2 b

theorem foldEndless_spends {feed : Nat → EvalM Value} {stages : List Stage}
    (hfeed : ∀ position, Spends A 0 (fun _ => True) (feed position))
    (hstages : ∀ stage ∈ stages, stage.Keeps A) (steps position : Nat) (a : σ) :
    Spends A 0 (fun _ => True) (foldEndless f feed steps position stages a) := by
  induction steps generalizing position stages a with
  | zero => exact .diverge
  | succ steps ih =>
      rw [foldEndless]
      split
      · exact .pure trivial
      · refine (hfeed position).attempt.first fun element helement => ?_
        refine (Stage.pushAll_spends hstages helement.2).first fun out hout => ?_
        obtain ⟨_ | e | v, later⟩ := out
        · exact ih hout.2 (position + 1) a
        · exact .raise (hout.1 _ rfl e rfl)
        · exact (step a v).first fun b _ => ih hout.2 (position + 1) b

/-- Folding uses up what its steps do. -/
theorem Keeps.fold (h : s.Keeps A) (a : σ) : Spends A 0 (fun _ => True) (s.fold f a) := by
  obtain ⟨feed, stages⟩ := s
  obtain ⟨hfeed, hstages⟩ := h
  rw [Sequence.fold]
  split
  · exact .pure trivial
  · cases feed with
    | actions elements => exact foldOf_spends step hfeed hstages a
    | deferred elements =>
        exact (settle_spends hfeed).first fun actions hactions =>
          foldOf_spends step hactions hstages a
    | endless element position => exact foldEndless_spends step hfeed hstages patience position a

end Fold

theorem Keeps.collect (h : s.Keeps A) : Spends A 0 (fun _ => True) s.collect :=
  (h.fold (fun _ _ => .pure trivial) []).map fun _ _ => trivial

end Sequence

section Covered

variable {ι : Type} [Inhabited ι] {family : ι → Allowance} (hA : A.CoveredBy family)

include hA

theorem ItemAccess.keeps_of_covered (h : ∀ i, access.Keeps (family i)) : access.Keeps A where
  field ref name := .covered hA fun i => (h i).field ref name
  entries ref := .covered hA fun i => (h i).entries ref
  equal a b := .covered hA fun i => (h i).equal a b
  digest ref := .covered hA fun i => (h i).digest ref
  view := (h default).view

theorem Stage.keeps_of_covered {stage : Stage} (h : ∀ i, stage.Keeps (family i)) :
    stage.Keeps A := by
  cases stage with
  | filter keep => exact fun v => .covered hA fun i => h i v
  | map project => exact fun v => .covered hA fun i => h i v
  | distinct access seen => exact ItemAccess.keeps_of_covered hA h
  | window start position left => trivial

omit [Inhabited ι] in
theorem Feed.keeps_of_covered {feed : Feed} (h : ∀ i, feed.Keeps (family i)) : feed.Keeps A := by
  cases feed with
  | actions elements => exact fun action haction => .covered hA fun i => h i action haction
  | deferred elements => exact .covered hA h
  | endless element position => exact fun position => .covered hA fun i => h i position

theorem Sequence.keeps_of_covered {s : Sequence} (h : ∀ i, s.Keeps (family i)) : s.Keeps A where
  feed := Feed.keeps_of_covered hA fun i => (h i).feed
  stages stage hstage := Stage.keeps_of_covered hA fun i => (h i).stages stage hstage

end Covered

end RecordAlgebra
