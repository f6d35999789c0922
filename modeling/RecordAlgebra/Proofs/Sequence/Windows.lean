import RecordAlgebra.Eval.Basic
import RecordAlgebra.Proofs.Sequence.Watching

/-!
# Windows

A window hands on what is at its positions, and the errors that come before its start. These take
up places in it, so it is full so many elements too early. Errors from its start on stand at their
positions like other elements. No more is requested than lies before its end.
-/

namespace RecordAlgebra

namespace Window

def isError : Element → Bool
  | .error _ => true
  | .ok _ => false

/-- What a window hands on if it has no end. -/
def passed (start : Nat) (xs : List Element) : List Element :=
  (xs.take start).filter isError ++ xs.drop start

/-- How many places of a window are taken up by errors before its start. -/
def lost (start : Nat) (xs : List Element) : Nat := ((xs.take start).filter isError).length

/-- So many elements, or all of them. -/
def upTo : Option Nat → List Element → List Element
  | none, xs => xs
  | some left, xs => xs.take left

def isFull : Option Nat → List Element → Bool
  | none, _ => false
  | some left, xs => decide (left ≤ xs.length)

/-- What a slice hands on. -/
def sliced (start : Nat) (stop : Option Nat) (xs : List Element) : List Element :=
  upTo (stop.map (· - start)) (passed start xs)

@[simp] theorem passed_nil (start : Nat) : passed start [] = [] := by
  rw [passed, List.take_nil, List.drop_nil]
  rfl

@[simp] theorem passed_zero (xs : List Element) : passed 0 xs = xs := rfl

@[simp] theorem passed_error (start : Nat) (e : Error) (xs : List Element) :
    passed start (.error e :: xs) = .error e :: passed (start - 1) xs := by
  cases start <;> rfl

@[simp] theorem passed_ok (start : Nat) (v : Value) (xs : List Element) :
    passed (start + 1) (.ok v :: xs) = passed start xs := rfl

@[simp] theorem upTo_nil (left : Option Nat) : upTo left [] = [] := by
  cases left with
  | none => rfl
  | some left => exact List.take_nil

@[simp] theorem upTo_zero (xs : List Element) : upTo (some 0) xs = [] := rfl

theorem upTo_cons {left : Option Nat} (h : left ≠ some 0) (x : Element) (xs : List Element) :
    upTo left (x :: xs) = x :: upTo (left.map (· - 1)) xs := by
  rcases left with _ | _ | left
  · rfl
  · exact absurd rfl h
  · rfl

theorem isFull_nil {left : Option Nat} (h : left ≠ some 0) : isFull left [] = false := by
  rcases left with _ | _ | left
  · rfl
  · exact absurd rfl h
  · rfl

@[simp] theorem isFull_zero (xs : List Element) : isFull (some 0) xs = true := by
  simp [isFull]

theorem isFull_cons {left : Option Nat} (h : left ≠ some 0) (x : Element) (xs : List Element) :
    isFull left (x :: xs) = isFull (left.map (· - 1)) xs := by
  rcases left with _ | _ | left
  · rfl
  · exact absurd rfl h
  · simp [isFull]

theorem getElem?_passed {start p : Nat} (h : start ≤ p) (xs : List Element) :
    (passed start xs)[lost start xs + (p - start)]? = xs[p]? := by
  rw [passed, lost, List.getElem?_append_right (Nat.le_add_right _ _), Nat.add_sub_cancel_left,
    List.getElem?_drop, Nat.add_sub_cancel' h]

/-- An element from the start on is handed on if it lies as far before the end as errors come
before the start. -/
theorem getElem?_sliced {start p : Nat} (h : start ≤ p) (stop : Option Nat) (xs : List Element) :
    (sliced start stop xs)[lost start xs + (p - start)]? =
      if ∀ b ∈ stop, p + lost start xs < b then xs[p]? else none := by
  cases stop with
  | none => simpa [sliced, upTo] using getElem?_passed h xs
  | some b =>
      have hinside : lost start xs + (p - start) < b - start ↔ p + lost start xs < b := by omega
      simp only [sliced, Option.map_some, upTo, List.getElem?_take, getElem?_passed h,
        Option.mem_some_iff, forall_eq', hinside]

end Window

namespace Sequence

/-- Pulling gives these elements first, and then the end if it is said to come. -/
inductive Emits : Sequence → World → List Element → Bool → Prop
  | begun (s : Sequence) (w : World) : Emits s w [] false
  | ended {s : Sequence} {w w' : World} (h : s.Pulls w none w') : Emits s w [] true
  | given {s rest : Sequence} {w w' : World} {element : Element} {elements : List Element}
      {ended : Bool} (h : s.Pulls w (some (element, rest)) w')
      (hrest : Emits rest w' elements ended) : Emits s w (element :: elements) ended

section Window

variable {s : Sequence} {w w₁ w' : World} {start position : Nat} {left : Option Nat}
  {xs : List Element} {ended : Bool}

theorem Delivers.emits (h : s.Delivers w xs w') : s.Emits w xs true := by
  induction h with
  | done h => exact .ended (pulls_of_next h)
  | more h _ ih => exact .given (pulls_of_next h) ih

theorem Emits.delivers (hfinite : s.isFinite = true) (h : s.Emits w xs true) :
    ∃ w', s.Delivers w xs w' := by
  generalize hall : true = all at h
  induction h with
  | begun => cases hall
  | ended h =>
      rcases h.next with ⟨hendless, -⟩ | hnext
      · cases hfinite.symm.trans hendless
      · exact ⟨_, .done hnext⟩
  | given h _ ih =>
      rcases h.next with ⟨hendless, -⟩ | hnext
      · cases hfinite.symm.trans hendless
      · obtain ⟨w', hrest⟩ := ih (isFinite_of_next hfinite hnext) hall
        exact ⟨w', .more hnext hrest⟩

/-- A sequence that drops its first elements emits what it emits without them. -/
theorem Emits.of_pulls {t : Sequence} (hpulls : ∀ r w', t.Pulls w₁ r w' → s.Pulls w r w')
    (h : t.Emits w₁ xs ended) : s.Emits w xs ended := by
  cases h with
  | begun => exact .begun s w
  | ended h => exact .ended (hpulls _ _ h)
  | given h hrest => exact .given (hpulls _ _ h) hrest

theorem run_pushAll_single {stage other : Stage} {element : Element} {outcome : Option Element}
    (h : (stage.push element).run w = (.ok (outcome, other), w')) :
    (Stage.pushAll [stage] element).run w = (.ok (outcome, [other]), w') := by
  rw [Stage.pushAll, EvalM.run_bind_ok h]
  cases outcome <;> rfl

theorem isSpent_single (stage : Stage) : isSpent [stage] = stage.isSpent :=
  Bool.or_false _

theorem pulls_then_spent {stage : Stage} (h : stage.isSpent = true) :
    (s.then_ stage).Pulls w none w :=
  pulls_through_of_draws (.spent ((isSpent_single stage).trans h))

theorem pulls_then_ended {stage : Stage} (h : s.Pulls w none w')
    (hopen : stage.isSpent = false) : (s.then_ stage).Pulls w none w' :=
  pulls_through_of_draws (.ended ((isSpent_single stage).trans hopen) h)

theorem pulls_then_handed {stage other : Stage} {rest : Sequence} {element result : Element}
    (h : s.Pulls w (some (element, rest)) w₁) (hopen : stage.isSpent = false)
    (hpush : (stage.push element).run w₁ = (.ok (some result, other), w')) :
    (s.then_ stage).Pulls w (some (result, rest.then_ other)) w' :=
  pulls_through_of_draws
    (.handed ((isSpent_single stage).trans hopen) h (run_pushAll_single hpush))

theorem pulls_then_dropped {stage other : Stage} {rest : Sequence} {element : Element}
    {r : Option (Element × Sequence)} {w₂ : World} (h : s.Pulls w (some (element, rest)) w₁)
    (hopen : stage.isSpent = false)
    (hpush : (stage.push element).run w₁ = (.ok (none, other), w₂))
    (hrest : (rest.then_ other).Pulls w₂ r w') : (s.then_ stage).Pulls w r w' := by
  obtain ⟨found, requests, hdraws, rfl⟩ := exists_draws_of_pulls_through hrest
  exact pulls_through_of_draws
    (.dropped ((isSpent_single stage).trans hopen) h (run_pushAll_single hpush) hdraws)

theorem isSpent_window (h : left ≠ some 0) :
    (Stage.window start position left).isSpent = false := by
  rcases left with _ | _ | left
  · rfl
  · exact absurd rfl h
  · rfl

theorem run_push_error (e : Error) (w : World) :
    ((Stage.window start position left).push (.error e)).run w =
      (.ok (some (.error e), .window start (position + 1) (left.map (· - 1))), w) := rfl

theorem run_push_inside (h : start ≤ position) (v : Value) (w : World) :
    ((Stage.window start position left).push (.ok v)).run w =
      (.ok (some (.ok v), .window start (position + 1) (left.map (· - 1))), w) := by
  rw [Stage.push, if_pos h]
  rfl

theorem run_push_before (h : position < start) (v : Value) (w : World) :
    ((Stage.window start position left).push (.ok v)).run w =
      (.ok (none, .window start (position + 1) left), w) := by
  rw [Stage.push, if_neg (Nat.not_le.2 h)]
  rfl

open Window

/-- What a window makes of the first elements of a sequence. The induction is on the elements,
for all positions of the window. -/
theorem Emits.window (h : s.Emits w xs ended) (start position : Nat) (left : Option Nat) :
    (s.then_ (.window start position left)).Emits w (upTo left (passed (start - position) xs))
      (ended || isFull left (passed (start - position) xs)) := by
  induction h generalizing position left with
  | begun s w =>
      by_cases hfull : left = some 0
      · subst hfull
        simpa using Emits.ended (pulls_then_spent rfl)
      · simpa [isFull_nil hfull] using Emits.begun _ w
  | ended h =>
      rw [Bool.true_or, passed_nil, upTo_nil]
      by_cases hfull : left = some 0
      · subst hfull
        exact .ended (pulls_then_spent rfl)
      · exact .ended (pulls_then_ended h (isSpent_window hfull))
  | @given s rest w w' element xs ended h _ ih =>
      by_cases hfull : left = some 0
      · subst hfull
        simpa using Emits.ended (pulls_then_spent rfl)
      · have hopen : (Stage.window start position left).isSpent = false := isSpent_window hfull
        have hlater := ih (position + 1)
        rw [← Nat.sub_sub] at hlater
        cases element with
        | error e =>
            rw [passed_error, upTo_cons hfull, isFull_cons hfull]
            have hpulls := pulls_then_handed h hopen (run_push_error e w')
            exact .given hpulls (hlater _)
        | ok v =>
            by_cases hinside : start ≤ position
            · rw [Nat.sub_eq_zero_of_le hinside] at hlater ⊢
              rw [passed_zero, upTo_cons hfull, isFull_cons hfull]
              have hpulls := pulls_then_handed h hopen (run_push_inside hinside v w')
              exact .given hpulls (hlater _)
            · have hbefore := Nat.not_le.1 hinside
              have hgap : start - position = start - position - 1 + 1 := by omega
              rw [hgap, passed_ok]
              exact (hlater left).of_pulls fun _ _ =>
                pulls_then_dropped h hopen (run_push_before hbefore v w')

/-- A window hands on an element and has one place less, or drops it before its start. -/
theorem pushAll_window_cases {element : Element} {outcome : Option Element} {stages : List Stage}
    (h : (Stage.pushAll [.window start position left] element).run w =
      (.ok (outcome, stages), w')) :
    (outcome.isSome = true ∧ stages = [.window start (position + 1) (left.map (· - 1))]) ∨
      (outcome = none ∧ position < start ∧ stages = [.window start (position + 1) left]) := by
  cases element with
  | error e =>
      cases h
      exact .inl ⟨rfl, rfl⟩
  | ok v =>
      by_cases hinside : start ≤ position
      · cases h.symm.trans (run_pushAll_single (run_push_inside hinside v w))
        exact .inl ⟨rfl, rfl⟩
      · have hbefore := Nat.not_le.1 hinside
        cases h.symm.trans (run_pushAll_single (run_push_before hbefore v w))
        exact .inr ⟨rfl, hbefore, rfl⟩

theorem ne_zero_of_isSpent_window {limit : Nat}
    (h : isSpent [.window start position (some limit)] = false) : limit ≠ 0 := by
  rintro rfl
  cases h

/-- Finding an element uses up what a window may request, and so does finding none. -/
theorem draws_window_le {limit requests : Nat}
    {found : Option (Element × List Stage × Sequence)}
    (h : Draws Pulls [.window start position (some limit)] s w found requests w') :
    requests ≤ start - position + limit ∧
      ∀ element stages rest, found = some (element, stages, rest) →
        ∃ position' limit', stages = [.window start position' (some limit')] ∧
          requests + (start - position' + limit') ≤ start - position + limit := by
  generalize hwindow : [Stage.window start position (some limit)] = stages at h
  induction h generalizing position limit with
  | spent => exact ⟨Nat.zero_le _, by rintro _ _ _ ⟨⟩⟩
  | ended hopen =>
      subst hwindow
      have hlimit := ne_zero_of_isSpent_window hopen
      exact ⟨by omega, by rintro _ _ _ ⟨⟩⟩
  | handed hopen _ hpush =>
      subst hwindow
      have hlimit := ne_zero_of_isSpent_window hopen
      rcases pushAll_window_cases hpush with ⟨-, rfl⟩ | ⟨hnone, -⟩
      · refine ⟨by omega, ?_⟩
        rintro element stages rest ⟨⟩
        exact ⟨position + 1, limit - 1, rfl, by omega⟩
      · cases hnone
  | dropped hopen _ hpush _ ih =>
      subst hwindow
      rcases pushAll_window_cases hpush with ⟨hsome, -⟩ | ⟨-, hbefore, rfl⟩
      · cases hsome
      · obtain ⟨hle, hlater⟩ := ih rfl
        refine ⟨by omega, fun element stages rest hfound => ?_⟩
        obtain ⟨position', limit', hstages, hbound⟩ := hlater element stages rest hfound
        exact ⟨position', limit', hstages, by omega⟩

theorem Watches.window_le {n limit requests : Nat} {seen : List (Element × World)}
    (h : Watches [.window start position (some limit)] s w n seen ended requests w') :
    requests ≤ start - position + limit := by
  generalize hwindow : [Stage.window start position (some limit)] = stages at h
  induction h generalizing position limit with
  | enough => exact Nat.zero_le _
  | ended h =>
      subst hwindow
      exact (draws_window_le h).1
  | seen h _ ih =>
      subst hwindow
      obtain ⟨position', limit', hstages, hbound⟩ := (draws_window_le h).2 _ _ _ rfl
      have hmore := ih hstages.symm
      omega

end Window

end Sequence

namespace Expr

open Window

/-- A slice hands on the errors before its start, and then what lies from its start on, until it
is full. So an element is handed on at its place, if it lies before the end by more than the number
of errors that come before the start. No more is requested than lies before the end. -/
theorem eval_slice_emits (access : ItemAccess EvalM) {substitution : Substitution} {scope : Scope}
    {source : Expr} (start : Nat) (stop : Option Nat) {s : Sequence} {w₀ w₁ : World}
    (hnone : substitution [] = none)
    (hsource : (do (← eval access (inPart substitution 0) scope source).intoSequence :
      EvalM Sequence).run w₀ = (.ok s, w₁)) :
    let window : Stage := .window start 0 (stop.map (· - start))
    (eval access substitution scope (.slice source start stop)).run w₀ =
        (.ok (.sequence (s.then_ window)), w₁) ∧
      (∀ w xs ended, s.Emits w xs ended →
        (s.then_ window).Emits w (sliced start stop xs)
          (ended || isFull (stop.map (· - start)) (passed start xs)) ∧
        ∀ p, start ≤ p → (sliced start stop xs)[lost start xs + (p - start)]? =
          if ∀ b ∈ stop, p + lost start xs < b then xs[p]? else none) ∧
      ∀ b ∈ stop, start ≤ b → ∀ w limit seen ended requests w',
        s.Watches [window] w limit seen ended requests w' → requests ≤ b := by
  intro window
  refine ⟨?_, fun w xs ended h => ⟨h.window start 0 _, fun p hp => getElem?_sliced hp stop xs⟩, ?_⟩
  · obtain ⟨output, w₂, houtput, hsequence⟩ := EvalM.exists_of_run_bind hsource
    rw [eval, hnone]
    simp only
    rw [EvalM.run_bind_ok houtput, EvalM.run_bind_ok hsequence]
    rfl
  · rintro b rfl hle w limit seen ended requests w' h
    have hrequests : requests ≤ start - 0 + (b - start) := h.window_le
    omega

/-- An error inside of the slice takes up its own place. -/
theorem eval_slice_emits_inside :
    let e : Error := .ofCause .divisionByZero
    let s : Sequence := .ofElements [.ok (.int 1), .error e, .ok (.int 2), .ok (.int 3)]
    let outputs : Substitution := .ofList [([0], .sequence s)]
    let sliced := s.then_ (.window 1 0 (some 2))
    (eval .live outputs [] (.slice (.context 0 .any) 1 (some 3))).run {} =
        (.ok (.sequence sliced), {}) ∧
      sliced.Emits {} [.error e, .ok (.int 2)] true := by
  intro e s outputs sliced
  have hsource : (do (← eval .live (inPart outputs 0) [] (.context 0 .any)).intoSequence :
      EvalM Sequence).run {} = (.ok s, {}) := rfl
  obtain ⟨hrun, hemits, -⟩ := eval_slice_emits .live 1 (some 3) rfl hsource
  have hs : s.Delivers {} [.ok (.int 1), .error e, .ok (.int 2), .ok (.int 3)] {} :=
    .more rfl (.more rfl (.more rfl (.more rfl (.done rfl))))
  exact ⟨hrun, (hemits {} _ true hs.emits).1⟩

/-- An error before the slice takes up the place of its only element. -/
theorem eval_slice_loses_element :
    let e : Error := .ofCause .divisionByZero
    let xs : List Element := [.error e, .ok (.int 1), .ok (.int 2)]
    ∃ sliced : Sequence,
      (eval .live (.ofList [([0], .sequence (.ofElements xs))]) []
        (.slice (.context 0 .any) 1 (some 2))).run {} = (.ok (.sequence sliced), {}) ∧
      sliced.Delivers {} [.error e] {} ∧ xs[1]? = some (.ok (.int 1)) :=
  ⟨_, rfl, .more rfl (.done rfl), rfl⟩

end Expr

end RecordAlgebra
