import RecordAlgebra.Proofs.Sequence.Requests

/-!
# Watching stages

Stages at the end of a sequence are watched by pulling some elements, each of which is seen with
the state in which it comes. This is what observing shows, unless an endless feed goes on for too
long. How the sequence goes on after the requests that watching takes makes no difference. So two
sequences that agree on so many elements look the same through all stages as long as no more than
these are requested.
-/

namespace RecordAlgebra

theorem EvalM.run_bind_diverged {α β : Type} {m : EvalM α} {w : World}
    (h : (m.run w).1 = .error .diverged) (f : α → EvalM β) :
    ((m >>= f).run w).1 = .error .diverged := by
  rcases hm : m.run w with ⟨stop | a, w'⟩ <;> rw [hm] at h
  · cases h
    rw [EvalM.run_bind_error hm]
  · cases h

namespace Sequence

/-- Pulling up to so many elements that come through the stages, until the end is reached, takes
so many requests to the sequence. -/
inductive Watches : List Stage → Sequence → World → Nat → List (Element × World) → Bool → Nat →
    World → Prop
  | enough (stages : List Stage) (s : Sequence) (w : World) : Watches stages s w 0 [] false 0 w
  | ended {stages : List Stage} {s : Sequence} {w w' : World} {limit requests : Nat}
      (h : Draws Pulls stages s w none requests w') :
      Watches stages s w (limit + 1) [] true requests w'
  | seen {stages others : List Stage} {s rest : Sequence} {element : Element} {w w₁ w' : World}
      {limit requests more : Nat} {later : List (Element × World)} {ended : Bool}
      (h : Draws Pulls stages s w (some (element, others, rest)) requests w₁)
      (hrest : Watches others rest w₁ limit later ended more w') :
      Watches stages s w (limit + 1) ((element, w₁) :: later) ended (requests + more) w'

/-- What the one sequence answers to the first so many requests, the other one does too. -/
def AgreesFor : Nat → Sequence → Sequence → Prop
  | 0, _, _ => True
  | n + 1, s, t => ∀ w w',
      (s.Pulls w none w' → t.Pulls w none w') ∧
        ∀ element rest, s.Pulls w (some (element, rest)) w' →
          ∃ rest', t.Pulls w (some (element, rest')) w' ∧ AgreesFor n rest rest'

variable {stages : List Stage} {s t : Sequence} {w w' w'' : World} {limit requests n : Nat}
  {seen : List (Element × World)} {ended : Bool}

theorem Watches.unique {more : Nat} {others : List (Element × World)} {finished : Bool}
    (h : Watches stages s w limit seen ended requests w')
    (hother : Watches stages s w limit others finished more w'') :
    seen = others ∧ ended = finished ∧ requests = more ∧ w' = w'' := by
  induction h generalizing others finished more with
  | enough =>
      cases hother
      exact ⟨rfl, rfl, rfl, rfl⟩
  | ended h =>
      cases hother with
      | ended hsame =>
          obtain ⟨-, rfl, rfl⟩ := h.unique pulls_unique hsame
          exact ⟨rfl, rfl, rfl, rfl⟩
      | seen hsame => cases (h.unique pulls_unique hsame).1
  | seen h _ ih =>
      cases hother with
      | ended hsame => cases (h.unique pulls_unique hsame).1
      | seen hsame hrest =>
          obtain ⟨hfound, rfl, rfl⟩ := h.unique pulls_unique hsame
          cases hfound
          obtain ⟨rfl, rfl, rfl, rfl⟩ := ih hrest
          exact ⟨rfl, rfl, rfl, rfl⟩

section Observe

variable {α : Type} (present : Element → World → α)

theorem isFinite_of_pulls {element : Element} {rest : Sequence}
    (h : s.Pulls w (some (element, rest)) w') (hrest : rest.isFinite = false) :
    s.isFinite = false := by
  rw [Bool.eq_false_iff]
  intro hfinite
  rcases h.next with ⟨hendless, -⟩ | hnext
  · cases hfinite.symm.trans hendless
  · cases (isFinite_of_next hfinite hnext).symm.trans hrest

/-- Observing a sequence shows what watching sees, unless an endless feed goes on for too long. -/
theorem Watches.observe (h : Watches stages s w limit seen ended requests w') :
    (s.isFinite = false ∧
        (((s.through stages).observe present limit).run w).1 = .error .diverged) ∨
      ((s.through stages).observe present limit).run w =
        (.ok (seen.map fun (element, w) => present element w, ended), w') := by
  induction h with
  | enough => exact .inr rfl
  | ended h =>
      rw [Sequence.observe]
      rcases (pulls_through_of_draws h).next with ⟨hendless, hdiverged⟩ | hnext
      · exact .inl ⟨hendless, EvalM.run_bind_diverged hdiverged _⟩
      · rw [EvalM.run_bind_ok hnext]
        exact .inr rfl
  | @seen stages others s rest element w w₁ w' limit requests more later ended h _ ih =>
      rw [Sequence.observe]
      have hpulls := pulls_through_of_draws h
      rcases hpulls.next with ⟨hendless, hdiverged⟩ | hnext
      · exact .inl ⟨hendless, EvalM.run_bind_diverged hdiverged _⟩
      · rw [EvalM.run_bind_ok hnext]
        rcases ih with ⟨hendless, hdiverged⟩ | hlater
        · have hbefore := isFinite_of_pulls hpulls hendless
          exact .inl ⟨hbefore, EvalM.run_bind_diverged hdiverged _⟩
        · refine .inr ((EvalM.run_bind_ok (EvalM.run_get w₁) _).trans ?_)
          exact (EvalM.run_bind_ok hlater _).trans rfl

theorem exists_watches_of_observe {shown : List α}
    (h : ((s.through stages).observe present limit).run w = (.ok (shown, ended), w')) :
    ∃ seen requests, Watches stages s w limit seen ended requests w' ∧
      shown = seen.map fun (element, w) => present element w := by
  induction limit generalizing stages s w shown with
  | zero =>
      cases h
      exact ⟨[], 0, .enough _ _ _, rfl⟩
  | succ limit ih =>
      rw [Sequence.observe] at h
      obtain ⟨r, w₁, hnext, h⟩ := EvalM.exists_of_run_bind h
      obtain ⟨found, requests, hdraws, rfl⟩ := exists_draws_of_pulls_through (pulls_of_next hnext)
      cases found with
      | none =>
          cases h
          exact ⟨[], requests, .ended hdraws, rfl⟩
      | some found =>
          obtain ⟨element, others, rest⟩ := found
          obtain ⟨w₂, w₃, hget, h⟩ := EvalM.exists_of_run_bind h
          cases hget
          obtain ⟨⟨later, finished⟩, w₄, hlater, h⟩ := EvalM.exists_of_run_bind h
          cases h
          obtain ⟨seen, more, hwatches, rfl⟩ := ih hlater
          exact ⟨_, _, .seen hdraws hwatches, rfl⟩

end Observe

section Agreeing

/-- Stages that find the same, and are left with sequences that agree. -/
inductive FoundAlike (n : Nat) :
    Option (Element × List Stage × Sequence) → Option (Element × List Stage × Sequence) → Prop
  | none : FoundAlike n none none
  | some {element : Element} {stages : List Stage} {rest rest' : Sequence}
      (h : rest.AgreesFor n rest') :
      FoundAlike n (some (element, stages, rest)) (some (element, stages, rest'))

/-- What stages find is the same as long as they request what the sequences agree on. -/
theorem draws_alike {found : Option (Element × List Stage × Sequence)}
    (h : Draws Pulls stages s w found requests w') (hagree : s.AgreesFor (requests + n) t) :
    ∃ other, Draws Pulls stages t w other requests w' ∧ FoundAlike n found other := by
  induction h generalizing t with
  | spent hspent => exact ⟨none, .spent hspent, .none⟩
  | ended hopen h =>
      rw [Nat.add_comm] at hagree
      exact ⟨none, .ended hopen ((hagree _ _).1 h), .none⟩
  | handed hopen h hpush =>
      rw [Nat.add_comm] at hagree
      obtain ⟨rest', hrest', hlater⟩ := (hagree _ _).2 _ _ h
      exact ⟨_, .handed hopen hrest' hpush, .some hlater⟩
  | dropped hopen h hpush _ ih =>
      rw [Nat.add_right_comm] at hagree
      obtain ⟨rest', hrest', hlater⟩ := (hagree _ _).2 _ _ h
      obtain ⟨other, hother, hfound⟩ := ih hlater
      exact ⟨other, .dropped hopen hrest' hpush hother, hfound⟩

theorem Watches.alike (h : Watches stages s w limit seen ended requests w')
    (hagree : s.AgreesFor (requests + n) t) :
    Watches stages t w limit seen ended requests w' := by
  induction h generalizing t with
  | enough stages s w => exact .enough stages t w
  | ended h =>
      obtain ⟨other, hother, hfound⟩ := draws_alike h hagree
      cases hfound
      exact .ended hother
  | seen h _ ih =>
      rw [Nat.add_assoc] at hagree
      obtain ⟨other, hother, hfound⟩ := draws_alike h hagree
      cases hfound with
      | some hlater => exact .seen hother (ih hlater)

end Agreeing

end Sequence

namespace Feed

/-- Whether the elements have to be found first. -/
def isDeferred : Feed → Bool
  | .deferred _ => true
  | _ => false

def element? : Feed → Nat → Option (EvalM Value)
  | .actions elements, i => elements[i]?
  | .deferred _, _ => none
  | .endless element position, i => some (element (position + i))

/-- The feed after its first element. -/
def tail : Feed → Feed
  | .actions elements => .actions elements.tail
  | .deferred elements => .deferred elements
  | .endless element position => .endless element (position + 1)

variable {feed : Feed} {w w' : World} {answer : Option (Element × Feed)}

theorem isDeferred_tail (feed : Feed) : feed.tail.isDeferred = feed.isDeferred := by
  cases feed <;> rfl

theorem element?_tail (feed : Feed) (i : Nat) : feed.tail.element? i = feed.element? (i + 1) := by
  cases feed with
  | actions elements => cases elements <;> rfl
  | deferred elements => rfl
  | endless element position => simp only [tail, element?, Nat.add_assoc, Nat.add_comm 1 i]

theorem answers_none (hlisted : feed.isDeferred = false) (h : feed.element? 0 = none) :
    Answers feed w answer w' ↔ answer = none ∧ w = w' := by
  cases feed with
  | actions elements =>
      cases elements with
      | nil =>
          refine ⟨fun h => ?_, ?_⟩
          · cases h
            exact ⟨rfl, rfl⟩
          · rintro ⟨rfl, rfl⟩
            exact .ended w
      | cons action rest => cases h
  | deferred elements => cases hlisted
  | endless element position => cases h

theorem answers_some {action : EvalM Value} (h : feed.element? 0 = some action) :
    Answers feed w answer w' ↔
      ∃ element, (EvalM.attempt action).run w = (.ok element, w') ∧
        answer = some (element, feed.tail) := by
  cases feed with
  | actions elements =>
      cases elements with
      | nil => cases h
      | cons first rest =>
          cases h
          refine ⟨fun h => ?_, ?_⟩
          · cases h with
            | action h => exact ⟨_, h, rfl⟩
          · rintro ⟨element, h, rfl⟩
            exact .action h
  | deferred elements => cases h
  | endless element position =>
      cases h
      refine ⟨fun h => ?_, ?_⟩
      · cases h with
        | endless h => exact ⟨_, h, rfl⟩
      · rintro ⟨result, h, rfl⟩
        exact .endless h

end Feed

namespace Sequence

theorem pulls_bare_iff {feed : Feed} {w w' : World} {r : Option (Element × Sequence)} :
    Pulls { feed, stages := [] } w r w' ↔
      ∃ answer, Feed.Answers feed w answer w' ∧
        r = answer.map fun found => (found.1, { feed := found.2, stages := [] }) := by
  constructor
  · rintro ⟨found, requests, h, rfl⟩
    cases h with
    | spent hspent => cases hspent
    | ended _ h => exact ⟨none, h, rfl⟩
    | handed _ h hpush =>
        cases hpush
        exact ⟨_, h, rfl⟩
    | dropped _ h hpush => cases hpush
  · rintro ⟨_ | ⟨element, rest⟩, h, rfl⟩
    · exact pulls_of_draws (.ended rfl h)
    · exact pulls_of_draws (.handed rfl h rfl)

/-- Streams of which the first elements are the same agree on them. -/
theorem agreesFor_of_elements {n : Nat} {feed other : Feed} (hfeed : feed.isDeferred = false)
    (hother : other.isDeferred = false) (h : ∀ i < n, feed.element? i = other.element? i) :
    AgreesFor n { feed, stages := [] } { feed := other, stages := [] } := by
  induction n generalizing feed other with
  | zero => trivial
  | succ n ih =>
      have hfirst := h 0 n.succ_pos
      intro w w'
      simp only [pulls_bare_iff]
      cases hnext : feed.element? 0 with
      | none =>
          rw [hnext] at hfirst
          refine ⟨?_, ?_⟩
          · rintro ⟨answer, hanswer, -⟩
            obtain ⟨-, rfl⟩ := (Feed.answers_none hfeed hnext).1 hanswer
            exact ⟨none, (Feed.answers_none hother hfirst.symm).2 ⟨rfl, rfl⟩, rfl⟩
          · rintro element rest ⟨answer, hanswer, hrest⟩
            obtain ⟨rfl, -⟩ := (Feed.answers_none hfeed hnext).1 hanswer
            cases hrest
      | some action =>
          rw [hnext] at hfirst
          refine ⟨?_, ?_⟩
          · rintro ⟨answer, hanswer, hrest⟩
            obtain ⟨element, -, rfl⟩ := (Feed.answers_some hnext).1 hanswer
            cases hrest
          · rintro element rest ⟨answer, hanswer, hrest⟩
            obtain ⟨first, hrun, rfl⟩ := (Feed.answers_some hnext).1 hanswer
            cases hrest
            refine ⟨_, ⟨_, (Feed.answers_some hfirst.symm).2 ⟨first, hrun, rfl⟩, rfl⟩, ?_⟩
            refine ih (feed.isDeferred_tail.trans hfeed) (other.isDeferred_tail.trans hother) ?_
            intro i hi
            rw [Feed.element?_tail, Feed.element?_tail]
            exact h (i + 1) (Nat.succ_lt_succ hi)

end Sequence

end RecordAlgebra
