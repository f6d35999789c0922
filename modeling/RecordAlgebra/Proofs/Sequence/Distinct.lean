import RecordAlgebra.Proofs.Item.Live
import RecordAlgebra.Proofs.Sequence.Grouped
import RecordAlgebra.Proofs.Sequence.Windows

/-!
# Distinct elements

Of the values in a sequence those are kept whose keys equal none that was kept before, and errors
stay where they are. To make and compare the keys of items may change the state, but if their
fields load without failing, as the same data every time, it is the data that tell which values
are kept. The elements that are left are then distinct themselves, so nothing more is removed if
they are made distinct again.
-/

namespace RecordAlgebra

/-- An element with what it stands for. -/
abbrev MeantElement := Except Error Meant

namespace MeantElement

def element (x : MeantElement) : Element := x.map Meant.value

def elements (xs : List MeantElement) : List Element := xs.map element

/-- What an element stands for if it is no item and has none. -/
def ofElement (x : Element) : MeantElement := x.map fun v => { value := v, datum := .ofValue v }

/-- The values among the elements. -/
def values (xs : List MeantElement) : List Meant := xs.filterMap Except.toOption

@[simp] theorem values_nil : values [] = [] := rfl

@[simp] theorem values_error (e : Error) (xs : List MeantElement) :
    values (.error e :: xs) = values xs := rfl

@[simp] theorem values_ok (k : Meant) (xs : List MeantElement) :
    values (.ok k :: xs) = k :: values xs := rfl

/-- The errors, and those values that equal none of the earlier ones that are left. -/
def firsts (seen : List Meant) : List MeantElement → List MeantElement
  | [] => []
  | .error e :: xs => .error e :: firsts seen xs
  | .ok k :: xs => if seen.any k.same then firsts seen xs else .ok k :: firsts (seen ++ [k]) xs

theorem firsts_removed {seen : List Meant} {k : Meant} (hk : seen.any k.same = true)
    (xs : List MeantElement) : firsts seen (.ok k :: xs) = firsts seen xs := by
  rw [firsts, if_pos hk]

theorem firsts_left {seen : List Meant} {k : Meant} (hk : seen.any k.same = false)
    (xs : List MeantElement) : firsts seen (.ok k :: xs) = .ok k :: firsts (seen ++ [k]) xs := by
  rw [firsts, hk, if_neg Bool.false_ne_true]

/-- Each element is marked by whether it is left. It is a value that is removed exactly if it
equals a value that was left before it. -/
def IsDistinct (xs ys : List MeantElement) : Prop :=
  ∃ marked : List (MeantElement × Bool), marked.map Prod.fst = xs ∧
    (marked.filter Prod.snd).map Prod.fst = ys ∧
      ∀ front x back, marked = front ++ x :: back →
        (x.2 = false ↔
          ∃ k earlier, x.1 = .ok k ∧ (.ok earlier, true) ∈ front ∧ k.same earlier = true)

/-- The elements are marked correctly, given the values that were left before all of them. -/
def IsMarked (seen : List Meant) (marked : List (MeantElement × Bool)) : Prop :=
  ∀ front x back, marked = front ++ x :: back →
    (x.2 = false ↔ ∃ k earlier, x.1 = .ok k ∧
      (earlier ∈ seen ∨ (.ok earlier, true) ∈ front) ∧ k.same earlier = true)

section Marked

variable {seen : List Meant} {marked : List (MeantElement × Bool)} {k : Meant}

/-- The first element is marked correctly, and the others are after what it leaves. -/
theorem IsMarked.cons {x : MeantElement × Bool} {later : List Meant}
    (hx : x.2 = false ↔ ∃ k earlier, x.1 = .ok k ∧ earlier ∈ seen ∧ k.same earlier = true)
    (hlater : ∀ earlier, earlier ∈ later ↔ earlier ∈ seen ∨ (.ok earlier, true) = x)
    (h : IsMarked later marked) : IsMarked seen (x :: marked) := by
  intro front y back hsplit
  cases front with
  | nil =>
      obtain ⟨rfl, -⟩ := List.cons.inj hsplit
      simpa using hx
  | cons first front =>
      obtain ⟨rfl, rfl⟩ := List.cons.inj hsplit
      simp only [h front y back rfl, hlater, List.mem_cons, or_assoc]

theorem isMarked_nil : IsMarked seen [] := by
  intro front x back h
  simp at h

theorem IsMarked.error (h : IsMarked seen marked) (e : Error) :
    IsMarked seen ((.error e, true) :: marked) :=
  .cons (by simp) (by simp) h

theorem IsMarked.removed (hk : seen.any k.same = true) (h : IsMarked seen marked) :
    IsMarked seen ((.ok k, false) :: marked) :=
  .cons (by simpa using hk) (by simp) h

theorem IsMarked.left (hk : seen.any k.same = false) (h : IsMarked (seen ++ [k]) marked) :
    IsMarked seen ((.ok k, true) :: marked) :=
  .cons (by simpa using hk) (by simp) h

end Marked

theorem exists_marked (seen : List Meant) (xs : List MeantElement) :
    ∃ marked : List (MeantElement × Bool), marked.map Prod.fst = xs ∧
      (marked.filter Prod.snd).map Prod.fst = firsts seen xs ∧ IsMarked seen marked := by
  induction xs generalizing seen with
  | nil => exact ⟨[], rfl, rfl, isMarked_nil⟩
  | cons x xs ih =>
      cases x with
      | error e =>
          obtain ⟨marked, rfl, hleft, hmarked⟩ := ih seen
          exact ⟨(.error e, true) :: marked, rfl, by simp [firsts, hleft], hmarked.error e⟩
      | ok k =>
          cases hk : seen.any k.same with
          | true =>
              obtain ⟨marked, rfl, hleft, hmarked⟩ := ih seen
              exact ⟨(.ok k, false) :: marked, rfl, by simp [firsts_removed hk, hleft],
                hmarked.removed hk⟩
          | false =>
              obtain ⟨marked, rfl, hleft, hmarked⟩ := ih (seen ++ [k])
              exact ⟨(.ok k, true) :: marked, rfl, by simp [firsts_left hk, hleft],
                hmarked.left hk⟩

theorem isDistinct_firsts (xs : List MeantElement) : IsDistinct xs (firsts [] xs) := by
  obtain ⟨marked, hxs, hleft, hmarked⟩ := exists_marked [] xs
  refine ⟨marked, hxs, hleft, fun front x back hsplit => ?_⟩
  simpa using hmarked front x back hsplit

/-- What is left equals nothing that was left before it. -/
theorem apart_firsts (seen : List Meant) (xs : List MeantElement) :
    (∀ k ∈ values (firsts seen xs), seen.any k.same = false) ∧
      (values (firsts seen xs)).Pairwise fun k later => later.same k = false := by
  induction xs generalizing seen with
  | nil => exact ⟨nofun, .nil⟩
  | cons x xs ih =>
      cases x with
      | error e => exact ih seen
      | ok k =>
          cases hk : seen.any k.same with
          | true =>
              rw [firsts_removed hk]
              exact ih seen
          | false =>
              obtain ⟨hseen, hapart⟩ := ih (seen ++ [k])
              have hlater : ∀ later ∈ values (firsts (seen ++ [k]) xs),
                  seen.any later.same = false ∧ later.same k = false := by
                intro later hmem
                simpa [List.any_append] using hseen later hmem
              rw [firsts_left hk, values_ok, List.forall_mem_cons, List.pairwise_cons]
              exact ⟨⟨hk, fun later hmem => (hlater later hmem).1⟩,
                fun later hmem => (hlater later hmem).2, hapart⟩

theorem mem_values_of_mem_firsts {seen : List Meant} {xs : List MeantElement} {k : Meant}
    (h : k ∈ values (firsts seen xs)) : k ∈ values xs := by
  induction xs generalizing seen with
  | nil => exact h
  | cons x xs ih =>
      cases x with
      | error e => exact ih h
      | ok first =>
          rw [values_ok, List.mem_cons]
          rw [firsts] at h
          split at h
          · exact .inr (ih h)
          · exact (List.mem_cons.1 h).imp_right ih

/-- Where equality of the keys is symmetric, no two of the values that are left are equal. -/
theorem unequal_firsts {xs : List MeantElement} (hformed : ∀ k ∈ values xs, k.datum.IsFormed)
    (hsources : ∀ k ∈ values xs, ∀ other ∈ values xs, k.datum.ShareSources other.datum) :
    (values (firsts [] xs)).Pairwise fun k other =>
      k.same other = false ∧ other.same k = false := by
  refine (apart_firsts [] xs).2.imp_of_mem fun {k other} hk hother hapart => ?_
  have hk := mem_values_of_mem_firsts hk
  have hother := mem_values_of_mem_firsts hother
  rw [← Meant.same_swap (hformed k hk) (hformed other hother) (hsources k hk other hother)]
  exact ⟨hapart, hapart⟩

/-- Nothing more is removed from what is left. -/
theorem firsts_firsts (seen : List Meant) (xs : List MeantElement) :
    firsts seen (firsts seen xs) = firsts seen xs := by
  induction xs generalizing seen with
  | nil => rfl
  | cons x xs ih =>
      cases x with
      | error e => rw [firsts, firsts, ih]
      | ok k =>
          cases hk : seen.any k.same with
          | true => rw [firsts_removed hk, ih]
          | false => rw [firsts_left hk, firsts_left hk, ih]

end MeantElement

open MeantElement (elements firsts values)

section Keys

variable {held : Holdings} {J : World → Prop} {level : Nat} (loads : held.Loads J level)
  {k : Meant} {seen : List Meant}

include loads

theorem isSeen_finds (hk : held.Means k.value k.datum)
    (hseen : ∀ earlier ∈ seen, held.Means earlier.value earlier.datum) :
    Finds J (· = seen.any k.same) (Stage.isSeen ItemAccess.live k.key (seen.map Meant.key)) := by
  induction seen with
  | nil => exact .pure rfl
  | cons earlier seen ih =>
      obtain ⟨hearlier, hseen⟩ := List.forall_mem_cons.1 hseen
      rw [List.map_cons, Stage.isSeen, List.any_cons]
      refine (Groups.key_equal_finds loads hk hearlier).bind fun same hsame => ?_
      rw [hsame]
      cases k.same earlier with
      | true => exact .pure rfl
      | false => exact ih hseen

/-- A value is handed on and remembered, unless it equals one that was. -/
theorem push_distinct_finds (hk : held.Means k.value k.datum)
    (hseen : ∀ earlier ∈ seen, held.Means earlier.value earlier.datum) :
    Finds J (· = if seen.any k.same then (none, .distinct .live (seen.map Meant.key))
        else (some (.ok k.value), .distinct .live ((seen ++ [k]).map Meant.key)))
      ((Stage.distinct .live (seen.map Meant.key)).push (.ok k.value)) := by
  rw [Stage.push]
  refine (loads.toKey_finds hk).attempt.bind fun outcome houtcome => ?_
  obtain ⟨key, rfl, rfl⟩ := houtcome
  refine (isSeen_finds loads hk hseen).bind fun found hfound => ?_
  rw [hfound]
  cases seen.any k.same with
  | true => exact .pure rfl
  | false => exact .pure (by rw [List.map_append]; rfl)

end Keys

namespace Sequence

/-- From every state of the one family a pull ends like this, in a state of the other. -/
def PullsFrom (J : World → Prop) (s : Sequence) (r : Option (Element × Sequence))
    (J' : World → Prop) : Prop :=
  ∀ w, J w → ∃ w', s.Pulls w r w' ∧ J' w'

theorem pullsFrom_of_pulls {s : Sequence} {r : Option (Element × Sequence)} {w w' : World}
    (h : s.Pulls w r w') : s.PullsFrom (· = w) r (· = w') := by
  rintro _ rfl
  exact ⟨w', h, rfl⟩

namespace PullsFrom

variable {J J₁ J₂ J' : World → Prop} {s rest : Sequence} {stage other : Stage} {element : Element}

theorem then_ended (h : s.PullsFrom J none J') (hopen : stage.isSpent = false) :
    (s.then_ stage).PullsFrom J none J' := by
  intro w hw
  obtain ⟨w', hpulls, hw'⟩ := h w hw
  exact ⟨w', pulls_then_ended hpulls hopen, hw'⟩

theorem then_handed {result : Element} (h : s.PullsFrom J (some (element, rest)) J₁)
    (hopen : stage.isSpent = false)
    (hpush : EvalM.Leads J₁ (stage.push element) (.ok (some result, other)) J') :
    (s.then_ stage).PullsFrom J (some (result, rest.then_ other)) J' := by
  intro w hw
  obtain ⟨w₁, hpulls, hw₁⟩ := h w hw
  obtain ⟨w', hpush, hw'⟩ := hpush w₁ hw₁
  exact ⟨w', pulls_then_handed hpulls hopen hpush, hw'⟩

theorem then_dropped {r : Option (Element × Sequence)}
    (h : s.PullsFrom J (some (element, rest)) J₁) (hopen : stage.isSpent = false)
    (hpush : EvalM.Leads J₁ (stage.push element) (.ok (none, other)) J₂)
    (hrest : (rest.then_ other).PullsFrom J₂ r J') : (s.then_ stage).PullsFrom J r J' := by
  intro w hw
  obtain ⟨w₁, hpulls, hw₁⟩ := h w hw
  obtain ⟨w₂, hpush, hw₂⟩ := hpush w₁ hw₁
  obtain ⟨w', hrest, hw'⟩ := hrest w₂ hw₂
  exact ⟨w', pulls_then_dropped hpulls hopen hpush hrest, hw'⟩

end PullsFrom

/-- Pulling gives these elements first, and then the end if it is said to come. Whenever a value
is given, it and all those that were given before stand for what they are said to stand for. -/
inductive ReadsMeant : List Meant → Sequence → (World → Prop) → List MeantElement → Bool → Prop
  | begun (before : List Meant) (s : Sequence) (J : World → Prop) : ReadsMeant before s J [] false
  | ended {before : List Meant} {s : Sequence} {J J' : World → Prop}
      (h : s.PullsFrom J none J') : ReadsMeant before s J [] true
  | error {before : List Meant} {s rest : Sequence} {J J' : World → Prop} {e : Error}
      {xs : List MeantElement} {ended : Bool} (h : s.PullsFrom J (some (.error e, rest)) J')
      (hrest : ReadsMeant before rest J' xs ended) : ReadsMeant before s J (.error e :: xs) ended
  | value {before : List Meant} {s rest : Sequence} {J J' : World → Prop} {k : Meant}
      {held : Holdings} {level : Nat} {xs : List MeantElement} {ended : Bool}
      (h : s.PullsFrom J (some (.ok k.value, rest)) J') (loads : held.Loads J' level)
      (hkeys : ∀ key ∈ before ++ [k], held.Means key.value key.datum)
      (hrest : ReadsMeant (before ++ [k]) rest J' xs ended) :
      ReadsMeant before s J (.ok k :: xs) ended

section Distinct

variable {before seen : List Meant} {s : Sequence} {J J₁ J' : World → Prop}
  {xs : List MeantElement} {ended : Bool}

namespace ReadsMeant

theorem emits (h : ReadsMeant before s J xs ended) {w : World} (hw : J w) :
    s.Emits w (elements xs) ended := by
  induction h generalizing w with
  | begun _ s J => exact .begun s w
  | ended h =>
      obtain ⟨w', hpulls, -⟩ := h w hw
      exact .ended hpulls
  | error h _ ih =>
      obtain ⟨w', hpulls, hw'⟩ := h w hw
      exact .given hpulls (ih hw')
  | value h _ _ _ ih =>
      obtain ⟨w', hpulls, hw'⟩ := h w hw
      exact .given hpulls (ih hw')

theorem isFormed (h : ReadsMeant before s J xs ended) : ∀ k ∈ values xs, k.datum.IsFormed := by
  induction h with
  | begun => exact nofun
  | ended => exact nofun
  | error _ _ ih => exact ih
  | value _ _ hkeys _ ih =>
      have hk := hkeys _ (List.mem_append_right _ (List.mem_singleton_self _))
      exact List.forall_mem_cons.2 ⟨hk.isFormed, ih⟩

/-- A sequence that drops its first elements gives what it gives without them. -/
theorem of_pullsFrom {t : Sequence}
    (hpulls : ∀ r J', t.PullsFrom J₁ r J' → s.PullsFrom J r J')
    (h : ReadsMeant before t J₁ xs ended) : ReadsMeant before s J xs ended := by
  cases h with
  | begun => exact .begun before s J
  | ended h => exact .ended (hpulls _ _ h)
  | error h hrest => exact .error (hpulls _ _ h) hrest
  | value h loads hkeys hrest => exact .value (hpulls _ _ h) loads hkeys hrest

/-- The stage gives the first of the values that are equal, and each of them and of those that
it gave before stands for what it stood for. The induction is on the elements, and the keys that
the stage has seen are among those that were read. -/
theorem distinct (h : ReadsMeant before s J xs ended) (hseen : ∀ key ∈ seen, key ∈ before) :
    ReadsMeant seen (s.then_ (.distinct .live (seen.map Meant.key))) J (firsts seen xs) ended := by
  induction h generalizing seen with
  | begun => exact .begun seen _ _
  | ended h => exact .ended (h.then_ended rfl)
  | error h _ ih =>
      exact .error (h.then_handed rfl fun w hw => ⟨w, rfl, hw⟩) (ih hseen)
  | @value before s rest J J' k held level xs ended h loads hkeys _ ih =>
      obtain ⟨hbefore, hk⟩ := List.forall_mem_append.1 hkeys
      have hmeans : ∀ key ∈ seen, held.Means key.value key.datum :=
        fun key hmem => hbefore key (hseen key hmem)
      have hpush := EvalM.leads_of_finds
        (push_distinct_finds loads (hk k (List.mem_singleton_self k)) hmeans)
      cases hsame : seen.any k.same with
      | true =>
          rw [hsame, if_pos rfl] at hpush
          rw [MeantElement.firsts_removed hsame]
          refine (ih fun key hmem => List.mem_append_left _ (hseen key hmem)).of_pullsFrom ?_
          exact fun r J'' => h.then_dropped rfl hpush
      | false =>
          rw [hsame, if_neg Bool.false_ne_true] at hpush
          rw [MeantElement.firsts_left hsame]
          have hboth : ∀ key ∈ seen ++ [k], key ∈ before ++ [k] := fun key hmem =>
            (List.mem_append.1 hmem).elim (fun hmem => List.mem_append_left _ (hseen key hmem))
              (List.mem_append_right _)
          exact .value (h.then_handed rfl hpush) loads (fun key hmem => hkeys key (hboth key hmem))
            (ih hboth)

theorem once (h : ReadsMeant [] s J xs ended) :
    ReadsMeant [] (s.then_ (.distinct .live [])) J (firsts [] xs) ended :=
  h.distinct (List.forall_mem_nil (· ∈ ([] : List Meant)))

end ReadsMeant

/-- Elements that are given, and not computed, give values that stand for data wherever these are
held. -/
theorem readsMeant_ofElements {held : Holdings} {level : Nat} (loads : held.Loads J level)
    (hbefore : ∀ key ∈ before, held.Means key.value key.datum)
    (hxs : ∀ k ∈ values xs, held.Means k.value k.datum) :
    ReadsMeant before (.ofElements (elements xs)) J xs true := by
  induction xs generalizing before with
  | nil => exact .ended fun w hw => ⟨w, pulls_of_next rfl, hw⟩
  | cons x xs ih =>
      cases x with
      | error e => exact .error (fun w hw => ⟨w, pulls_of_next rfl, hw⟩) (ih hbefore hxs)
      | ok k =>
          obtain ⟨hk, hxs⟩ := List.forall_mem_cons.1 hxs
          have hkeys : ∀ key ∈ before ++ [k], held.Means key.value key.datum :=
            List.forall_mem_append.2 ⟨hbefore, List.forall_mem_singleton.2 hk⟩
          exact .value (fun w hw => ⟨w, pulls_of_next rfl, hw⟩) loads hkeys (ih hkeys hxs)

/-- If no element is an item or has one, all elements stand for data. -/
theorem Emits.readsMeant {elements : List Element} {w : World} (h : s.Emits w elements ended)
    (hdata : ∀ v, .ok v ∈ elements → v.IsData)
    (hbefore : ∀ (w : World), ∀ key ∈ before, w.holdings.Means key.value key.datum) :
    ReadsMeant before s (· = w) (elements.map MeantElement.ofElement) ended := by
  induction h generalizing before with
  | begun s w => exact .begun before s _
  | ended h => exact .ended (pullsFrom_of_pulls h)
  | @given s rest w w' element elements ended h _ ih =>
      have hrest : ∀ v, .ok v ∈ elements → v.IsData :=
        fun v hv => hdata v (List.mem_cons_of_mem _ hv)
      cases element with
      | error e => exact .error (pullsFrom_of_pulls h) (ih hrest hbefore)
      | ok v =>
          have hv := hdata v List.mem_cons_self
          have hkeys : ∀ (w : World), ∀ key ∈ before ++ [{ value := v, datum := .ofValue v }],
              w.holdings.Means key.value key.datum := fun w =>
            List.forall_mem_append.2 ⟨hbefore w, List.forall_mem_singleton.2 (hv.shows w).means⟩
          exact .value (pullsFrom_of_pulls h) w'.holdings_loads (hkeys w') (ih hrest hkeys)

end Distinct

/-- Pulling gives these elements first, and then the end if it is said to come. A value is marked
by whether it is left, which it is if its key is not found among those of the values that were
left before. Errors are left. -/
inductive Sifts (access : ItemAccess EvalM) :
    List Value.Key → Sequence → World → List (Element × Bool) → Bool → Prop
  | begun (seen : List Value.Key) (s : Sequence) (w : World) : Sifts access seen s w [] false
  | ended {seen : List Value.Key} {s : Sequence} {w w' : World} (h : s.Pulls w none w') :
      Sifts access seen s w [] true
  | error {seen : List Value.Key} {s rest : Sequence} {w w' : World} {e : Error}
      {marked : List (Element × Bool)} {ended : Bool}
      (h : s.Pulls w (some (.error e, rest)) w') (hrest : Sifts access seen rest w' marked ended) :
      Sifts access seen s w ((.error e, true) :: marked) ended
  | left {seen : List Value.Key} {s rest : Sequence} {w w₁ w₂ w' : World} {v : Value}
      {key : Value.Key} {marked : List (Element × Bool)} {ended : Bool}
      (h : s.Pulls w (some (.ok v, rest)) w₁) (hkey : (v.toKey access).run w₁ = (.ok key, w₂))
      (hseen : (Stage.isSeen access key seen).run w₂ = (.ok false, w'))
      (hrest : Sifts access (seen ++ [key]) rest w' marked ended) :
      Sifts access seen s w ((.ok v, true) :: marked) ended
  | removed {seen : List Value.Key} {s rest : Sequence} {w w₁ w₂ w' : World} {v : Value}
      {key : Value.Key} {marked : List (Element × Bool)} {ended : Bool}
      (h : s.Pulls w (some (.ok v, rest)) w₁) (hkey : (v.toKey access).run w₁ = (.ok key, w₂))
      (hseen : (Stage.isSeen access key seen).run w₂ = (.ok true, w'))
      (hrest : Sifts access seen rest w' marked ended) :
      Sifts access seen s w ((.ok v, false) :: marked) ended

/-- Whatever making and comparing keys does to the state, the elements that are marked are left. -/
theorem Sifts.emits {access : ItemAccess EvalM} {seen : List Value.Key} {s : Sequence} {w : World}
    {marked : List (Element × Bool)} {ended : Bool} (h : Sifts access seen s w marked ended) :
    (s.then_ (.distinct access seen)).Emits w ((marked.filter Prod.snd).map Prod.fst) ended := by
  have push {v : Value} {key : Value.Key} {seen : List Value.Key} {w₁ w₂ w' : World} {found : Bool}
      (hkey : (v.toKey access).run w₁ = (.ok key, w₂))
      (hseen : (Stage.isSeen access key seen).run w₂ = (.ok found, w')) :
      ((Stage.distinct access seen).push (.ok v)).run w₁ =
        (.ok (if found then (none, .distinct access seen)
          else (some (.ok v), .distinct access (seen ++ [key]))), w') := by
    rw [Stage.push, EvalM.run_bind_ok (EvalM.run_attempt_ok hkey)]
    simp only
    rw [EvalM.run_bind_ok hseen]
    cases found <;> rfl
  induction h with
  | begun => exact .begun _ _
  | ended h => exact .ended (pulls_then_ended h rfl)
  | error h _ ih => exact .given (pulls_then_handed h rfl rfl) ih
  | left h hkey hseen _ ih => exact .given (pulls_then_handed h rfl (push hkey hseen)) ih
  | removed h hkey hseen _ ih =>
      exact ih.of_pulls fun _ _ => pulls_then_dropped h rfl (push hkey hseen)

end Sequence

namespace Expr

open MeantElement (IsDistinct)

/-- Errors stay where they are, and a value is removed exactly if its key is found to equal one
of those that were left before it. If the fields of items load without failing, as the same data
every time, the values that are left are the first ones of their kind, no two of them are equal
where equality is symmetric, and to make them distinct again, one by one as they come or all of
them later, changes nothing. -/
theorem eval_distinct_keeps_firsts {substitution : Substitution} {scope : Scope} {source : Expr}
    {s : Sequence} {w₀ w₁ : World} (hnone : substitution [] = none)
    (hsource : (do (← eval .live (inPart substitution 0) scope source).intoSequence :
      EvalM Sequence).run w₀ = (.ok s, w₁)) :
    let once := s.then_ (.distinct .live [])
    (eval .live substitution scope (.distinct source)).run w₀ = (.ok (.sequence once), w₁) ∧
      (∀ w marked ended, s.Sifts .live [] w marked ended →
        once.Emits w ((marked.filter Prod.snd).map Prod.fst) ended) ∧
      (∀ w xs ended, s.Emits w xs ended → (∀ v, .ok v ∈ xs → v.IsData) →
        s.ReadsMeant [] (· = w) (xs.map MeantElement.ofElement) ended) ∧
      ∀ J xs ended, s.ReadsMeant [] J xs ended →
        let kept := firsts [] xs
        IsDistinct xs kept ∧
          ((∀ k ∈ values xs, ∀ other ∈ values xs, k.datum.ShareSources other.datum) →
            (values kept).Pairwise fun k other => k.same other = false ∧ other.same k = false) ∧
          (∀ w, J w → s.Emits w (elements xs) ended ∧
            once.Emits w (elements kept) ended ∧
            (once.then_ (.distinct .live [])).Emits w (elements kept) ended) ∧
          ∀ (held : Holdings) J' level, held.Loads J' level →
            (∀ k ∈ values kept, held.Means k.value k.datum) → ∀ w, J' w →
              ((Sequence.ofElements (elements kept)).then_
                (.distinct .live [])).Emits w (elements kept) true := by
  intro once
  refine ⟨?_, fun w marked ended h => h.emits, fun w xs ended h hdata => ?_, ?_⟩
  · obtain ⟨output, w₂, houtput, hsequence⟩ := EvalM.exists_of_run_bind hsource
    rw [eval, hnone]
    simp only
    rw [EvalM.run_bind_ok houtput, EvalM.run_bind_ok hsequence]
    rfl
  · exact h.readsMeant hdata fun _ => List.forall_mem_nil _
  · intro J xs ended h kept
    have honce : once.ReadsMeant [] J kept ended := h.once
    have htwice := honce.once
    rw [MeantElement.firsts_firsts] at htwice
    refine ⟨MeantElement.isDistinct_firsts xs, MeantElement.unequal_firsts h.isFormed,
      fun w hw => ⟨h.emits hw, honce.emits hw, htwice.emits hw⟩, ?_⟩
    intro held J' level loads hkept w hw
    have hgiven : Sequence.ReadsMeant [] (.ofElements (elements kept)) J' kept true :=
      Sequence.readsMeant_ofElements loads (List.forall_mem_nil _) hkept
    have hagain := hgiven.once
    rw [MeantElement.firsts_firsts] at hagain
    exact hagain.emits hw

/-- Equal numbers of both types, with an error in between. -/
theorem eval_distinct_keeps_firsts_numbers :
    let e : Error := .ofCause .divisionByZero
    let xs : List Element := [.ok (.int 1), .error e, .ok (.float 1.0), .ok (.int 2)]
    let s : Sequence := .ofElements xs
    let outputs : Substitution := .ofList [([0], .sequence s)]
    let once := s.then_ (.distinct .live [])
    (eval .live outputs [] (.distinct (.context 0 .any))).run {} =
        (.ok (.sequence once), {}) ∧
      once.Emits {} [.ok (.int 1), .error e, .ok (.int 2)] true ∧
      (once.then_ (.distinct .live [])).Emits {} [.ok (.int 1), .error e, .ok (.int 2)] true := by
  intro e xs s outputs once
  have hsource : (do (← eval .live (inPart outputs 0) [] (.context 0 .any)).intoSequence :
      EvalM Sequence).run {} = (.ok s, {}) := rfl
  obtain ⟨hrun, -, hdata, hmeant⟩ := eval_distinct_keeps_firsts rfl hsource
  have hs : s.Delivers {} xs {} := .more rfl (.more rfl (.more rfl (.more rfl (.done rfl))))
  have hreads := hdata {} xs true hs.emits (by
    intro v hv
    simp only [xs, List.mem_cons, List.not_mem_nil, Except.ok.injEq, reduceCtorEq] at hv
    rcases hv with rfl | h | rfl | rfl | h
    · exact .single rfl
    · cases h
    · exact .single rfl
    · exact .single rfl
    · cases h)
  obtain ⟨-, -, hemits, -⟩ := hmeant _ _ _ hreads
  exact ⟨hrun, (hemits {} rfl).2⟩

/-- Reading the flag of an item gives false and leaves it true. The item comes twice, and both
times it is left, but one of them is removed if the elements are made distinct again. -/
theorem eval_distinct_keeps_repeated :
    let schema : Schema :=
      { name := "notes", properties := [⟨"x", .boolean, false⟩], distinct := by decide }
    let source : SourceRef := { id := 0, name := "notes", schema }
    let a : Value := .item { cell := 0, source }
    let assigning : Loader :=
      { id := 0, assign := [("x", .bool true)], body := .literal (.bool false) }
    let w : World := { cells := #[{ source, slots := [("x", .deferred assigning)] }] }
    let twice : Expr := .literal (.list [a, a])
    ∃ once again w₁ w₂,
      (eval .live .empty [] (.distinct twice)).run w = (.ok (.sequence once), w) ∧
      once.Delivers w [.ok a, .ok a] w₁ ∧
      (eval .live .empty [] (.distinct (.distinct twice))).run w = (.ok (.sequence again), w) ∧
      again.Delivers w [.ok a] w₂ :=
  ⟨_, _, _, _, rfl, .more rfl (.more rfl (.done rfl)), rfl, .more rfl (.done rfl)⟩

end Expr

end RecordAlgebra
