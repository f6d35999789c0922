import RecordAlgebra.Proofs.Eval.Running
import RecordAlgebra.Proofs.Item.Live
import RecordAlgebra.Proofs.Typing.Built
import RecordAlgebra.Proofs.Typing.Derivation
import RecordAlgebra.Proofs.Typing.Progress

/-!
# Running settled expressions

Types promise that an expression does not stumble over its data. Where all types
are settled the promise is kept: running the expression ends, what it gives can be
pulled to its end, and every error on the way is a tolerated one.
-/

namespace RecordAlgebra

namespace Sequence

/-- The elements as they are pulled, and whether the end was reached. -/
def pull (s : Sequence) (limit : Nat) : EvalM (List Element × Bool) :=
  s.observe (fun element _ => element) limit

/-- Pulling goes on to an end, and the errors on the way are tolerated. -/
def PullsTolerably (s : Sequence) (w : World) : Prop :=
  ∃ length, ∀ limit, ∃ seen ended w', (s.pull limit).run w = (.ok (seen, ended), w') ∧
    (∀ e, .error e ∈ seen → e.kind.IsTolerated) ∧ (length < limit → ended = true)

end Sequence

def Output.PullsTolerably : Output → World → Prop
  | .value _, _ => True
  | .sequence s, w => s.PullsTolerably w

/-- The action ends, with a tolerated error or with what can be pulled to its end. -/
def RunsTolerably (m : EvalM Output) (w : World) : Prop :=
  match m.run w with
  | (.ok output, w') => output.PullsTolerably w'
  | (.error (.raised e), _) => e.kind.IsTolerated
  | (.error .diverged, _) => False

/-- The action ends, and if it does with an error this is a tolerated one. -/
def EndsTolerably {α : Type} (m : EvalM α) (w : World) : Prop :=
  match (m.run w).1 with
  | .ok _ => True
  | .error (.raised e) => e.kind.IsTolerated
  | .error .diverged => False

section

variable {shared : Shared} {w : World} {s : Sequence} {xs : List Datum.Element}

/-- Pulling gives the elements that the sequence yields, up to the limit. -/
theorem Yields.computes_pull (h : Yields shared w s xs) (limit : Nat) :
    Computes shared none w (s.pull limit) (fun w pulled (_ : Unit) =>
      List.Forall₂ (Agrees w.Shows) pulled.1 (xs.take limit) ∧
        (xs.length < limit → pulled.2 = true)) (.ok ()) := by
  rw [Sequence.pull]
  induction limit generalizing w s xs with
  | zero => exact .pure fun _ _ => ⟨.nil, fun h => absurd h (Nat.not_lt_zero _)⟩
  | succ limit ih =>
      rw [Sequence.observe]
      refine h.2.bind_ok (.first none) fun next w' _ hnext => ?_
      cases xs with
      | nil =>
          cases hnext
          exact .pure fun _ _ => ⟨.nil, fun _ => rfl⟩
      | cons x xs =>
          obtain ⟨element, rest, rfl, hx, hrest⟩ := nextYields_cons.1 hnext
          refine .of_get fun _ _ => (ih hrest).map_ok fun pulled w'' hw'' hpulled => ?_
          refine ⟨.cons (agrees_shows_mono hx hw'') hpulled.1, fun hlimit => ?_⟩
          exact hpulled.2 (Nat.lt_of_succ_lt_succ hlimit)

theorem tolerated_of_agrees {P : Datum → Prop} {seen : List Element}
    (h : List.Forall₂ (Agrees w.Shows) seen xs) (hxs : ∀ x ∈ xs, Progresses P x) {e : Error}
    (he : .error e ∈ seen) : e.kind.IsTolerated := by
  induction h with
  | nil => cases he
  | @cons element x seen xs hx _ ih =>
      obtain ⟨hfirst, hrest⟩ := List.forall_mem_cons.1 hxs
      rcases List.mem_cons.1 he with rfl | he
      · cases x with
        | ok d => exact hx.elim
        | error kind =>
            cases hx
            exact hfirst
      · exact ih hrest he

/-- A sequence that yields data and tolerated errors can be pulled to its end. -/
theorem Yields.pullsTolerably {P : Datum → Prop} (h : Yields shared w s xs)
    (hholds : w.Holds shared) (hxs : ∀ x ∈ xs, Progresses P x) : s.PullsTolerably w := by
  refine ⟨xs.length, fun limit => ?_⟩
  obtain ⟨-, hends⟩ := h.computes_pull limit w (.refl w) hholds (.none w shared)
  rcases hrun : (s.pull limit).run w with ⟨outcome, w'⟩
  rw [hrun] at hends
  obtain ⟨⟨seen, ended⟩, rfl, hseen, hended⟩ := hends.ok_right
  have htake : ∀ x ∈ xs.take limit, Progresses P x := fun x hx => hxs x (List.mem_of_mem_take hx)
  exact ⟨seen, ended, w', rfl, fun e he => tolerated_of_agrees hseen htake he, hended⟩

theorem Gives.pullsTolerably {output : Output} {r : Result} {t : DataType}
    (h : Gives shared w output r) (hholds : w.Holds shared) (hr : r.Fits t) :
    output.PullsTolerably w := by
  cases output with
  | value v => trivial
  | sequence s =>
      cases r with
      | value d =>
          obtain ⟨ds, -, hs⟩ := h
          refine hs.pullsTolerably (P := fun _ => True) hholds fun x hx => ?_
          obtain ⟨d, -, rfl⟩ := List.mem_map.1 hx
          trivial
      | sequence xs =>
          obtain ⟨element, -, hxs⟩ := hr
          exact Yields.pullsTolerably h hholds hxs

theorem Settles.endsTolerably {α β : Type} {m : EvalM α} {R : Shared → World → α → β → Prop}
    {P : β → Prop} {r : Except ErrorKind β} (h : Settles shared w m R r) (hr : Progresses P r) :
    EndsTolerably m w := by
  obtain ⟨_, -, -, -, hends⟩ := h
  unfold EndsTolerably
  cases r with
  | ok b =>
      obtain ⟨a, ha, -⟩ := hends.ok_right
      rw [ha]
      trivial
  | error kind =>
      obtain ⟨e, he, rfl⟩ := hends.error_right
      rw [he]
      exact hr

theorem Settles.runsTolerably {m : EvalM Output} {r : Except ErrorKind Result} {t : DataType}
    (h : Settles shared w m Gives r) (hr : Progresses (Result.Fits t) r) :
    RunsTolerably m w := by
  obtain ⟨others, -, -, hholds, hends⟩ := h
  unfold RunsTolerably
  rcases hm : m.run w with ⟨outcome, w'⟩
  rw [hm] at hholds hends
  cases r with
  | ok result =>
      obtain ⟨output, rfl, hgives⟩ := hends.ok_right
      exact hgives.pullsTolerably hholds hr
  | error kind =>
      obtain ⟨e, rfl, rfl⟩ := hends.error_right
      exact hr

end

namespace Expr

/-- Running a built expression ends, and what it gives can be pulled to its end, with
tolerated errors only: if the types of all nodes are settled and literals and the
input fit their types. -/
theorem run_tolerably {view : ItemRef → String} {e : Expr} (built : e.Built view) {w : World}
    {s : Sequence} {data : List Datum} {lit : Value → Datum}
    (input : Yields .empty w s (Datum.Elements.ofData data))
    (literals : ∀ v, e.HasLiteral v → w.Shows v (lit v) ∧ (lit v).Fits v.datatype)
    (types : ∀ scopes node t, Occurs view [] e scopes node →
      derive false view scopes node = .ok t → t.isSettled = true)
    (declared : ∀ scopes type, Occurs view [] e scopes (.context scopes.length type) →
      (Datum.list data).Fits type) :
    RunsTolerably (e.run .live s) w ∧ EndsTolerably (do (← e.run .live s).intoValue) w := by
  have checks : Checks view (settled lit data) [] e :=
    ⟨built.carriesType_and_proper.2, types, declared, fun v hv => (literals v hv).2,
      fun _ _ _ _ _ _ _ _ _ _ _ _ _ => trivial⟩
  have progresses :=
    (typed_of_derive checks (derive_of_built built)).progresses (scopeFits_nil data)
  have hholds : w.Holds .empty := fun _ _ h => by cases h
  have settles := run_settles ItemAccess.live_readsLoaded hholds input fun v hv =>
    (literals v hv).1
  exact ⟨settles.runsTolerably progresses, settles.intoValue.endsTolerably progresses.value⟩

/-- The halves of integers. -/
def halves : Expr :=
  .map (.input (.list .int)) (.arithmetic .divide (.outer 0) (.literal (.int 2)) .any) (.list .float)

theorem built_halves (view : ItemRef → String) : halves.Built view := by
  have half : mkArithmetic view .divide (.outer 0) (.literal (.int 2)) =
    .ok (.arithmetic .divide (.outer 0) (.literal (.int 2)) .any) := rfl
  have mapped : mkMap view (.input (.list .int))
    (.arithmetic .divide (.outer 0) (.literal (.int 2)) .any) = .ok halves := rfl
  exact .map (.input _) (.arithmetic (.outer 0) (.literal _) half) mapped

theorem literal_of_halves {v : Value} (h : halves.HasLiteral v) : v = .int 2 := by
  rcases h.part_or_self with h | ⟨part, hpart, h⟩
  · cases h
  · simp only [halves, children, List.mem_cons, List.not_mem_nil, or_false] at hpart
    rcases hpart with rfl | rfl
    · rcases h.part_or_self with h | ⟨part, hpart, -⟩
      · cases h
      · simp [input, children] at hpart
    · rcases h.part_or_self with h | ⟨part, hpart, h⟩
      · cases h
      · simp only [children, List.mem_cons, List.not_mem_nil, or_false] at hpart
        rcases hpart with rfl | rfl
        · rcases h.part_or_self with h | ⟨part, hpart, -⟩
          · cases h
          · simp [outer, children] at hpart
        · rcases h.part_or_self with h | ⟨part, hpart, -⟩
          · cases h
            rfl
          · simp [children] at hpart

theorem occurs_halves {view : ItemRef → String} {scopes : List DataType} {node : Expr}
    (h : Occurs view [] halves scopes node) :
    (scopes = [] ∧ (node = halves ∨ node = .input (.list .int))) ∨
      (scopes = [.int] ∧ (node = .arithmetic .divide (.outer 0) (.literal (.int 2)) .any ∨
        node = .outer 0 ∨ node = .literal (.int 2))) := by
  rcases h.of_map with ⟨rfl, rfl⟩ | h | ⟨t, element, ht, helement, h⟩
  · exact .inl ⟨rfl, .inl rfl⟩
  · obtain ⟨rfl, rfl⟩ := h.of_leaf rfl
    exact .inl ⟨rfl, .inr rfl⟩
  · cases ht
    cases helement
    rcases h.of_same (by simp [children]) with ⟨rfl, rfl⟩ | ⟨child, hchild, h⟩
    · exact .inr ⟨rfl, .inl rfl⟩
    · simp only [children, List.mem_cons, List.not_mem_nil, or_false] at hchild
      rcases hchild with rfl | rfl <;> obtain ⟨rfl, rfl⟩ := h.of_leaf rfl
      · exact .inr ⟨rfl, .inr (.inl rfl)⟩
      · exact .inr ⟨rfl, .inr (.inr rfl)⟩

/-- The halves of integers can be computed: division by two never fails. -/
theorem run_halves_tolerably :
    RunsTolerably (halves.run .live (.ofValues [.int 1, .null])) {} ∧
      EndsTolerably (do (← halves.run .live (.ofValues [.int 1, .null])).intoValue) {} := by
  have input : Yields .empty {} (.ofValues [.int 1, .null])
      (Datum.Elements.ofData [.int 1, .null]) :=
    yields_ofValues (.cons rfl (.cons rfl .nil))
  have shown (v : Value) (hv : halves.HasLiteral v) :
      World.Shows {} v (Datum.ofValue v) ∧ (Datum.ofValue v).Fits v.datatype := by
    rw [literal_of_halves hv]
    exact ⟨rfl, .scalar rfl⟩
  refine run_tolerably (built_halves Datum.unseen) input shown ?_ ?_
  · intro scopes node t hnode ht
    rcases occurs_halves hnode with ⟨rfl, rfl | rfl⟩ | ⟨rfl, rfl | rfl | rfl⟩ <;> cases ht <;> rfl
  · intro scopes type hnode
    rcases occurs_halves hnode with ⟨rfl, h | h⟩ | ⟨rfl, h | h | h⟩ <;> cases h
    refine .list fun d hd => ?_
    simp only [List.mem_cons, List.not_mem_nil, or_false] at hd
    rcases hd with rfl | rfl <;> exact .scalar rfl

end Expr

end RecordAlgebra
