import RecordAlgebra.Proofs.Eval.Outputs
import RecordAlgebra.Proofs.Item.Keeping

/-!
# Reading the input

The references of an expression decide how its input is read. If there is one direct
reference, the input is handed through and read once. If there are more, or some from
inside of predicates and the like, it is collected on the first read and shared from
then on. If there is none, it is not opened. So no read ever comes too late, and a
lazy input is opened once at most.
-/

namespace RecordAlgebra

/-- What is known of the state outlasts steps of items and changes of inputs. -/
structure World.Lasting (I : World → Prop) : Prop where
  items : World.KeptByItems I
  inputs : ∀ (w : World) inputs opened, I w → I { w with inputs, opened }

theorem World.lasting_true : World.Lasting fun _ => True :=
  ⟨⟨fun _ _ => trivial, fun _ _ _ => trivial, fun _ _ => trivial, fun _ _ _ => trivial⟩,
    fun _ _ _ _ => trivial⟩

namespace Allowance

/-- An allowance for reads of the input in a cell, by its state and by how many inputs were
opened, of which there may be so many. -/
def ofInput (I : World → Prop) (cell : Nat) (error : Error → Prop) (limit : Nat)
    (H : Nat → Option InputState → Nat → Prop) (less : ∀ n s o, H (n + 1) s o → H n s o)
    (bounded : ∀ s o, H 0 s o → o ≤ limit) : Allowance where
  holds n w := I w ∧ H n w.inputs[cell]? w.opened
  stuck w := w.opened ≤ limit
  error := error
  holds_of_succ n _ h := ⟨h.1, less n _ _ h.2⟩
  stuck_of_holds _ h := bounded _ _ h.2

/-- The input and the number of openings stay as they are. -/
def still (I : World → Prop) (cell : Nat) (error : Error → Prop)
    (seen : Option InputState × Nat) : Allowance :=
  ofInput I cell error seen.2 (fun _ s o => (s, o) = seen) (fun _ _ _ h => h)
    fun _ _ h => Nat.le_of_eq (congrArg Prod.snd h)

/-- The input waits or is collected, so that it can be read again and again. -/
def shared (I : World → Prop) (cell : Nat) (error : Error → Prop) (opened : Nat) : Allowance :=
  ofInput I cell error (opened + 1)
    (fun _ s o => s = some .pending ∧ o = opened ∨
      (∃ vs, s = some (.materialized vs)) ∧ o ≤ opened + 1)
    (fun _ _ _ h => h) fun _ o h => by rcases h with ⟨-, rfl⟩ | ⟨-, h⟩ <;> omega

/-- The input waits as long as it is to be read once more. -/
def once (I : World → Prop) (cell : Nat) (error : Error → Prop) (opened : Nat) : Allowance :=
  ofInput I cell error (opened + 1)
    (fun n s o => n = 0 ∧ o ≤ opened + 1 ∨ n = 1 ∧ s = some .pending ∧ o = opened)
    (fun _ _ _ h => by omega) fun _ _ h => by omega

/-- The input is not read. -/
def never (I : World → Prop) (cell : Nat) (error : Error → Prop) (opened : Nat) : Allowance :=
  ofInput I cell error opened (fun n _ o => n = 0 ∧ o = opened)
    (fun _ _ _ h => by omega) fun _ _ h => by omega

variable {I : World → Prop} {cell limit : Nat} {error : Error → Prop}
  {H : Nat → Option InputState → Nat → Prop} {less : ∀ n s o, H (n + 1) s o → H n s o}
  {bounded : ∀ s o, H 0 s o → o ≤ limit}

theorem ofInput_keptByItems (hI : World.Lasting I) (k : Nat) :
    World.KeptByItems ((ofInput I cell error limit H less bounded).holds k) where
  counted h id := ⟨hI.items.counted h.1 id, h.2⟩
  assigned h hslot v := ⟨hI.items.assigned h.1 hslot v, h.2⟩
  started h hslot := ⟨hI.items.started h.1 hslot, h.2⟩
  loaded h hslot v := ⟨hI.items.loaded h.1 hslot v, h.2⟩

theorem ofInput_coveredBy {error' : Error → Prop} (herror : ∀ e, error' e → error e) :
    (ofInput I cell error limit H less bounded).CoveredBy (still I cell error') := by
  intro k w hw
  have hzero := holds_of_le (Nat.zero_le k) hw
  refine ⟨(w.inputs[cell]?, w.opened), ⟨hw.1, rfl⟩, ?_, ?_, herror⟩
  · rintro w' ⟨hI', hseen⟩
    obtain ⟨hstate, hopened⟩ := Prod.mk.inj hseen
    refine ⟨hI', ?_⟩
    rw [hstate, hopened]
    exact hw.2
  · intro w' hw'
    exact Nat.le_trans hw' (bounded _ _ hzero.2)

end Allowance

/-- Pulling leaves the input in the cell and the number of openings as they are, and gives
only errors of this kind. -/
def Sequence.Still (I : World → Prop) (cell : Nat) (error : Error → Prop) (s : Sequence) : Prop :=
  ∀ seen, s.Keeps (.still I cell error seen)

def Output.Still (I : World → Prop) (cell : Nat) (error : Error → Prop) (output : Output) : Prop :=
  ∀ seen, output.Keeps (.still I cell error seen)

/-- The input can be opened from every state in question, and gives no errors. Opening it
counts as so many openings at most. -/
def EvalM.OpensWell (I : World → Prop) (cell count : Nat) (source : EvalM Sequence) : Prop :=
  ∀ w, I w → ∃ s w', source.run w = (.ok s, w') ∧ I w' ∧ w'.inputs[cell]? = w.inputs[cell]? ∧
    w'.opened ≤ w.opened + count ∧ s.Still I cell fun _ => False

section Opening

variable {I : World → Prop} {cell : Nat} {source : EvalM Sequence}

theorem EvalM.OpensWell.countOpening (hI : World.Lasting I) (h : source.OpensWell I cell 0) :
    source.countOpening.OpensWell I cell 1 := by
  intro w hw
  have hcounted : I { w with opened := w.opened + 1 } := hI.inputs w w.inputs (w.opened + 1) hw
  obtain ⟨s, w', hrun, hw', hstate, hopened, hs⟩ := h _ hcounted
  refine ⟨s, w', ?_, hw', hstate, hopened, hs⟩
  rw [EvalM.countOpening, EvalM.run_bind_ok (EvalM.run_modify _ w)]
  exact hrun

theorem EvalM.OpensWell.weaken (h : source.OpensWell I cell 0) : source.OpensWell I cell 1 := by
  intro w hw
  obtain ⟨s, w', hrun, hw', hstate, hopened, hs⟩ := h w hw
  exact ⟨s, w', hrun, hw', hstate, Nat.le_succ_of_le hopened, hs⟩

/-- Collecting such a sequence gives all its values, unless it does not end. -/
theorem Sequence.Still.collect {s : Sequence} {w : World} (hw : I w)
    (h : s.Still I cell fun _ => False) :
    (∃ vs w', s.collect.run w = (.ok vs, w') ∧ I w' ∧ w'.inputs[cell]? = w.inputs[cell]? ∧
      w'.opened = w.opened) ∨
      ∃ w', s.collect.run w = (.error .diverged, w') ∧ w'.opened ≤ w.opened := by
  have hends := (h (w.inputs[cell]?, w.opened)).collect 0 w ⟨hw, rfl⟩
  rcases hrun : s.collect.run w with ⟨(e | _) | vs, w'⟩ <;> rw [hrun] at hends
  · exact hends.2.elim
  · exact .inr ⟨w', rfl, hends⟩
  · obtain ⟨⟨hw', hseen⟩, -⟩ := hends
    obtain ⟨hstate, hopened⟩ := Prod.mk.inj hseen
    exact .inl ⟨vs, w', rfl, hw', hstate, hopened⟩

end Opening

namespace Input

variable {I : World → Prop} {input : Input} {error : Error → Prop} {opened : Nat} {w : World}

theorem opened_stateSet (input : Input) (state : InputState) (w : World) :
    (input.stateSet state w).opened = w.opened := rfl

theorem read_materialized {vs : List Value}
    (h : w.inputs[input.cell]? = some (.materialized vs)) :
    input.read.run w = (.ok (.ofValues vs), w) := by
  rw [read, EvalM.run_bind_ok (EvalM.run_get w), h]
  rfl

/-- An input that is collected can be read again. -/
theorem read_shared (hI : World.Lasting I) (hsource : input.source.OpensWell I input.cell 1)
    (hmaterialize : input.materialize = true) :
    Spends (.shared I input.cell error opened) 0
      (Sequence.Keeps (.shared I input.cell error opened)) input.read := by
  rintro k w ⟨hw, ⟨hpending, hopened⟩ | ⟨⟨vs, hvs⟩, hopened⟩⟩
  · have hinside : input.cell < w.inputs.size := by
      have hsome := Array.getElem?_eq_some_iff.1 hpending
      exact hsome.1
    obtain ⟨s, w₁, hrun, hw₁, hstate₁, hopened₁, hs⟩ :=
      hsource (input.stateSet .consumed w) (hI.inputs w _ w.opened hw)
    rw [read_pending hpending, EvalM.run_bind_ok hrun, if_pos hmaterialize]
    rcases hs.collect hw₁ with ⟨vs, w₂, hcollect, hw₂, hstate₂, hopened₂⟩ | ⟨w₂, hcollect, hopened₂⟩
    · rw [EvalM.run_bind_ok hcollect, EvalM.run_bind_ok (run_setState _ w₂)]
      have hconsumed : w₂.inputs[input.cell]? = some .consumed := by
        rw [hstate₂, hstate₁]
        exact Array.getElem?_setIfInBounds_self_of_lt hinside
      have hinside₂ : input.cell < w₂.inputs.size := (Array.getElem?_eq_some_iff.1 hconsumed).1
      refine ⟨⟨hI.inputs w₂ _ w₂.opened hw₂, .inr ⟨⟨vs, ?_⟩, ?_⟩⟩, Sequence.keeps_ofValues vs⟩
      · exact Array.getElem?_setIfInBounds_self_of_lt hinside₂
      · rw [opened_stateSet] at hopened₁ ⊢
        omega
    · rw [EvalM.run_bind_error hcollect]
      show w₂.opened ≤ opened + 1
      rw [opened_stateSet] at hopened₁
      omega
  · rw [read_materialized hvs]
    exact ⟨⟨hw, .inr ⟨⟨vs, hvs⟩, hopened⟩⟩, Sequence.keeps_ofValues vs⟩

/-- An input that is handed through can be read once. -/
theorem read_once (hI : World.Lasting I) (hsource : input.source.OpensWell I input.cell 1)
    (hmaterialize : input.materialize = false) :
    Spends (.once I input.cell error opened) 1
      (Sequence.Keeps (.once I input.cell error opened)) input.read := by
  rintro k w ⟨hw, ⟨hk, -⟩ | ⟨hk, hpending, hopened⟩⟩
  · cases hk
  · obtain ⟨s, w₁, hrun, hw₁, hstate₁, hopened₁, hs⟩ :=
      hsource (input.stateSet .consumed w) (hI.inputs w _ w.opened hw)
    rw [read_pending hpending, EvalM.run_bind_ok hrun, if_neg (by simp [hmaterialize])]
    have hkeeps : s.Keeps (.once I input.cell error opened) :=
      Sequence.keeps_of_covered (Allowance.ofInput_coveredBy nofun) hs
    refine ⟨⟨hw₁, .inl ⟨by omega, ?_⟩⟩, hkeeps⟩
    rw [opened_stateSet] at hopened₁
    omega

theorem read_never :
    Spends (.never I input.cell error opened) 1
      (Sequence.Keeps (.never I input.cell error opened)) input.read := by
  rintro k w ⟨-, hk, -⟩
  cases hk

end Input

/-- The error is not that the input was read before. -/
def Error.IsAboutElse (e : Error) : Prop := e.cause ≠ .inputConsumed

theorem Error.isAboutElse_of_kind {e : Error} (h : e.kind ≠ .internal) : e.IsAboutElse := by
  intro hcause
  rw [Error.kind, hcause] at h
  exact h rfl

/-- How many inputs may have been opened after an evaluation with these references. -/
def References.openings (r : References) (opened : Nat) : Nat :=
  if r.total = 0 then opened else opened + 1

/-- The allowance speaks of the input in this cell, and of so many openings. Its errors are
not about the input. -/
structure Allowance.IsSafe (A : Allowance) (I : World → Prop) (cell openings : Nat) : Prop where
  error : ∀ e, A.error e ↔ e.IsAboutElse
  holds : ∀ w, A.holds 0 w → w.opened ≤ openings
  stuck : ∀ w, A.stuck w → w.opened ≤ openings
  items : ∀ k, World.KeptByItems (A.holds k)
  covered : A.CoveredBy (.still I cell Error.IsAboutElse)

theorem Allowance.isSafe_ofInput {I : World → Prop} (hI : World.Lasting I) (cell limit : Nat)
    (H : Nat → Option InputState → Nat → Prop) (less : ∀ n s o, H (n + 1) s o → H n s o)
    (bounded : ∀ s o, H 0 s o → o ≤ limit) :
    (ofInput I cell Error.IsAboutElse limit H less bounded).IsSafe I cell limit where
  error _ := Iff.rfl
  holds _ h := bounded _ _ h.2
  stuck _ h := h
  items := ofInput_keptByItems hI
  covered := ofInput_coveredBy fun _ h => h

/-- By its references it is decided how an input is read, and then there are reads enough for
all of them. -/
theorem exists_allowance {I : World → Prop} (hI : World.Lasting I) {input : Input}
    (hsource : input.source.OpensWell I input.cell 1) (r : References)
    (hmaterialize : input.materialize = (decide (1 < r.total) || decide (0 < r.nested)))
    (opened : Nat) :
    ∃ A : Allowance, A.IsSafe I input.cell (r.openings opened) ∧
      (∀ w, I w → w.inputs[input.cell]? = some .pending → w.opened = opened →
        A.holds r.direct w) ∧
      ∃ again, Scope.Reads A 0 again [.input input] ∧ (r.nested = 0 ∨ again) := by
  have reads {A : Allowance} {again : Prop} (hread : Spends A 1 (Sequence.Keeps A) input.read)
      (hagain : again → Spends A 0 (Sequence.Keeps A) input.read) :
      Scope.Reads A 0 again [.input input] := by
    intro n binding hbinding
    cases n with
    | zero =>
        cases hbinding
        exact .inr ⟨rfl, input, rfl, hread, hagain⟩
    | succ n => cases hbinding
  have htotal : r.total = r.direct + r.nested := rfl
  unfold References.openings
  by_cases hnone : r.total = 0
  · rw [if_pos hnone]
    refine ⟨.never I input.cell Error.IsAboutElse opened, Allowance.isSafe_ofInput hI _ _ _ _ _,
      ?_, False, reads Input.read_never False.elim, ?_⟩
    · intro w hw _ hopened
      exact ⟨hw, by omega, hopened⟩
    · exact .inl (by omega)
  · rw [if_neg hnone]
    cases hm : input.materialize with
    | true =>
        have hread : Spends (.shared I input.cell Error.IsAboutElse opened) 0
            (Sequence.Keeps (.shared I input.cell Error.IsAboutElse opened)) input.read :=
          Input.read_shared hI hsource hm
        refine ⟨.shared I input.cell Error.IsAboutElse opened, Allowance.isSafe_ofInput hI _ _ _ _ _,
          ?_, True, reads (hread.weaken (Nat.zero_le 1)) fun _ => hread, .inr trivial⟩
        intro w hw hpending hopened
        exact ⟨hw, .inl ⟨hpending, hopened⟩⟩
    | false =>
        rw [hm] at hmaterialize
        have hfew : r.direct = 1 ∧ r.nested = 0 := by
          simp only [Bool.false_eq, Bool.or_eq_false_iff, decide_eq_false_iff_not] at hmaterialize
          omega
        refine ⟨.once I input.cell Error.IsAboutElse opened, Allowance.isSafe_ofInput hI _ _ _ _ _,
          ?_, False, reads (Input.read_once hI hsource hm) False.elim, .inl hfew.2⟩
        intro w hw hpending hopened
        exact ⟨hw, .inr ⟨hfew.1, hpending, hopened⟩⟩

/-- The action does not fail because the input was read before, and after it no more inputs
were opened than that. -/
def EndsSafely {α : Type} (openings : Nat) (outcome : Except Stop α × World) : Prop :=
  (∀ e, outcome.1 = .error (.raised e) → e.IsAboutElse) ∧ outcome.2.opened ≤ openings

/-- What is left of a sequence after some pulls, with the state to which they lead. -/
inductive Sequence.PulledTo : Sequence → World → Sequence → World → Prop
  | start (s : Sequence) (w : World) : PulledTo s w s w
  | pull {s rest left : Sequence} {w w' w'' : World} {element : Element}
      (h : s.next.run w = (.ok (some (element, rest)), w')) (hrest : PulledTo rest w' left w'') :
      PulledTo s w left w''

section Safe

variable {A : Allowance} {I : World → Prop} {cell openings : Nat}
  (hsafe : A.IsSafe I cell openings)

include hsafe

theorem endsSafely_of_ends {α : Type} {P : α → Prop} {outcome : Except Stop α × World}
    (h : A.Ends 0 P outcome) : EndsSafely openings outcome := by
  obtain ⟨(e | _) | a, w⟩ := outcome
  · refine ⟨?_, hsafe.holds w h.1⟩
    rintro _ ⟨⟩
    exact (hsafe.error e).1 h.2
  · exact ⟨nofun, hsafe.stuck w h⟩
  · exact ⟨nofun, hsafe.holds w h.1⟩

theorem pulledTo_endsSafely {s left : Sequence} {w w' : World} (hs : s.Keeps A)
    (hw : A.holds 0 w) (h : s.PulledTo w left w') :
    EndsSafely openings (left.next.run w') ∧
      ∀ e rest w'', left.next.run w' = (.ok (some (.error e, rest)), w'') → e.IsAboutElse := by
  induction h with
  | start s w =>
      have hends := hs.next 0 w hw
      refine ⟨endsSafely_of_ends hsafe hends, ?_⟩
      intro e rest w'' hnext
      rw [hnext] at hends
      exact (hsafe.error e).1 ((hends.2 _ _ rfl).1 e rfl)
  | pull hnext _ ih =>
      have hends := hs.next 0 _ hw
      rw [hnext] at hends
      exact ih (hends.2 _ _ rfl).2 hends.1

end Safe

namespace Expr

/-- Whatever is substituted for nodes that see the bindings of the whole, an evaluation and
everything that is pulled from what it gives read an input that opens well only as long as it is
there. A lazy input is opened once at most, and not at all if nothing refers to it. -/
theorem runWith_reads_safely {I : World → Prop} (hI : World.Lasting I) (e : Expr)
    (substitution : Substitution) {source opener : EvalM Sequence} {w : World} (hw : I w)
    (hsource : source = opener ∨ source = opener.countOpening)
    (hopens : opener.OpensWell I w.inputs.size 0)
    (hreaches : ∀ path output, substitution path = some output →
      (e.sameNode? path).isSome = true)
    (houtputs : ∀ path output, substitution path = some output →
      output.Still I w.inputs.size Error.IsAboutElse) :
    let openings := (e.references (fun path => (substitution path).isSome) 0).openings w.opened
    let outcome := (e.runWith .live substitution source).run w
    EndsSafely openings outcome ∧ ∀ output w₁, outcome = (.ok output, w₁) →
      EndsSafely openings (output.intoValue.run w₁) ∧
      ∀ s left w₂, output = .sequence s → s.PulledTo w₁ left w₂ →
        EndsSafely openings (left.next.run w₂) ∧
          ∀ e rest w₃, left.next.run w₂ = (.ok (some (.error e, rest)), w₃) → e.IsAboutElse := by
  intro openings outcome
  let r := e.references substitution.skipped 0
  let input : Input :=
    { cell := w.inputs.size
      materialize := decide (1 < r.total) || decide (0 < r.nested)
      source }
  have hwell : input.source.OpensWell I input.cell 1 := by
    rcases hsource with rfl | rfl
    · exact hopens.weaken
    · exact hopens.countOpening hI
  obtain ⟨A, hsafe, hstart, again, hscope, hagain⟩ := exists_allowance hI hwell r rfl w.opened
  have hadmits : A.AdmitsFailures := fun e he =>
    (hsafe.error e).2 (Error.isAboutElse_of_kind he)
  have hitems := ItemAccess.live_keeps (Allowance.keptByItems_of_steps hsafe.items) (fun _ => hadmits) ()
  have hsubstitution : substitution.Keeps A e := by
    refine ⟨hreaches, fun path output houtput => ?_⟩
    have hstill := houtputs path output houtput
    cases output with
    | value v => trivial
    | sequence s => exact Sequence.keeps_of_covered hsafe.covered hstill
  let w₀ : World := { w with inputs := w.inputs.push .pending }
  have hw₀ : I w₀ := hI.inputs w _ w.opened hw
  have henough : A.holds (0 + r.direct) w₀ := by
    rw [Nat.zero_add]
    exact hstart w₀ hw₀ (by simp [w₀, input]) rfl
  have hends : A.Ends 0 (Output.Keeps A) outcome :=
    eval_spends hadmits hitems e hsubstitution hscope hagain 0 w₀ henough
  refine ⟨endsSafely_of_ends hsafe hends, ?_⟩
  intro output w₁ hrun
  rw [hrun] at hends
  obtain ⟨hw₁, houtput⟩ := hends
  refine ⟨endsSafely_of_ends hsafe (houtput.intoValue 0 w₁ hw₁), ?_⟩
  rintro s left w₂ rfl hpulled
  exact pulledTo_endsSafely hsafe houtput hw₁ hpulled

theorem runWith_reads_safely_twice :
    EndsSafely 1 ((runWith .live .empty
      (.map (.context 0 .any) (.aggregate .len (.context 1 .any) none .int) .any)
      (EvalM.countOpening (pure (.ofValues [.int 1, .int 2])))).run {}) := by
  have hopens : (pure (.ofValues [.int 1, .int 2]) : EvalM Sequence).OpensWell
      (fun _ => True) 0 0 := by
    intro w _
    exact ⟨_, w, rfl, trivial, rfl, Nat.le_refl _, fun _ => Sequence.keeps_ofValues _⟩
  have hsafe := runWith_reads_safely World.lasting_true
    (.map (.context 0 .any) (.aggregate .len (.context 1 .any) none .int) .any) .empty
    (w := {}) trivial (.inr rfl) hopens nofun nofun
  exact hsafe.1

end Expr

end RecordAlgebra
