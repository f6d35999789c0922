import RecordAlgebra.Expr.Build
import RecordAlgebra.Proofs.Datum.Basic
import RecordAlgebra.Proofs.Eval.Keeping
import RecordAlgebra.Proofs.Eval.Lazy

/-!
# Outputs that are taken

Of the outputs substituted for nodes only those for nodes that see the bindings of the whole are
taken. So the evaluation of an expression does not depend on the others. But all of them count
when the references to the input are counted, by which it is decided whether the input is
collected: an output for a node inside of a predicate or the like hides the references in the
node, although the node is evaluated. So the run is the same without these outputs if they hide
nothing, or at least nothing that the decision depends on.
-/

namespace RecordAlgebra

/-- The outputs for nodes that see the bindings of the whole. -/
def Substitution.reached (substitution : Substitution) (e : Expr) : Substitution := fun path =>
  if (e.sameNode? path).isSome then substitution path else none

namespace Expr

variable {access : ItemAccess EvalM} {s t : Substitution} {scope : Scope} {e : Expr}
  {skip more : Path → Bool} {depth : Nat}

/-- The substitutions are the same for nodes that see the bindings of the whole. -/
def AgreeOn (e : Expr) (s t : Substitution) : Prop :=
  ∀ path, (e.sameNode? path).isSome = true → s path = t path

theorem agreeOn_reached (e : Expr) (s : Substitution) : e.AgreeOn s (s.reached e) := by
  intro path hpath
  exact (if_pos hpath).symm

theorem AgreeOn.part (h : e.AgreeOn s t) {i : Nat} {part : Expr}
    (hpart : e.children[i]? = some (part, .same)) : part.AgreeOn (inPart s i) (inPart t i) := by
  intro path hpath
  refine h (i :: path) ?_
  rwa [sameNode?, hpart]

/-- Evaluation depends on the outputs for these nodes only. -/
theorem AgreeOn.eval_eq (h : e.AgreeOn s t) : eval access s scope e = eval access t scope e := by
  induction e using childInduction generalizing s t scope with
  | step e ih =>
      have hroot : s [] = t [] := h [] rfl
      cases hs : s [] with
      | some output => rw [eval_output access hs, eval_output access (hroot.symm.trans hs)]
      | none =>
          have ht := hroot.symm.trans hs
          cases he : e.isContext with
          | true =>
              cases e with
              | context n type => rw [eval, eval, hs, ht]
              | _ => cases he
          | false =>
              exact eval_congr_parts he hs ht
                (fun i part hpart => ih _ (List.mem_of_getElem? hpart) (h.part hpart))
                fun part _ v => rfl

section References

theorem references_skipped (h : skip [] = true) : references skip depth e = .zero := by
  unfold references
  exact if_pos h

/-- Leaving out more nodes leaves out more references. -/
theorem references_le (hmore : ∀ path, skip path = true → more path = true) :
    (references more depth e).direct ≤ (references skip depth e).direct ∧
      (references more depth e).nested ≤ (references skip depth e).nested := by
  induction e using childInduction generalizing skip more depth with
  | step e ih =>
      cases hroot : more [] with
      | true =>
          rw [references_skipped hroot]
          exact ⟨Nat.zero_le _, Nat.zero_le _⟩
      | false =>
          have hskip : skip [] = false := by
            cases hskip : skip [] with
            | false => rfl
            | true => exact absurd (hmore [] hskip) (by simp [hroot])
          cases he : e.isContext with
          | true =>
              cases e with
              | context n type =>
                  rw [references, references, hroot, hskip]
                  exact ⟨Nat.le_refl _, Nat.le_refl _⟩
              | _ => cases he
          | false =>
              have parts (position : Nat) (list : List (Expr × ChildScope))
                  (hlist : ∀ part ∈ list, part ∈ e.children) :
                  (partReferences more depth position list).direct ≤
                      (partReferences skip depth position list).direct ∧
                    (partReferences more depth position list).nested ≤
                      (partReferences skip depth position list).nested := by
                induction list generalizing position with
                | nil => exact ⟨Nat.le_refl _, Nat.le_refl _⟩
                | cons part rest ihrest =>
                    obtain ⟨hpart, hrest⟩ := List.forall_mem_cons.1 hlist
                    obtain ⟨hdirect, hnested⟩ := @ih part hpart (inPart skip position)
                      (inPart more position) (depth + part.2.bindings)
                      fun path => hmore (position :: path)
                    obtain ⟨hdirect', hnested'⟩ := ihrest (position + 1) hrest
                    rw [partReferences, partReferences]
                    exact ⟨Nat.add_le_add hdirect hdirect', Nat.add_le_add hnested hnested'⟩
              rw [references_parts hroot he, references_parts hskip he]
              exact parts 0 e.children fun _ h => h

theorem Ignores.references_skip (h : e.Ignores depth) (skip : Path → Bool) :
    references skip depth e = .zero := by
  have hle := @references_le e (fun _ => false) skip depth nofun
  rw [h.references_eq_zero] at hle
  rcases hrefs : references skip depth e with ⟨direct, nested⟩
  rw [hrefs] at hle
  obtain ⟨hdirect, hnested⟩ := hle
  cases Nat.le_zero.1 hdirect
  cases Nat.le_zero.1 hnested
  rfl

/-- The node that a path leads to, with the number of bindings around it. -/
def boundNode? (depth : Nat) : Expr → Path → Option (Expr × Nat)
  | e, [] => some (e, depth)
  | e, position :: path =>
      match e.children[position]? with
      | some (child, binding) => boundNode? (depth + binding.bindings) child path
      | none => none

/-- Leaving out nodes without references makes no difference. -/
theorem references_eq (hmore : ∀ path, skip path = true → more path = true)
    (hfree : ∀ path node n, more path = true → skip path = false →
      e.boundNode? depth path = some (node, n) → node.Ignores n) :
    references more depth e = references skip depth e := by
  induction e using childInduction generalizing skip more depth with
  | step e ih =>
      cases hskip : skip [] with
      | true => rw [references_skipped hskip, references_skipped (hmore [] hskip)]
      | false =>
          cases hroot : more [] with
          | true =>
              have hignores : e.Ignores depth := hfree [] e depth hroot hskip rfl
              rw [references_skipped hroot, hignores.references_skip]
          | false =>
              cases he : e.isContext with
              | true =>
                  cases e with
                  | context n type => rw [references, references, hroot, hskip]
                  | _ => cases he
              | false =>
                  have parts (position : Nat) (list : List (Expr × ChildScope))
                      (hlist : ∀ i part, list[i]? = some part →
                        e.children[position + i]? = some part) :
                      partReferences more depth position list =
                        partReferences skip depth position list := by
                    induction list generalizing position with
                    | nil => rfl
                    | cons part rest ihrest =>
                        have hpart := hlist 0 part rfl
                        rw [Nat.add_zero] at hpart
                        have hfirst : references (inPart more position)
                            (depth + part.2.bindings) part.1 =
                            references (inPart skip position) (depth + part.2.bindings) part.1 := by
                          refine ih part (List.mem_of_getElem? hpart)
                            (fun path => hmore (position :: path)) fun path node n => ?_
                          have hnode := hfree (position :: path) node n
                          rwa [boundNode?, hpart] at hnode
                        rw [partReferences, partReferences, hfirst, ihrest (position + 1)]
                        intro i part hi
                        have hlater := hlist (i + 1) part hi
                        rwa [Nat.add_comm i, ← Nat.add_assoc] at hlater
                  rw [references_parts hroot he, references_parts hskip he]
                  exact parts 0 e.children fun i part hi => by rwa [Nat.zero_add]

end References

/-- Whether the input is collected when it is read for the first time. -/
def collectsInput (e : Expr) (substitution : Substitution) : Bool :=
  let refs := e.references substitution.skipped 0
  decide (1 < refs.total) || decide (0 < refs.nested)

theorem runWith_eq (access : ItemAccess EvalM) (s : Substitution) (e : Expr)
    (source : EvalM Sequence) : runWith access s e source = (do
      let input ← Input.create (e.collectsInput s) source
      eval access s [.input input] e) := rfl

theorem skipped_of_reached {path : Path} (h : (s.reached e).skipped path = true) :
    s.skipped path = true := by
  rw [Substitution.skipped, Substitution.reached] at h
  split at h
  · exact h
  · cases h

theorem collectsInput_reached (h : e.collectsInput s = true) :
    e.collectsInput (s.reached e) = true := by
  have hle := @references_le e (s.reached e).skipped s.skipped 0 fun _ => skipped_of_reached
  simp only [collectsInput, Bool.or_eq_true, decide_eq_true_eq] at h ⊢
  simp only [References.total] at h ⊢
  omega

/-- No output for a node that is evaluated without it hides a reference to the input. -/
def HidesNothing (e : Expr) (s : Substitution) : Prop :=
  ∀ path node n, (s path).isSome = true → e.sameNode? path = none →
    e.boundNode? 0 path = some (node, n) → node.Ignores n

theorem HidesNothing.collectsInput_eq (h : e.HidesNothing s) :
    e.collectsInput s = e.collectsInput (s.reached e) := by
  have hsame : e.references s.skipped 0 = e.references (s.reached e).skipped 0 := by
    refine references_eq (fun _ => skipped_of_reached) fun path node n hmore hskip hnode => ?_
    refine h path node n hmore ?_ hnode
    cases hreached : e.sameNode? path with
    | none => rfl
    | some node' =>
        have hsame : (s.reached e).skipped path = s.skipped path := by
          rw [Substitution.skipped, Substitution.reached, hreached]
          rfl
        rw [hsame, hmore] at hskip
        cases hskip
  rw [collectsInput, collectsInput, hsame]

/-- Evaluation is the same without the outputs that are never taken. Without them the input is
collected if it is with them, and also only then if they hide nothing. As long as the decision is
the same, runs are the same as well. -/
theorem runWith_reached (access : ItemAccess EvalM) (e : Expr) (s : Substitution)
    (source : EvalM Sequence) :
    (∀ scope, eval access s scope e = eval access (s.reached e) scope e) ∧
    (e.collectsInput s = true → e.collectsInput (s.reached e) = true) ∧
    (e.HidesNothing s → e.collectsInput s = e.collectsInput (s.reached e)) ∧
    (e.collectsInput s = e.collectsInput (s.reached e) →
      runWith access s e source = runWith access (s.reached e) e source) := by
  have heval (scope : Scope) : eval access s scope e = eval access (s.reached e) scope e :=
    (agreeOn_reached e s).eval_eq
  refine ⟨heval, collectsInput_reached, HidesNothing.collectsInput_eq, fun hcollects => ?_⟩
  rw [runWith_eq, runWith_eq, hcollects]
  simp only [heval]

/-- An output for a literal inside of a projection is not taken, and it hides nothing. -/
theorem runWith_reached_successors :
    let e : Expr := .map (.context 0 .any)
      (.arithmetic .add (.context 0 .any) (.literal (.int 1)) .any) (.list .any)
    let s := Substitution.ofList [([1, 1], .value (.int 7))]
    let source : EvalM Sequence := pure (.ofValues [.int 1, .int 2])
    e.HidesNothing s ∧ runWith .live s e source = runWith .live (s.reached e) e source ∧
      ((do (← runWith .live s e source).intoValue).run {}).1 =
        .ok (.list [.int 2, .int 3]) := by
  intro e s source
  have hhides : e.HidesNothing s := by
    intro path node n hpath _ hnode
    obtain rfl : path = [1, 1] := by
      by_contra hne
      have hother : s path = none := by
        simp [s, Substitution.ofList, List.lookup_cons, beq_eq_false_iff_ne.2 hne]
      rw [hother] at hpath
      cases hpath
    cases hnode
    rfl
  obtain ⟨-, -, hsame, hrun⟩ := runWith_reached .live e s source
  exact ⟨hhides, hrun (hsame hhides), rfl⟩

/-- An output for the input inside of a projection hides the reference that is evaluated for
each element. So the input is not collected, and the second time that it is read it is gone.
Without the output every element becomes the length of the input. -/
theorem runWith_hides_reference :
    let e : Expr := .map (.context 0 .any) (.aggregate .len (.context 1 .any) none .int)
      (.list .int)
    let s := Substitution.ofList [([1, 0], .sequence (.ofValues []))]
    let source : EvalM Sequence := pure (.ofValues [.int 1, .int 2])
    e.Built Datum.unseen ∧ (e.sameNode? [1, 0]).isNone = true ∧
      ((do (← runWith .live s e source).intoValue).run {}).1 =
        .error (.raised (.ofCause .inputConsumed)) ∧
      ((do (← runWith .live (s.reached e) e source).intoValue).run {}).1 =
        .ok (.list [.int 2, .int 2]) := by
  intro e s source
  refine ⟨?_, rfl, rfl, rfl⟩
  have hlength : (Expr.aggregate .len (.context 1 .any) none .int).Built Datum.unseen :=
    .aggregate (.outer 1) (fun _ h => by cases h)
      (show Expr.mkAggregate _ .len (.outer 1) none = .ok _ from rfl)
  exact .map (.input .any) hlength (show Expr.mkMap _ (.input .any) _ = .ok e from rfl)

end Expr

end RecordAlgebra
