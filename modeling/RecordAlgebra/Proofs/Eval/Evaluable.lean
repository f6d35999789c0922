import RecordAlgebra.Proofs.Eval.Outputs
import RecordAlgebra.Proofs.Expr.Parts

/-!
# What an evaluation relies on

The bindings and the substituted outputs have to stand for what they should,
and an input that is not kept is read at most once. All of this is handed down
from an expression to its parts.
-/

namespace RecordAlgebra

/-- Inputs that are not kept are referred to once at most, and then by whoever
may read them. -/
def Allows (once : Option Nat) (scope : Scope) (references : Nat → References) : Prop :=
  ∀ depth input, scope[depth]? = some (.input input) → input.materialize = false →
    (references depth).nested = 0 ∧
      ((references depth).direct = 0 ∨
        (references depth).direct = 1 ∧ once = some input.cell)

theorem Allows.split {once : Option Nat} {scope : Scope} {a b : Nat → References}
    (h : Allows once scope fun depth => a depth + b depth)
    (ha : ∀ depth, (a (depth + 1)).direct = 0) (hb : ∀ depth, (b (depth + 1)).direct = 0) :
    ∃ first second, Split once first second ∧ Allows first scope a ∧ Allows second scope b := by
  simp only [Allows, References.add_direct, References.add_nested] at h
  by_cases hfirst : (a 0).direct = 0
  · refine ⟨none, once, .second once, fun depth input hinput hkept => ?_,
      fun depth input hinput hkept => ?_⟩
    · refine ⟨by have := (h depth input hinput hkept).1; omega, .inl ?_⟩
      cases depth with
      | zero => exact hfirst
      | succ depth => exact ha depth
    · obtain ⟨hnested, hdirect⟩ := h depth input hinput hkept
      refine ⟨by omega, ?_⟩
      cases depth with
      | zero =>
          rw [hfirst, Nat.zero_add] at hdirect
          exact hdirect
      | succ depth => exact .inl (hb depth)
  · refine ⟨once, none, .first once, fun depth input hinput hkept => ?_,
      fun depth input hinput hkept => ?_⟩
    · obtain ⟨hnested, hdirect⟩ := h depth input hinput hkept
      refine ⟨by omega, ?_⟩
      cases depth with
      | zero => exact hdirect.imp (fun h => by omega) fun ⟨h, honce⟩ => ⟨by omega, honce⟩
      | succ depth => exact .inl (ha depth)
    · obtain ⟨hnested, hdirect⟩ := h depth input hinput hkept
      refine ⟨by omega, .inl ?_⟩
      cases depth with
      | zero => rcases hdirect with h | ⟨h, -⟩ <;> omega
      | succ depth => exact hb depth

namespace Expr

/-- Whether nodes are left out because there are outputs for them. -/
def substituted (substitution : Substitution) : Path → Bool := fun path =>
  (substitution path).isSome

/-- What evaluating an expression relies on. -/
structure Evaluable (lit : Value → Datum) (shared : Shared) (once : Option Nat) (w : World)
    (substitution : Substitution) (scope : Scope) (meanings : List Meaning) (e : Expr) : Prop where
  bound : List.Forall₂ (BindingGives shared w) scope meanings
  reads : Allows once scope fun depth => e.references (substituted substitution) depth
  literals : ∀ v, e.HasLiteral v → w.Shows v (lit v)
  outputs : ∀ path output, substitution path = some output →
    ∃ node r, e.sameNode? path = some node ∧ denote lit meanings node = .ok r ∧
      Gives shared w output r

/-- What evaluating parts from a position on relies on. -/
structure EvaluableParts (lit : Value → Datum) (shared : Shared) (once : Option Nat) (w : World)
    (substitution : Substitution) (scope : Scope) (meanings : List Meaning) (position : Nat)
    (parts : List (Expr × ChildScope)) : Prop where
  bound : List.Forall₂ (BindingGives shared w) scope meanings
  reads : Allows once scope fun depth =>
    partReferences (substituted substitution) depth position parts
  literals : ∀ part ∈ parts, ∀ v, part.1.HasLiteral v → w.Shows v (lit v)
  outputs : ∀ i part, parts[i]? = some part → ∀ path output,
    substitution ((position + i) :: path) = some output →
      part.2 = .same ∧ ∃ node r, part.1.sameNode? path = some node ∧
        denote lit meanings node = .ok r ∧ Gives shared w output r

section

variable {lit : Value → Datum} {shared : Shared} {once : Option Nat} {w : World}
  {substitution : Substitution} {scope : Scope} {meanings : List Meaning}

theorem forall₂_bindingGives_mono {w' : World}
    (h : List.Forall₂ (BindingGives shared w) scope meanings) (hw : w.Extends w') :
    List.Forall₂ (BindingGives shared w') scope meanings :=
  h.imp fun _ _ hbinding => hbinding.mono hw

theorem EvaluableParts.mono {position : Nat} {parts : List (Expr × ChildScope)} {w' : World}
    (h : EvaluableParts lit shared once w substitution scope meanings position parts)
    (hw : w.Extends w') :
    EvaluableParts lit shared once w' substitution scope meanings position parts where
  bound := forall₂_bindingGives_mono h.bound hw
  reads := h.reads
  literals part hpart v hv := (h.literals part hpart v hv).mono hw
  outputs i part hpart path output hpath := by
    obtain ⟨hsame, node, r, hnode, hr, hgives⟩ := h.outputs i part hpart path output hpath
    exact ⟨hsame, node, r, hnode, hr, hgives.mono hw⟩

theorem Evaluable.parts {e : Expr}
    (h : Evaluable lit shared once w substitution scope meanings e)
    (hnone : substitution [] = none) (he : e.isContext = false) :
    EvaluableParts lit shared once w substitution scope meanings 0 e.children where
  bound := h.bound
  reads := by
    have hskip : substituted substitution [] = false := by rw [substituted, hnone]; rfl
    simpa only [references_parts hskip he] using h.reads
  literals part hpart v hv := h.literals v (hv.part hpart)
  outputs i part hpart path output hpath := by
    rw [Nat.zero_add] at hpath
    obtain ⟨node, r, hnode, hr⟩ := h.outputs _ output hpath
    rw [sameNode?, hpart] at hnode
    obtain ⟨child, _ | _⟩ := part
    · exact ⟨rfl, node, r, hnode, hr⟩
    · cases hnode

theorem references_direct_of_parts (skip : Path → Bool) (depth position : Nat)
    (parts : List (Expr × ChildScope)) :
    (partReferences skip (depth + 1) position parts).direct = 0 := by
  induction parts generalizing position with
  | nil => rfl
  | cons part rest ih =>
      rw [partReferences, References.add_direct, ih, Nat.add_zero, Nat.add_right_comm]
      exact references_direct_nested part.1 _ _

variable {position : Nat} {e : Expr} {parts : List (Expr × ChildScope)}

theorem EvaluableParts.rest {part : Expr × ChildScope} {second : Option Nat}
    (h : EvaluableParts lit shared once w substitution scope meanings position (part :: parts))
    (hreads : Allows second scope fun depth =>
      partReferences (substituted substitution) depth (position + 1) parts) :
    EvaluableParts lit shared second w substitution scope meanings (position + 1) parts where
  bound := h.bound
  reads := hreads
  literals part hpart := h.literals part (by simp [hpart])
  outputs i part hpart path output hpath := by
    refine h.outputs (i + 1) part hpart path output ?_
    rw [← hpath, Nat.add_assoc, Nat.add_comm 1 i]

/-- A part that sees the same bindings is evaluated with the outputs for it. Either
the part or those after it may read the input. -/
theorem EvaluableParts.same
    (h : EvaluableParts lit shared once w substitution scope meanings position
      ((e, .same) :: parts)) :
    ∃ first second, Split once first second ∧
      Evaluable lit shared first w (inPart substitution position) scope meanings e ∧
      EvaluableParts lit shared second w substitution scope meanings (position + 1) parts := by
  obtain ⟨first, second, hsplit, hfirst, hsecond⟩ := Allows.split h.reads
    (fun depth => references_direct_nested e _ depth)
    (fun depth => references_direct_of_parts _ depth _ parts)
  refine ⟨first, second, hsplit, ⟨h.bound, hfirst, h.literals (e, .same) (by simp), ?_⟩,
    h.rest hsecond⟩
  intro path output hpath
  exact (h.outputs 0 (e, .same) rfl path output hpath).2

/-- A part that sees one binding more is evaluated with nothing substituted, and
reads no input that is not kept. -/
theorem EvaluableParts.nested
    (h : EvaluableParts lit shared once w substitution scope meanings position
      ((e, .nested) :: parts)) :
    (∀ w' v d, w.Extends w' → w'.Shows v d →
      Evaluable lit shared none w' .empty (.value v :: scope) (.value d :: meanings) e) ∧
    EvaluableParts lit shared once w substitution scope meanings (position + 1) parts := by
  have hnone : inPart (substituted substitution) position = substituted .empty := by
    funext path
    cases hpath : substitution (position :: path) with
    | none =>
        rw [inPart, substituted, hpath]
        rfl
    | some output => cases (h.outputs 0 (e, .nested) rfl path output hpath).1
  have hreads := h.reads
  simp only [Allows, partReferences, hnone, References.add_direct, References.add_nested,
    ChildScope.bindings] at hreads
  refine ⟨fun w' v d hw hv => ⟨?_, ?_, ?_, ?_⟩, h.rest fun depth input hinput hkept => ?_⟩
  · exact .cons hv (forall₂_bindingGives_mono h.bound hw)
  · intro depth input hinput hkept
    cases depth with
    | zero => cases hinput
    | succ depth =>
        have hnested := (hreads depth input hinput hkept).1
        exact ⟨(Nat.add_eq_zero_iff.1 hnested).1, .inl (references_direct_nested e _ depth)⟩
  · exact fun v hv => (h.literals (e, .nested) (by simp) v hv).mono hw
  · intro path output hpath
    cases hpath
  · obtain ⟨hnested, hdirect⟩ := hreads depth input hinput hkept
    rw [references_direct_nested e _ depth, Nat.zero_add] at hdirect
    exact ⟨(Nat.add_eq_zero_iff.1 hnested).2, hdirect⟩

end

end Expr

end RecordAlgebra
