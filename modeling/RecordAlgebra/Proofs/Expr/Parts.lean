import RecordAlgebra.Expr.References

/-!
# Parts of expressions

What is shown for an expression from its parts holds for all expressions. The
references of an expression are those of its parts, and so are the literals.
-/

namespace RecordAlgebra

namespace References

variable (a b c : References)

@[simp] theorem add_direct : (a + b).direct = a.direct + b.direct := rfl

@[simp] theorem add_nested : (a + b).nested = a.nested + b.nested := rfl

@[simp] theorem zero_direct : zero.direct = 0 := rfl

@[simp] theorem zero_nested : zero.nested = 0 := rfl

@[simp] theorem add_zero : a + zero = a := rfl

theorem add_assoc : a + b + c = a + (b + c) := by
  rw [References.mk.injEq]
  exact ⟨Nat.add_assoc _ _ _, Nat.add_assoc _ _ _⟩

end References

/-- The number of bindings that a part sees more than the whole. -/
def ChildScope.bindings : ChildScope → Nat
  | .same => 0
  | .nested => 1

namespace Expr

theorem childInduction {motive : Expr → Prop}
    (step : ∀ e : Expr, (∀ part ∈ e.children, motive part.1) → motive e) (e : Expr) : motive e :=
  @Expr.rec motive (fun operands => ∀ e ∈ operands, motive e)
    (fun fields => ∀ field ∈ fields, motive field.2) (fun keys => ∀ key ∈ keys, motive key.1)
    (fun part => ∀ e ∈ part, motive e) (fun field => motive field.2) (fun key => motive key.1)
    (fun _ _ => step _ (by simp [children])) (fun _ => step _ (by simp [children]))
    (fun _ _ _ ih => step _ (by simpa [children] using ih))
    (fun _ _ _ left right => step _ (by simpa [children] using ⟨left, right⟩))
    (fun _ _ ih => step _ (by simpa [children] using ih))
    (fun _ _ ih => step _ (by simpa [children] using ih))
    (fun _ _ _ _ left right => step _ (by simpa [children] using ⟨left, right⟩))
    (fun _ _ _ left right => step _ (by simpa [children] using ⟨left, right⟩))
    (fun _ _ ih => step _ (by simpa only [children, List.forall_mem_map] using ih))
    (fun _ _ ih => step _ (by simpa [children] using ih))
    (fun _ _ source predicate => step _ (by simpa [children] using ⟨source, predicate⟩))
    (fun _ _ _ source projection => step _ (by simpa [children] using ⟨source, projection⟩))
    (fun _ _ source keys => step _ (by
      simpa only [children, List.forall_mem_cons, List.forall_mem_map] using ⟨source, keys⟩))
    (fun _ _ _ _ source key total => step _ (by simpa [children] using ⟨source, key, total⟩))
    (fun _ _ _ _ source projection => step _ (by simpa [children] using ⟨source, projection⟩))
    (fun _ ih => step _ (by simpa [children] using ih))
    (fun _ _ _ ih => step _ (by simpa [children] using ih))
    (fun _ _ _ source default => step _ (by simpa [children] using ⟨source, default⟩))
    (by simp) (fun _ _ first others => by simpa using ⟨first, others⟩)
    (by simp) (fun _ _ first others => List.forall_mem_cons.2 ⟨first, others⟩)
    (by simp) (fun _ _ first others => List.forall_mem_cons.2 ⟨first, others⟩)
    (by simp) (fun _ ih => by simpa using ih) (fun _ _ ih => ih) (fun _ _ ih => ih) e

/-- The references of parts from a position on. -/
def partReferences (skip : Path → Bool) (depth position : Nat) :
    List (Expr × ChildScope) → References
  | [] => .zero
  | (e, scope) :: rest =>
      references (inPart skip position) (depth + scope.bindings) e +
        partReferences skip depth (position + 1) rest

variable {skip : Path → Bool} {depth : Nat}

theorem operandReferences_eq (position : Nat) (operands : List Expr) :
    operandReferences skip depth position operands =
      partReferences skip depth position (operands.map (·, .same)) := by
  induction operands generalizing position with
  | nil => rfl
  | cons e rest ih =>
      rw [operandReferences, ih]
      rfl

theorem fieldReferences_eq (position : Nat) (fields : List (String × Expr)) :
    fieldReferences skip depth position fields =
      partReferences skip depth position (fields.map fun field => (field.2, .same)) := by
  induction fields generalizing position with
  | nil => rfl
  | cons field rest ih =>
      rw [fieldReferences, ih]
      rfl

theorem keyReferences_eq (position : Nat) (keys : List (Expr × Direction)) :
    keyReferences skip (depth + 1) position keys =
      partReferences skip depth position (keys.map fun key => (key.1, .nested)) := by
  induction keys generalizing position with
  | nil => rfl
  | cons key rest ih =>
      rw [keyReferences, ih]
      rfl

/-- An expression refers to what its parts refer to. -/
theorem references_parts (hskip : skip [] = false) {e : Expr} (he : e.isContext = false) :
    references skip depth e = partReferences skip depth 0 e.children := by
  unfold references
  rw [hskip]
  cases e with
  | context n type => cases he
  | boolean op operands => exact operandReferences_eq 0 operands
  | record fields type => exact fieldReferences_eq 0 fields
  | sort source keys =>
      simp only [Bool.false_eq_true, if_false, keyReferences_eq]
      rfl
  | groupBy source key total type =>
      simp only [Bool.false_eq_true, if_false, References.add_assoc]
      rfl
  | aggregate op source projection type => cases projection <;> rfl
  | one source default type => cases default <;> rfl
  | _ => rfl

/-- No reference below bindings counts as direct. -/
theorem references_direct_nested (e : Expr) (skip : Path → Bool) (depth : Nat) :
    (references skip (depth + 1) e).direct = 0 := by
  induction e using childInduction generalizing skip depth with
  | step e ih =>
      cases hskip : skip [] with
      | true =>
          unfold references
          rw [hskip]
          rfl
      | false =>
          cases he : e.isContext with
          | true =>
              cases e with
              | context n type =>
                  unfold references
                  rw [hskip]
                  by_cases hn : n = depth + 1 <;> simp [hn]
              | _ => cases he
          | false =>
              rw [references_parts hskip he]
              have parts (position : Nat) (list : List (Expr × ChildScope))
                  (hlist : ∀ part ∈ list, part ∈ e.children) :
                  (partReferences skip (depth + 1) position list).direct = 0 := by
                induction list generalizing position with
                | nil => rfl
                | cons part rest ihrest =>
                    rw [partReferences, References.add_direct]
                    have hrest := ihrest (position + 1) fun p hp => hlist p (by simp [hp])
                    have hpart := ih part (hlist part (by simp)) (inPart skip position)
                      (depth + part.2.bindings)
                    rw [hrest, Nat.add_zero, ← hpart]
                    congr 2
                    omega
              exact parts 0 e.children fun _ h => h

/-- The node that a path leads to through parts that see the same bindings. -/
def sameNode? : Expr → Path → Option Expr
  | e, [] => some e
  | e, position :: path =>
      match e.children[position]? with
      | some (child, .same) => sameNode? child path
      | _ => none

/-- The expression is a literal of the value or has one inside. -/
def HasLiteral (e : Expr) (v : Value) : Prop := ∃ path, e.node? path = some (.literal v)

theorem hasLiteral_self (v : Value) : (literal v).HasLiteral v := ⟨[], rfl⟩

theorem HasLiteral.part {e : Expr} {part : Expr × ChildScope} (hpart : part ∈ e.children)
    {v : Value} (h : part.1.HasLiteral v) : e.HasLiteral v := by
  obtain ⟨position, hposition⟩ := List.getElem?_of_mem hpart
  obtain ⟨path, hpath⟩ := h
  exact ⟨position :: path, by rw [node?, hposition]; exact hpath⟩

theorem HasLiteral.part_or_self {e : Expr} {v : Value} (h : e.HasLiteral v) :
    e = .literal v ∨ ∃ part ∈ e.children, part.1.HasLiteral v := by
  obtain ⟨path, hpath⟩ := h
  cases path with
  | nil =>
      cases hpath
      exact .inl rfl
  | cons position path =>
      rw [node?] at hpath
      cases hposition : e.children[position]? with
      | none =>
          rw [hposition] at hpath
          cases hpath
      | some part =>
          rw [hposition] at hpath
          exact .inr ⟨part, List.mem_of_getElem? hposition, path, hpath⟩

end Expr

end RecordAlgebra
