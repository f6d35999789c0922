import RecordAlgebra.Eval.Basic
import RecordAlgebra.Proofs.Expr.Parts

/-!
# Alike evaluations

What evaluation does at a node depends on nothing but what it does at the parts. Parts that see
the bindings of the whole are evaluated with the substitution for them, and the others without
one, with one more binding.
-/

namespace RecordAlgebra.Expr

variable {access : ItemAccess EvalM} {s t : Substitution} {scope other : Scope} {e : Expr}

section Lists

theorem evalOperands_congr {op : BooleanOp} {operands : List Expr} (sawNull : Bool)
    (position : Nat)
    (h : ∀ i e, operands[i]? = some e →
      eval access (inPart s (position + i)) scope e =
        eval access (inPart t (position + i)) other e) :
    evalOperands access s scope op sawNull position operands =
      evalOperands access t other op sawNull position operands := by
  induction operands generalizing sawNull position with
  | nil => rw [evalOperands, evalOperands]
  | cons e rest ih =>
      have hfirst := h 0 e rfl
      have hrest (sawNull : Bool) := ih sawNull (position + 1) fun i e he => by
        have hlater := h (i + 1) e he
        rwa [Nat.add_comm i, ← Nat.add_assoc] at hlater
      rw [Nat.add_zero] at hfirst
      rw [evalOperands, evalOperands]
      simp only [hfirst, hrest]

theorem evalFields_congr {fields : List (String × Expr)} (position : Nat)
    (h : ∀ i field, fields[i]? = some field →
      eval access (inPart s (position + i)) scope field.2 =
        eval access (inPart t (position + i)) other field.2) :
    evalFields access s scope position fields = evalFields access t other position fields := by
  induction fields generalizing position with
  | nil => rw [evalFields, evalFields]
  | cons field rest ih =>
      obtain ⟨name, e⟩ := field
      have hfirst := h 0 (name, e) rfl
      have hrest := ih (position + 1) fun i field hfield => by
        have hlater := h (i + 1) field hfield
        rwa [Nat.add_comm i, ← Nat.add_assoc] at hlater
      rw [Nat.add_zero] at hfirst
      rw [evalFields, evalFields]
      simp only [hfirst, hrest]

theorem evalKeys_congr {keys : List (Expr × Direction)}
    (h : ∀ key ∈ keys, eval access .empty scope key.1 = eval access .empty other key.1) :
    evalKeys access scope keys = evalKeys access other keys := by
  induction keys with
  | nil => rw [evalKeys, evalKeys]
  | cons key rest ih =>
      obtain ⟨hfirst, hrest⟩ := List.forall_mem_cons.1 h
      rw [evalKeys, evalKeys]
      simp only [hfirst, ih hrest]

end Lists

/-- A node is evaluated alike if its parts are. -/
theorem eval_congr_parts (he : e.isContext = false) (hs : s [] = none) (ht : t [] = none)
    (same : ∀ (i : Nat) (part : Expr), e.children[i]? = some (part, .same) →
      eval access (inPart s i) scope part = eval access (inPart t i) other part)
    (nested : ∀ part, (part, .nested) ∈ e.children → ∀ v,
      eval access .empty (.value v :: scope) part = eval access .empty (.value v :: other) part) :
    eval access s scope e = eval access t other e := by
  cases e with
  | context n type => cases he
  | literal v => rw [eval_literal access hs, eval_literal access ht]
  | field base name type =>
      rw [eval, eval, hs, ht]
      simp only [same 0 base rfl]
  | comparison op left right =>
      rw [eval, eval, hs, ht]
      simp only [same 0 left rfl, same 1 right rfl]
  | boolean op operands =>
      rw [eval, eval, hs, ht]
      have hoperands : evalOperands access s scope op false 0 operands =
          evalOperands access t other op false 0 operands :=
        evalOperands_congr false 0 fun i e he => by
          rw [Nat.zero_add]
          exact same i e (by simp [children, he])
      rw [hoperands]
  | negation op operand =>
      rw [eval, eval, hs, ht]
      simp only [same 0 operand rfl]
  | arithmetic op left right type =>
      rw [eval, eval, hs, ht]
      simp only [same 0 left rfl, same 1 right rfl]
  | merge left right type =>
      rw [eval, eval, hs, ht]
      simp only [same 0 left rfl, same 1 right rfl]
  | record fields type =>
      rw [eval, eval, hs, ht]
      have hfields : evalFields access s scope 0 fields = evalFields access t other 0 fields :=
        evalFields_congr 0 fun i field hfield => by
          rw [Nat.zero_add]
          exact same i field.2 (by simp [children, hfield])
      rw [hfields]
  | function f input =>
      rw [eval, eval, hs, ht]
      simp only [same 0 input rfl]
  | filter source predicate =>
      rw [eval, eval, hs, ht]
      simp only [same 0 source rfl, nested predicate (by simp [children])]
  | map source projection type =>
      rw [eval, eval, hs, ht]
      simp only [same 0 source rfl, nested projection (by simp [children])]
  | sort source keys =>
      rw [eval, eval, hs, ht]
      have hkeys (v : Value) :
          evalKeys access (.value v :: scope) keys = evalKeys access (.value v :: other) keys :=
        evalKeys_congr fun key hkey => nested key.1 (by
          simp only [children, List.mem_cons, List.mem_map]
          exact .inr ⟨key, hkey, rfl⟩) v
      simp only [same 0 source rfl, hkeys]
  | groupBy source key total type =>
      rw [eval, eval, hs, ht]
      simp only [same 0 source rfl, nested key (by simp [children]),
        nested total (by simp [children])]
  | aggregate op source projection type =>
      cases projection with
      | none =>
          rw [eval, eval, hs, ht]
          simp only [same 0 source rfl]
      | some projection =>
          rw [eval, eval, hs, ht]
          simp only [same 0 source rfl, nested projection (by simp [children])]
  | distinct source =>
      rw [eval, eval, hs, ht]
      simp only [same 0 source rfl]
  | slice source start stop =>
      rw [eval, eval, hs, ht]
      simp only [same 0 source rfl]
  | one source default type =>
      cases default with
      | none =>
          rw [eval, eval, hs, ht]
          simp only [same 0 source rfl]
      | some default =>
          rw [eval, eval, hs, ht]
          simp only [same 0 source rfl, same 1 default rfl]

end RecordAlgebra.Expr
