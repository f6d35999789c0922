import RecordAlgebra.Plan.Shape
import RecordAlgebra.Proofs.Datum.Shown
import RecordAlgebra.Proofs.Expr.Denotation
import RecordAlgebra.Proofs.Expr.Parts

/-!
# Expressions over an element

Predicates and projections are about one element, which is bound innermost. They read its
fields and compare and combine these with literals.
-/

namespace RecordAlgebra

/-- The outcome of a predicate that selects or does not. -/
inductive Datum.Decides : Datum → Bool → Prop
  | bool (b : Bool) : Decides (.bool b) b
  | null : Decides .null false

theorem Datum.Decides.predicate {d : Datum} {b : Bool} (h : d.Decides b) :
    d.predicate = .ok b := by
  cases h <;> rfl

namespace Expr

variable {lit : Value → Datum} {scope : List Meaning} {d : Datum} {e : Expr}

/-- Single values among the literals stand for themselves. -/
def Knows (lit : Value → Datum) (e : Expr) : Prop :=
  ∀ v, e.HasLiteral v → v.isSingle = true → lit v = .ofValue v

theorem Knows.part (h : e.Knows lit) {part : Expr × ChildScope} (hpart : part ∈ e.children) :
    part.1.Knows lit := fun v hv => h v (hv.part hpart)

theorem knows_of_shows {w : World} (h : ∀ v, e.HasLiteral v → w.Shows v (lit v)) :
    e.Knows lit := by
  intro v hv hsingle
  exact (h v hv).unique (w.shows_ofValue hsingle)

theorem denote_elementField {name : String} (h : e.elementField? = some name) :
    denote lit (.value d :: scope) e = (d.field name).map .value := by
  cases e with
  | field base other type =>
      rw [elementField?, Option.ite_none_right_eq_some] at h
      obtain ⟨hbase, hname⟩ := h
      cases hname
      cases base with
      | context depth baseType =>
          cases depth with
          | zero =>
              simp only [denote, List.getElem?_cons_zero]
              rfl
          | succ depth => cases hbase
      | _ => cases hbase
  | _ => cases h

section Connectives

variable {connective : BooleanOp} {sawNull : Bool} {rest : List Expr}

theorem denoteOperands_bool {b : Bool} (h : e.denote lit scope = .ok (.value (.bool b))) :
    denoteOperands lit scope connective sawNull (e :: rest) =
      if b == connective.decisive then .ok (.bool b)
      else denoteOperands lit scope connective sawNull rest := by
  rw [denoteOperands, h]
  rfl

theorem denoteOperands_null (h : e.denote lit scope = .ok (.value .null)) :
    denoteOperands lit scope connective sawNull (e :: rest) =
      denoteOperands lit scope connective true rest := by
  rw [denoteOperands, h]
  rfl

end Connectives

section Truth

/- The data of literals, and what is bound. -/
variable (lit : Value → Datum) (scope : List Meaning)

/-- Whether the expression is true. -/
def isTrue (e : Expr) : Bool :=
  match e.denote lit scope with
  | .ok (.value (.bool b)) => b
  | _ => false

/-- The expression is true, false or null. -/
def Decided (e : Expr) : Prop :=
  ∃ r, e.denote lit scope = .ok (.value r) ∧ r.Decides (e.isTrue lit scope)

variable {lit scope} {e : Expr} {r : Datum} {b : Bool} {operands : List Expr}

theorem isTrue_eq (h : e.denote lit scope = .ok (.value r)) (hr : r.Decides b) :
    e.isTrue lit scope = b := by
  rw [isTrue, h]
  cases hr <;> rfl

theorem decided_of_decides (h : e.denote lit scope = .ok (.value r)) (hr : r.Decides b) :
    e.Decided lit scope :=
  ⟨r, h, by rwa [isTrue_eq h hr]⟩

theorem denoteOperands_congr {op : BooleanOp} {scope scope' : List Meaning}
    (h : ∀ e ∈ operands, e.denote lit scope = e.denote lit scope') {sawNull : Bool} :
    denoteOperands lit scope op sawNull operands =
      denoteOperands lit scope' op sawNull operands := by
  induction operands generalizing sawNull with
  | nil => rfl
  | cons e rest ih =>
      obtain ⟨he, hrest⟩ := List.forall_mem_cons.1 h
      simp only [denoteOperands, he, ih hrest]

/-- A conjunction of decided operands is true if all of them are, whichever comes first. -/
theorem denoteOperands_and (h : ∀ e ∈ operands, e.Decided lit scope) (sawNull : Bool) :
    ∃ r, denoteOperands lit scope .and sawNull operands = .ok r ∧
      r.Decides (operands.all (isTrue lit scope) && !sawNull) := by
  induction operands generalizing sawNull with
  | nil =>
      cases sawNull
      · exact ⟨.bool true, rfl, .bool true⟩
      · exact ⟨.null, rfl, .null⟩
  | cons e rest ih =>
      obtain ⟨⟨r, hr, hdecides⟩, hrest⟩ := List.forall_mem_cons.1 h
      rw [List.all_cons]
      generalize e.isTrue lit scope = b at hdecides
      cases hdecides with
      | bool =>
          rw [denoteOperands_bool hr]
          cases b with
          | false => exact ⟨.bool false, rfl, .bool false⟩
          | true => exact ih hrest sawNull
      | null =>
          obtain ⟨r', hr', hdecides'⟩ := ih hrest true
          rw [denoteOperands_null hr]
          rw [Bool.not_true, Bool.and_false] at hdecides'
          exact ⟨r', hr', hdecides'⟩

/-- A disjunction of decided operands is true if one of them is. -/
theorem denoteOperands_or (h : ∀ e ∈ operands, e.Decided lit scope) (sawNull : Bool) :
    ∃ r, denoteOperands lit scope .or sawNull operands = .ok r ∧
      r.Decides (operands.any (isTrue lit scope)) := by
  induction operands generalizing sawNull with
  | nil =>
      cases sawNull
      · exact ⟨.bool false, rfl, .bool false⟩
      · exact ⟨.null, rfl, .null⟩
  | cons e rest ih =>
      obtain ⟨⟨r, hr, hdecides⟩, hrest⟩ := List.forall_mem_cons.1 h
      rw [List.any_cons]
      generalize e.isTrue lit scope = b at hdecides
      cases hdecides with
      | bool =>
          rw [denoteOperands_bool hr]
          cases b with
          | false => exact ih hrest sawNull
          | true => exact ⟨.bool true, rfl, .bool true⟩
      | null =>
          rw [denoteOperands_null hr]
          exact ih hrest true

/-- The truth of a connection of decided operands. -/
theorem denote_boolean (op : BooleanOp) (h : ∀ e ∈ operands, e.Decided lit scope) :
    ∃ r, (boolean op operands).denote lit scope = .ok (.value r) ∧
      r.Decides (match op with
        | .and => operands.all (isTrue lit scope)
        | .or => operands.any (isTrue lit scope)) := by
  cases op with
  | and =>
      obtain ⟨r, hr, hdecides⟩ := denoteOperands_and h false
      refine ⟨r, ?_, by simpa using hdecides⟩
      rw [denote, hr]
      rfl
  | or =>
      obtain ⟨r, hr, hdecides⟩ := denoteOperands_or h false
      refine ⟨r, ?_, hdecides⟩
      rw [denote, hr]
      rfl

end Truth

theorem hasLiteral_literal {u v : Value} : (literal u).HasLiteral v ↔ u = v := by
  refine ⟨fun h => ?_, fun h => h ▸ hasLiteral_self u⟩
  rcases h.part_or_self with h | ⟨part, hpart, -⟩
  · cases h
    rfl
  · cases hpart

/-- Only literals are literals themselves. -/
theorem hasLiteral_iff {v : Value} (he : e.literal? = none) :
    e.HasLiteral v ↔ ∃ part ∈ e.children, part.1.HasLiteral v := by
  refine ⟨fun h => h.part_or_self.resolve_left ?_, fun ⟨part, hpart, h⟩ => h.part hpart⟩
  rintro rfl
  cases he

theorem hasLiteral_comparison {op : ComparisonOp} {left right : Expr} {v : Value} :
    (comparison op left right).HasLiteral v ↔ left.HasLiteral v ∨ right.HasLiteral v := by
  rw [hasLiteral_iff rfl]
  simp [children]

theorem not_hasLiteral_of_elementField {name : String} {v : Value}
    (h : e.elementField? = some name) : ¬e.HasLiteral v := by
  cases e with
  | field base other type =>
      rw [elementField?, Option.ite_none_right_eq_some] at h
      cases base with
      | context depth baseType =>
          rw [hasLiteral_iff rfl]
          rintro ⟨part, hpart, hv⟩
          obtain rfl := List.mem_singleton.1 hpart
          obtain ⟨part, hpart, -⟩ := (hasLiteral_iff rfl).1 hv
          cases hpart
      | _ => cases h.1
  | _ => cases h

theorem literal?_eq_some {v : Value} (h : e.literal? = some v) : e = .literal v := by
  cases e <;> cases h
  rfl

section Values

/- The data of literals, and what is bound. -/
variable (lit : Value → Datum) (scope : List Meaning)

/-- The datum that an expression means. -/
def denoteValue (e : Expr) : Except ErrorKind Datum := do (← e.denote lit scope).intoValue

variable {lit scope}

theorem denoteValue_value {d : Datum} (h : e.denote lit scope = .ok (.value d)) :
    e.denoteValue lit scope = .ok d := by
  rw [denoteValue, h]
  rfl

/-- The datum that is computed from the data of two parts. -/
theorem intoValue_binary (x y : Except ErrorKind Result)
    (f : Datum → Datum → Except ErrorKind Datum) :
    (do
      let r ← (do
        let a ← (← x).intoValue
        let b ← (← y).intoValue
        return Result.value (← f a b))
      r.intoValue) = (do
    let a ← (do (← x).intoValue)
    let b ← (do (← y).intoValue)
    f a b) := by
  simp only [bind_assoc, pure_bind]
  refine congrArg _ (funext fun r => congrArg _ (funext fun a => congrArg _ (funext fun r' =>
    congrArg _ (funext fun b => ?_))))
  cases f a b <;> rfl

theorem denoteValue_arithmetic {op : ArithmeticOp} {left right : Expr} {type : DataType} :
    (arithmetic op left right type).denoteValue lit scope = (do
      let a ← left.denoteValue lit scope
      let b ← right.denoteValue lit scope
      Datum.apply op a b) := by
  rw [denoteValue, denote]
  exact intoValue_binary _ _ _

theorem denoteValue_merge {left right : Expr} {type : DataType} :
    (merge left right type).denoteValue lit scope = (do
      let a ← left.denoteValue lit scope
      let b ← right.denoteValue lit scope
      Datum.merge a b) := by
  rw [denoteValue, denote]
  exact intoValue_binary _ _ _

theorem denoteValue_function {f : ScalarFunction} {input : Expr} :
    (function f input).denoteValue lit scope =
      (do (← input.denoteValue lit scope).function f) := by
  simp only [denoteValue, denote, bind_assoc, pure_bind]
  refine congrArg _ (funext fun r => congrArg _ (funext fun d => ?_))
  cases d.function f <;> rfl

theorem denoteValue_record {fields : List (String × Expr)} {type : DataType} :
    (record fields type).denoteValue lit scope =
      (denoteFields lit scope fields).map fun ds => .record (Fields.ofList ds) := by
  rw [denoteValue, denote]
  cases denoteFields lit scope fields <;> rfl

theorem denoteFields_cons {name : String} {e : Expr} {rest : List (String × Expr)} :
    denoteFields lit scope ((name, e) :: rest) = (do
      let d ← e.denoteValue lit scope
      return (name, d) :: (← denoteFields lit scope rest)) := by
  rw [denoteFields, denoteValue, bind_assoc]

end Values

end Expr

end RecordAlgebra
