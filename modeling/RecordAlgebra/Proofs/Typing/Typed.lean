import RecordAlgebra.Expr.Build
import RecordAlgebra.Proofs.Expr.Parts

/-!
# Typed expressions

The derivation of types is a function. Here it is a relation with one rule for
each kind of node, where all parts are typed under the bindings that they see.
What else is known of the nodes is a parameter of the relation.
-/

namespace RecordAlgebra.Expr

/-- The type of the binding that a part sees, given the type of an element. The
total of a group sees all its members. -/
def boundType : Expr → Nat → DataType → DataType
  | .groupBy .., 2, element => .list element
  | _, _, element => element

theorem derive_literal (trusting : Bool) (view : ItemRef → String) (scopes : List DataType)
    (v : Value) : derive trusting view scopes (.literal v) = .ok v.datatype := by
  rw [derive]

/-- A node occurs in an expression under bindings of these types, innermost first. -/
inductive Occurs (view : ItemRef → String) :
    List DataType → Expr → List DataType → Expr → Prop
  | self (scopes : List DataType) (e : Expr) : Occurs view scopes e scopes e
  | same {scopes s : List DataType} {e part node : Expr} :
      (part, .same) ∈ e.children → Occurs view scopes part s node → Occurs view scopes e s node
  | nested {scopes s : List DataType} {e source part node : Expr} {position : Nat}
      {type element : DataType} :
      e.children[0]? = some (source, .same) → derive false view scopes source = .ok type →
        type.elementType = .ok element → e.children[position]? = some (part, .nested) →
          Occurs view (e.boundType position element :: scopes) part s node →
            Occurs view scopes e s node

section

variable {view : ItemRef → String} {scopes s : List DataType} {e node : Expr}

theorem Occurs.of_same (h : Occurs view scopes e s node)
    (hsame : ∀ child ∈ e.children, child.2 = .same) :
    (s = scopes ∧ node = e) ∨ ∃ child ∈ e.children, Occurs view scopes child.1 s node := by
  cases h with
  | self => exact .inl ⟨rfl, rfl⟩
  | same hpart h => exact .inr ⟨_, hpart, h⟩
  | nested hsource htype helement hpart =>
      exact absurd (hsame _ (List.mem_of_getElem? hpart)) (by simp)

theorem Occurs.of_leaf (h : Occurs view scopes e s node) (hleaf : e.children = []) :
    s = scopes ∧ node = e := by
  rcases h.of_same (by simp [hleaf]) with h | ⟨child, hchild, -⟩
  · exact h
  · simp [hleaf] at hchild

theorem Occurs.of_map {source projection : Expr} {type : DataType}
    (h : Occurs view scopes (.map source projection type) s node) :
    (s = scopes ∧ node = .map source projection type) ∨ Occurs view scopes source s node ∨
      ∃ t element, derive false view scopes source = .ok t ∧ t.elementType = .ok element ∧
        Occurs view (element :: scopes) projection s node := by
  cases h with
  | self => exact .inl ⟨rfl, rfl⟩
  | same hpart h =>
      simp only [children, List.mem_cons, Prod.mk.injEq, reduceCtorEq, and_false, and_true,
        List.not_mem_nil, or_false] at hpart
      subst hpart
      exact .inr (.inl h)
  | @nested _ _ _ _ part _ position t element hsource htype helement hpart h =>
      cases hsource
      rcases position with _ | _ | position <;> cases hpart
      exact .inr (.inr ⟨t, element, htype, helement, h⟩)

end

/-- What is known of types that are derived, of types that the input is declared to
have, of literals and of mappings that are merged. -/
structure Facts where
  type : DataType → Prop
  input : DataType → Prop
  literal : Value → Prop
  merge : RecordType → RecordType → Prop

section

variable (facts : Facts)

/-- The expression has the type under bindings of these types. -/
inductive Typed : List DataType → Expr → DataType → Prop
  | bound {scopes : List DataType} {depth : Nat} {type t : DataType} :
      scopes[depth]? = some t → facts.type t → Typed scopes (.context depth type) t
  | input {scopes : List DataType} {type : DataType} :
      facts.input type → facts.type type → Typed scopes (.context scopes.length type) type
  | unbound {scopes : List DataType} {depth : Nat} :
      scopes.length < depth → facts.type .any → Typed scopes (.context depth .any) .any
  | literal {scopes : List DataType} {v : Value} :
      facts.literal v → facts.type v.datatype → Typed scopes (.literal v) v.datatype
  | field {scopes : List DataType} {base : Expr} {name : String} {type b t : DataType} :
      Typed scopes base b → b.fieldType name = .ok t → facts.type t →
        Typed scopes (.field base name type) t
  | comparison {scopes : List DataType} {op : ComparisonOp} {left right : Expr} {l r : DataType} :
      Typed scopes left l → Typed scopes right r →
        (op.isOrdering = true → l.isComparable r = true) → facts.type .boolean →
          Typed scopes (.comparison op left right) .boolean
  | boolean {scopes : List DataType} {op : BooleanOp} {operands : List Expr}
      (types : Expr → DataType) :
      (∀ e ∈ operands, Typed scopes e (types e)) →
        (∀ e ∈ operands, (types e).isBooleanLike = true) → facts.type .boolean →
          Typed scopes (.boolean op operands) .boolean
  | not {scopes : List DataType} {operand : Expr} {t : DataType} :
      Typed scopes operand t → t.isBooleanLike = true → facts.type .boolean →
        Typed scopes (.negation .not operand) .boolean
  | minus {scopes : List DataType} {operand : Expr} {t : DataType} :
      Typed scopes operand t → t.isNumericLike = true →
        Typed scopes (.negation .minus operand) t
  | arithmetic {scopes : List DataType} {op : ArithmeticOp} {left right : Expr}
      {type l r t : DataType} :
      Typed scopes left l → Typed scopes right r → op.resultType l r = .ok t → facts.type t →
        Typed scopes (.arithmetic op left right type) t
  | merge {scopes : List DataType} {left right : Expr} {type l r : DataType} {a b : RecordType} :
      Typed scopes left l → Typed scopes right r → l.recordType? = some a →
        r.recordType? = some b → facts.merge a b → facts.type (.ofRecordType (a.merge b)) →
          Typed scopes (.merge left right type) (.ofRecordType (a.merge b))
  | record {scopes : List DataType} {fields : List (String × Expr)} {type : DataType}
      (types : Expr → DataType) :
      (fields.map Prod.fst).Nodup → (∀ field ∈ fields, Typed scopes field.2 (types field.2)) →
        facts.type (.record (fields.map fun field => (field.1, types field.2)) false) →
          Typed scopes (.record fields type)
            (.record (fields.map fun field => (field.1, types field.2)) false)
  | function {scopes : List DataType} {f : ScalarFunction} {input : Expr} {t : DataType} :
      Typed scopes input t → f.accepts t = true → facts.type f.returnType →
        Typed scopes (.function f input) f.returnType
  | filter {scopes : List DataType} {source predicate : Expr} {s element t : DataType} :
      Typed scopes source s → s.elementType = .ok element →
        Typed (element :: scopes) predicate t → t.isBooleanLike = true → facts.type (.list element) →
          Typed scopes (.filter source predicate) (.list element)
  | map {scopes : List DataType} {source projection : Expr} {type s element t : DataType} :
      Typed scopes source s → s.elementType = .ok element →
        Typed (element :: scopes) projection t → facts.type (.list t) →
          Typed scopes (.map source projection type) (.list t)
  | sort {scopes : List DataType} {source : Expr} {keys : List (Expr × Direction)}
      {s element : DataType} (types : Expr → DataType) :
      Typed scopes source s → s.elementType = .ok element →
        (∀ key ∈ keys, Typed (element :: scopes) key.1 (types key.1)) →
          (∀ key ∈ keys, (types key.1).isOrderable = true) → facts.type (.list element) →
            Typed scopes (.sort source keys) (.list element)
  | groupBy {scopes : List DataType} {source key total : Expr} {type s element k t : DataType} :
      Typed scopes source s → s.elementType = .ok element → Typed (element :: scopes) key k →
        Typed (.list element :: scopes) total t →
          facts.type (.list (.record [(groupKeyField, k), (groupValueField, t)] false)) →
            Typed scopes (.groupBy source key total type)
              (.list (.record [(groupKeyField, k), (groupValueField, t)] false))
  | aggregate {scopes : List DataType} {op : AggregateOp} {source : Expr}
      {type s element t : DataType} :
      Typed scopes source s → s.elementType = .ok element → op.resultType element = .ok t →
        facts.type t → Typed scopes (.aggregate op source none type) t
  | aggregateOf {scopes : List DataType} {op : AggregateOp} {source projection : Expr}
      {type s element p t : DataType} :
      Typed scopes source s → s.elementType = .ok element →
        Typed (element :: scopes) projection p → op.resultType p = .ok t → facts.type t →
          Typed scopes (.aggregate op source (some projection) type) t
  | distinct {scopes : List DataType} {source : Expr} {s element : DataType} :
      Typed scopes source s → s.elementType = .ok element → facts.type (.list element) →
        Typed scopes (.distinct source) (.list element)
  | slice {scopes : List DataType} {source : Expr} {start : Nat} {stop : Option Nat}
      {s element : DataType} :
      Typed scopes source s → s.elementType = .ok element → facts.type (.list element) →
        Typed scopes (.slice source start stop) (.list element)
  | one {scopes : List DataType} {source : Expr} {type s element : DataType} :
      Typed scopes source s → s.elementType = .ok element → facts.type element →
        Typed scopes (.one source none type) element
  | oneOr {scopes : List DataType} {source default : Expr} {type s element d : DataType} :
      Typed scopes source s → s.elementType = .ok element → Typed scopes default d →
        facts.type (element.unify d) → Typed scopes (.one source (some default) type) (element.unify d)

variable {facts}

theorem Typed.isGood {scopes : List DataType} {e : Expr} {t : DataType}
    (h : Typed facts scopes e t) : facts.type t := by
  induction h with
  | minus _ _ ih => exact ih
  | _ => assumption

end

/-- What builders check of single nodes besides their types: only a context of the
innermost binding declares a type, and records have distinct names. -/
structure Proper (e : Expr) : Prop where
  contexts : ∀ path depth type, e.node? path = some (.context depth type) →
    depth = 0 ∨ type = .any
  records : ∀ path fields type, e.node? path = some (.record fields type) →
    (fields.map Prod.fst).Nodup

theorem Proper.part {e : Expr} (h : e.Proper) {part : Expr × ChildScope}
    (hpart : part ∈ e.children) : part.1.Proper := by
  obtain ⟨position, hposition⟩ := List.getElem?_of_mem hpart
  have hnode (path : Path) : e.node? (position :: path) = part.1.node? path := by
    rw [node?, hposition]
  exact ⟨fun path depth type hpath => h.contexts (position :: path) depth type
      ((hnode path).trans hpath),
    fun path fields type hpath => h.records (position :: path) fields type
      ((hnode path).trans hpath)⟩

/-- What is known of the nodes of an expression under bindings of these types. -/
structure Checks (view : ItemRef → String) (facts : Facts) (scopes : List DataType) (e : Expr) :
    Prop where
  proper : e.Proper
  types : ∀ s node t, Occurs view scopes e s node → derive false view s node = .ok t →
    facts.type t
  contexts : ∀ s type, Occurs view scopes e s (.context s.length type) → facts.input type
  literals : ∀ v, e.HasLiteral v → facts.literal v
  merges : ∀ s left right type l r a b, Occurs view scopes e s (.merge left right type) →
    derive false view s left = .ok l → derive false view s right = .ok r →
      l.recordType? = some a → r.recordType? = some b → facts.merge a b

section

variable {view : ItemRef → String} {facts : Facts}
  {scopes : List DataType} {e part source : Expr} {t type element : DataType}

theorem Checks.same (h : Checks view facts scopes e)
    (hpart : (part, .same) ∈ e.children) : Checks view facts scopes part where
  proper := h.proper.part hpart
  types s node t hnode := h.types s node t (.same hpart hnode)
  contexts s type hnode := h.contexts s type (.same hpart hnode)
  literals v hv := h.literals v (hv.part hpart)
  merges s left right type l r a b hnode := h.merges s left right type l r a b (.same hpart hnode)

theorem Checks.nested (h : Checks view facts scopes e)
    (hsource : e.children[0]? = some (source, .same))
    (htype : derive false view scopes source = .ok type)
    (helement : type.elementType = .ok element) {position : Nat}
    (hpart : e.children[position]? = some (part, .nested)) :
    Checks view facts (e.boundType position element :: scopes) part where
  proper := h.proper.part (List.mem_of_getElem? hpart)
  types s node t hnode := h.types s node t (.nested hsource htype helement hpart hnode)
  contexts s type hnode := h.contexts s type (.nested hsource htype helement hpart hnode)
  literals v hv := h.literals v (hv.part (List.mem_of_getElem? hpart))
  merges s left right type l r a b hnode :=
    h.merges s left right type l r a b (.nested hsource htype helement hpart hnode)

end

end RecordAlgebra.Expr
