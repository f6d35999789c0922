import RecordAlgebra.Proofs.Datum.Elements

/-!
# What expressions mean

The meaning of an expression is a function of the data bound around it. It
says which data and which kinds of errors come out and nothing about when they
are computed, how often the input is read or what else happens meanwhile.
-/

namespace RecordAlgebra

/-- What is bound: a datum, or an input with its data. -/
inductive Meaning where
  | value (d : Datum)
  | input (data : List Datum)

/-- What an expression gives, if it does not fail. -/
inductive Result where
  | sequence (elements : List Datum.Element)
  | value (d : Datum)

namespace Result

open Datum.Elements (collect ofData)

def intoValue : Result → Except ErrorKind Datum
  | .value d => .ok d
  | .sequence elements => (collect elements).map .list

def intoSequence : Result → Except ErrorKind (List Datum.Element)
  | .sequence elements => .ok elements
  | .value (.list data) => .ok (ofData data)
  | .value _ => .error .typeMismatch

end Result

namespace Expr

open Datum (Element)

section

/- The data of literals. -/
variable (lit : Value → Datum)

mutual

def denote (scope : List Meaning) : Expr → Except ErrorKind Result
  | .context depth _ =>
      match scope[depth]? with
      | none => .error .invalidExpression
      | some (.value d) => .ok (.value d)
      | some (.input data) => .ok (.sequence (Datum.Elements.ofData data))
  | .literal v => .ok (.value (lit v))
  | .field base name _ => do
      let d ← (← denote scope base).intoValue
      return .value (← d.field name)
  | .comparison op left right => do
      let a ← (← denote scope left).intoValue
      let b ← (← denote scope right).intoValue
      return .value (← Datum.compare op a b)
  | .boolean op operands => return .value (← denoteOperands scope op false operands)
  | .negation op operand => do
      let d ← (← denote scope operand).intoValue
      return .value (← d.negated op)
  | .arithmetic op left right _ => do
      let a ← (← denote scope left).intoValue
      let b ← (← denote scope right).intoValue
      return .value (← Datum.apply op a b)
  | .merge left right _ => do
      let a ← (← denote scope left).intoValue
      let b ← (← denote scope right).intoValue
      return .value (← Datum.merge a b)
  | .record fields _ => return .value (.record (Fields.ofList (← denoteFields scope fields)))
  | .function f input => do
      let d ← (← denote scope input).intoValue
      return .value (← d.function f)
  | .filter source predicate => do
      let elements ← (← denote scope source).intoSequence
      return .sequence <| Datum.Elements.filter (fun d => do
        let result ← (← denote (.value d :: scope) predicate).intoValue
        result.predicate) elements
  | .map source projection _ => do
      let elements ← (← denote scope source).intoSequence
      return .sequence <| Datum.Elements.map (fun d => do
        (← denote (.value d :: scope) projection).intoValue) elements
  | .sort source keys => do
      let elements ← (← denote scope source).intoSequence
      return .sequence <| Datum.Elements.settle do
        let rows ← Datum.Elements.fold (fun rows d => do
          let found ← denoteKeys (.value d :: scope) keys
          .ok ((found, d) :: rows)) [] elements
        Datum.sort (keys.map Prod.snd) rows.reverse
  | .groupBy source key total _ => do
      let elements ← (← denote scope source).intoSequence
      return .sequence <| Datum.Elements.settle do
        let groups ← Datum.Elements.fold (fun groups d => do
          let found ← (← denote (.value d :: scope) key).intoValue
          .ok (Datum.addToGroups found d groups)) [] elements
        groups.mapM fun (key, members) => do
          let result ← (← denote (.value (.list members.reverse) :: scope) total).intoValue
          .ok (.record [(groupKeyField, key), (groupValueField, result)])
  | .aggregate op source none _ => do
      let elements ← (← denote scope source).intoSequence
      return .value (← Datum.Elements.aggregate op false elements)
  | .aggregate op source (some projection) _ => do
      let elements ← (← denote scope source).intoSequence
      let projected := Datum.Elements.map (fun d => do
        (← denote (.value d :: scope) projection).intoValue) elements
      return .value (← Datum.Elements.aggregate op true projected)
  | .distinct source => do
      let elements ← (← denote scope source).intoSequence
      return .sequence (Datum.Elements.distinct [] elements)
  | .slice source start stop => do
      let elements ← (← denote scope source).intoSequence
      return .sequence (Datum.Elements.window start 0 (stop.map (· - start)) elements)
  | .one source none _ => do
      let elements ← (← denote scope source).intoSequence
      match ← Datum.Elements.only elements with
      | some d => .ok (.value d)
      | none => .error .cardinality
  | .one source (some default) _ => do
      let elements ← (← denote scope source).intoSequence
      match ← Datum.Elements.only elements with
      | some d => .ok (.value d)
      | none => return .value (← (← denote scope default).intoValue)

def denoteOperands (scope : List Meaning) (op : BooleanOp) (sawNull : Bool) :
    List Expr → Except ErrorKind Datum
  | [] => .ok (if sawNull then .null else .bool (!op.decisive))
  | e :: rest => do
      match ← (← denote scope e).intoValue with
      | .bool b => if b == op.decisive then .ok (.bool b) else denoteOperands scope op sawNull rest
      | .null => denoteOperands scope op true rest
      | _ => .error .typeMismatch

def denoteFields (scope : List Meaning) :
    List (String × Expr) → Except ErrorKind (List (String × Datum))
  | [] => .ok []
  | (name, e) :: rest => do
      let d ← (← denote scope e).intoValue
      return (name, d) :: (← denoteFields scope rest)

def denoteKeys (scope : List Meaning) : List (Expr × Direction) → Except ErrorKind (List Datum)
  | [] => .ok []
  | (e, _) :: rest => do
      let d ← (← denote scope e).intoValue
      return d :: (← denoteKeys scope rest)

end

theorem denote_literal (scope : List Meaning) (v : Value) :
    denote lit scope (.literal v) = .ok (.value (lit v)) := by
  rw [denote]

end

end Expr

end RecordAlgebra
