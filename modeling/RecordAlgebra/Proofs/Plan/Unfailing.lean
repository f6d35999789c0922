import RecordAlgebra.Proofs.Document.Converting
import RecordAlgebra.Proofs.Eval.Connectives
import RecordAlgebra.Proofs.Plan.Infallible
import RecordAlgebra.Proofs.Typing.FittingOperations

/-!
# Evaluating expressions that cannot fail

An expression whose type is known to be infallible has a value for every element that conforms
to the shape. Fields of the element are read and items are compared on the way, which may change
the state, so conforming is said for a family of states. Comparing items is no source of
failures: where a field of an item cannot be loaded, the items are just not equal.
-/

namespace RecordAlgebra

/-- The action raises no error. It may not end. -/
def EvalM.Unfailing {α : Type} (m : EvalM α) : Prop :=
  ∀ w e, (m.run w).1 ≠ .error (.raised e)

/-- From every state of the family the action ends, and it leaves a state of the family. -/
def EvalM.EndsIn {α : Type} (I : World → Prop) (m : EvalM α) : Prop :=
  ∀ w, I w → (m.run w).1 ≠ .error .diverged ∧ I (m.run w).2

namespace EvalM

variable {α β : Type} {m : EvalM α}

theorem Unfailing.pure (a : α) : (Pure.pure a : EvalM α).Unfailing :=
  fun _ _ h => by cases h

theorem Unfailing.diverge : (EvalM.diverge : EvalM α).Unfailing :=
  fun _ _ h => by cases h

theorem Unfailing.bind {f : α → EvalM β} (h : m.Unfailing) (step : ∀ a, (f a).Unfailing) :
    (m >>= f).Unfailing := by
  intro w e
  rw [run_bind]
  rcases hrun : m.run w with ⟨stop | a, w'⟩
  · have hm := h w e
    rw [hrun] at hm
    exact fun hstop => hm (congrArg Except.error (Except.error.inj hstop))
  · exact step a w' e

theorem unfailing_get : (MonadState.get : EvalM World).Unfailing :=
  fun _ _ h => by cases h

/-- Errors that are results are not raised. -/
theorem unfailing_attempt (m : EvalM α) : m.attempt.Unfailing := by
  intro w e h
  rw [run_attempt] at h
  rcases hrun : m.run w with ⟨(_ | _) | _, _⟩ <;> rw [hrun] at h <;> cases h

theorem Unfailing.finds {I : World → Prop} (h : m.Unfailing) (hends : m.EndsIn I) :
    Finds I (fun _ => True) m := by
  intro w hw
  have hfails := h w
  obtain ⟨hend, hafter⟩ := hends w hw
  rcases hrun : m.run w with ⟨(e | _) | a, w'⟩ <;> rw [hrun] at hfails hend hafter
  · exact absurd rfl (hfails e)
  · exact absurd rfl hend
  · exact ⟨a, w', rfl, hafter, trivial⟩

end EvalM

section Equality

/-- What holds of actions that have a result right away, and of an action after an action. -/
structure Composes (T : EvalM Bool → Prop) : Prop where
  pure : ∀ b, T (pure b)
  bind : ∀ {m f}, T m → (∀ b, T (f b)) → T (m >>= f)

theorem composes_unfailing : Composes EvalM.Unfailing := ⟨.pure, .bind⟩

theorem composes_finds (I : World → Prop) : Composes (Finds I fun _ => True) :=
  ⟨fun _ => .pure trivial, fun h step => h.bind fun b _ => step b⟩

namespace Composes

variable {T : EvalM Bool → Prop} {items : ItemRef → ItemRef → EvalM Bool} (composes : Composes T)

include composes

theorem andThen {m m' : EvalM Bool} (h : T m) (h' : T m') :
    T (do if ← m then m' else Pure.pure false) :=
  composes.bind h fun b => by
    cases b
    · exact composes.pure false
    · exact h'

theorem equalElements {vs us : List Value} (h : ∀ v ∈ vs, ∀ u ∈ us, T (v.equal items u)) :
    T (Value.equalElements items vs us) := by
  induction vs generalizing us with
  | nil => cases us <;> exact composes.pure _
  | cons v vs ih =>
      cases us with
      | nil => exact composes.pure _
      | cons u us =>
          exact composes.andThen (h v (by simp) u (by simp))
            (ih fun v hv u hu => h v (by simp [hv]) u (by simp [hu]))

theorem equalFields {vs us : Fields Value}
    (h : ∀ field ∈ vs, ∀ other ∈ us, T (field.2.equal items other.2)) :
    T (Value.equalFields items vs us) := by
  induction vs with
  | nil => exact composes.pure _
  | cons field vs ih =>
      obtain ⟨name, v⟩ := field
      rw [Value.equalFields]
      split
      · exact composes.pure _
      · next u hu =>
          exact composes.andThen (h (name, v) (by simp) _ (Fields.mem_of_get? hu))
            (ih fun field hfield => h field (by simp [hfield]))

theorem equalEntries {vs us : Fields Value}
    (h : ∀ field ∈ vs, ∀ other ∈ us, T (field.2.equal items other.2)) :
    T (Value.equalEntries items vs us) := by
  induction vs generalizing us with
  | nil => cases us <;> exact composes.pure _
  | cons field vs ih =>
      cases us with
      | nil => exact composes.pure _
      | cons other us =>
          rw [Value.equalEntries]
          split
          · exact composes.andThen (h field (by simp) other (by simp))
              (ih fun field hfield other hother =>
                h field (by simp [hfield]) other (by simp [hother]))
          · exact composes.pure _

/-- Comparing values is made of comparing the items that occur in them. -/
theorem equal {v u : Value} (h : ∀ a b, Value.Within (.item a) v → Value.Within (.item b) u →
    T (items a b)) : T (v.equal items u) := by
  induction v using Value.partInduction generalizing u with
  | step v ih =>
      have parts (part : Value) (hpart : part ∈ v.parts) (other : Value)
          (hother : other ∈ u.parts) :
          T (part.equal items other) :=
        ih part hpart fun a b ha hb => h a b (.part hpart ha) (.part hother hb)
      cases v with
      | list vs =>
          cases u with
          | list us =>
              rw [Value.equal]
              split
              · exact composes.equalElements parts
              · exact composes.pure _
          | _ => exact composes.pure _
      | record fields =>
          cases u with
          | record others =>
              rw [Value.equal]
              split
              · exact composes.equalFields fun field hfield other hother =>
                  parts _ (List.mem_map_of_mem hfield) _ (List.mem_map_of_mem hother)
              · exact composes.pure _
          | _ => exact composes.pure _
      | item a =>
          cases u with
          | item b => exact h a b .self .self
          | _ => exact composes.pure _
      | _ => cases u <;> exact composes.pure _

end Composes

namespace Item

variable {reader : ItemRef → String → EvalM Value} {equalValues : ItemRef → ItemRef → EvalM Bool}

/-- Items are compared without failing if the items inside of them are. -/
theorem equal_unfailing (h : ∀ a b, (equalValues a b).Unfailing) (a b : ItemRef) :
    (Item.equal reader equalValues a b).Unfailing := by
  have hentries (vs us : Fields Value) : (Value.equalEntries equalValues vs us).Unfailing :=
    composes_unfailing.equalEntries fun _ _ _ _ => composes_unfailing.equal fun a b _ _ => h a b
  have compared {loads loads' : EvalM (Fields Value)}
      {f : Except Error (Fields Value) → Except Error (Fields Value) → EvalM Bool}
      (hf : ∀ left right, (f left right).Unfailing) :
      (do f (← EvalM.attempt loads) (← EvalM.attempt loads')).Unfailing :=
    (EvalM.unfailing_attempt _).bind fun left =>
      (EvalM.unfailing_attempt _).bind fun right => hf left right
  rw [Item.equal]
  split
  · exact .pure _
  · split
    · refine compared fun left right => ?_
      split
      · split
        · exact hentries _ _
        · refine compared fun left right => ?_
          split
          · exact hentries _ _
          · exact .pure _
      · exact .pure _
    · refine compared fun left right => ?_
      split
      · exact hentries _ _
      · exact .pure _

end Item

namespace ItemAccess

theorem atLevel_equal_unfailing (level : Nat) (a b : ItemRef) :
    ((atLevel level).equal a b).Unfailing := by
  induction level generalizing a b with
  | zero => exact .diverge
  | succ level ih => exact Item.equal_unfailing ih a b

/-- No two items make their comparison fail. -/
theorem live_equal_unfailing (a b : ItemRef) : (live.equal a b).Unfailing :=
  EvalM.unfailing_get.bind fun w => atLevel_equal_unfailing (levelFor w) a b

end ItemAccess

end Equality

namespace Value

variable {known : ItemRef → Prop} {v u : Value} {l r t : DataType}

theorem Known.within {a : ItemRef} (h : v.Known known) (ha : Value.Within (.item a) v) :
    known a := by
  generalize hitem : Value.item a = item at ha
  induction ha with
  | self =>
      subst hitem
      exact h.ref
  | @part v part hpart _ ih =>
      refine ih ?_
      cases v with
      | list vs => exact h.elements _ hpart
      | record fields =>
          obtain ⟨field, hfield, rfl⟩ := List.mem_map.1 hpart
          exact h.fields.2 field hfield
      | _ => cases hpart

theorem fits_boolean (h : v.Fits known .boolean) : v = .null ∨ ∃ b, v = .bool b := by
  have hadmits := (single_of_fits FieldType.noConfusion h).2
  cases v <;> first | exact .inl rfl | exact .inr ⟨_, rfl⟩ | cases hadmits

theorem fits_truth (h : v.Fits known t) (ht : Shape.isTruthType t = true) :
    v = .null ∨ ∃ b, v = .bool b := by
  unfold Shape.isTruthType at ht
  split at ht
  · exact fits_boolean h
  · exact .inl (fits_null h)
  · cases ht

theorem fits_text (h : v.Fits known t) (ht : t = .text ∨ t = .null) :
    v = .null ∨ ∃ s, v = .text s := by
  rcases ht with rfl | rfl
  · have hadmits := (single_of_fits FieldType.noConfusion h).2
    cases v <;> first | exact .inl rfl | exact .inr ⟨_, rfl⟩ | cases hadmits
  · exact .inl (fits_null h)

/-- Values of types that are safely ordered have an order, unless one of them is null. -/
theorem exists_order_of_isSafelyOrdered (h : Shape.isSafelyOrdered l r = true)
    (hv : v.Fits known l) (hu : u.Fits known r) (hnull : (v.isNull || u.isNull) = false) :
    ∃ o, v.order u = .ok o := by
  simp only [Shape.isSafelyOrdered, Bool.and_eq_true, Bool.or_eq_true] at h
  obtain ⟨⟨hl, hr⟩, hcomparable⟩ := h
  obtain ⟨hvnull, hunull⟩ := Bool.or_eq_false_iff.1 hnull
  have plain {w : Value} {t : DataType} (hw : w.Fits known t) (hnull : w.isNull = false)
      (ht : t.isPlain = true ∨ t.isNull = true) :
      ∃ s, t = .scalar s ∧ t.isSettled = true ∧ s.admits w = true := by
    rcases ht with ht | ht
    · cases t with
      | scalar s =>
          have hs : s ≠ .any := by rintro rfl; cases ht
          exact ⟨s, rfl, Shape.isSettled_of_isPlain ht, (single_of_fits hs hw).2⟩
      | _ => cases ht
    · unfold DataType.isNull at ht
      split at ht
      · rw [fits_null hw] at hnull
        cases hnull
      · cases ht
  obtain ⟨s, rfl, hs, hadmits⟩ := plain hv hvnull hl
  obtain ⟨s', rfl, hs', hadmits'⟩ := plain hu hunull hr
  exact Datum.order_ok_scalar hs hs' hcomparable hadmits hadmits'

end Value

section Finding

variable {known : ItemRef → Prop} {I : World → Prop} {scope : Scope} {v u : Value}
  {l r t : DataType} {e : Expr} {shape : Shape} {name : String}

/-- Values whose items can be compared are compared without failing, if they are safely ordered
where the operator asks for an order. -/
theorem Value.compare_finds {op : ComparisonOp}
    (items : ∀ a b, known a → known b → (ItemAccess.live.equal a b).EndsIn I)
    (hv : v.Fits known l) (hu : u.Fits known r)
    (h : op.isOrdering = true → Shape.isSafelyOrdered l r = true) :
    Finds I (fun v => v.Fits known .boolean) (v.compare ItemAccess.live op u) := by
  have hequal : Finds I (fun _ => True) (v.equal ItemAccess.live.equal u) :=
    (composes_finds I).equal fun a b ha hb => (ItemAccess.live_equal_unfailing a b).finds
      (items a b (hv.isKnown.within ha) (hu.isKnown.within hb))
  cases op with
  | equal => exact hequal.bind fun _ _ => .pure (Value.fits_bool _)
  | notEqual => exact hequal.bind fun _ _ => .pure (Value.fits_bool _)
  | less | lessOrEqual | greater | greaterOrEqual =>
      cases hnull : v.isNull || u.isNull with
      | true =>
          simp only [Value.compare, hnull, if_true]
          exact .pure (.null _)
      | false =>
          obtain ⟨o, ho⟩ := exists_order_of_isSafelyOrdered (h rfl) hv hu hnull
          simp only [Value.compare, hnull, ho]
          exact .pure (Value.fits_bool _)

theorem Expr.negated_finds (h : v = .null ∨ ∃ b, v = .bool b) :
    Finds I (fun v => v.Fits known .boolean) (negated .not v) := by
  obtain rfl | ⟨b, rfl⟩ := h
  · exact .pure (.null _)
  · exact .pure (a := Value.bool (!b)) (Value.fits_bool _)

theorem ScalarFunction.apply_finds (f : ScalarFunction) (h : v = .null ∨ ∃ s, v = .text s) :
    Finds I (fun v => v.Fits known f.returnType) (EvalM.lift (f.apply v)) := by
  obtain rfl | ⟨s, rfl⟩ := h
  · rw [f.apply_null]
    exact .pure (.null _)
  · cases f <;> exact .pure (.scalar rfl rfl)

theorem Expr.connect_finds_truth {op : BooleanOp} {es : List Expr}
    (h : ∀ e ∈ es, Finds I (fun v => v = .null ∨ ∃ b, v = .bool b) (evalOperand .live scope e))
    (sawNull : Bool) :
    Finds I (fun v => v.Fits known .boolean) (connect .live scope op es sawNull) := by
  induction es generalizing sawNull with
  | nil =>
      rw [connect_nil]
      cases sawNull
      · exact .pure (Value.fits_bool _)
      · exact .pure (.null _)
  | cons e es ih =>
      rw [List.forall_mem_cons] at h
      rw [connect_cons]
      refine h.1.bind fun v hv => ?_
      obtain rfl | ⟨b, rfl⟩ := hv
      · exact ih h.2 true
      · rw [afterOperand]
        split
        · exact .pure (Value.fits_bool b)
        · exact ih h.2 sawNull

/-- From every state of the family the expression has a value of the type. -/
def Expr.FindsValue (known : ItemRef → Prop) (I : World → Prop) (scope : Scope) (e : Expr)
    (t : DataType) : Prop :=
  Finds I (fun output => ∃ v, output = .value v ∧ v.Fits known t) (eval .live .empty scope e)

theorem Expr.FindsValue.operand (h : e.FindsValue known I scope t) :
    Finds I (fun v => v.Fits known t) (evalOperand .live scope e) :=
  h.bind fun output houtput => by
    obtain ⟨v, rfl, hv⟩ := houtput
    exact .pure hv

theorem Expr.FindsValue.of_eval {m : EvalM Value}
    (heval : eval .live .empty scope e = do return .value (← m))
    (h : Finds I (fun v => v.Fits known t) m) : e.FindsValue known I scope t := by
  rw [FindsValue, heval]
  exact h.bind fun v hv => .pure ⟨v, rfl, hv⟩

theorem Expr.exists_context_of_elementField? {base : Expr} {found : String}
    (h : (Expr.field base name t).elementField? = some found) :
    ∃ bound, base = .context 0 bound ∧ found = name := by
  rw [elementField?, Option.ite_none_right_eq_some] at h
  obtain ⟨hbase, h⟩ := h
  cases h
  unfold isElement at hbase
  split at hbase
  · exact ⟨_, rfl, rfl⟩
  · cases hbase

theorem Expr.evalOperand_element {access : ItemAccess EvalM} :
    evalOperand access (.value v :: scope) (.context 0 t) = pure v := by
  rw [evalOperand, eval]
  rfl

/-- The element is an item whose fields are found with the types that the shape gives them, a
record of the type, or a single value of it. -/
def Shape.Conforms (known : ItemRef → Prop) (I : World → Prop) : Shape → Value → Prop
  | .stored type, v => ∃ ref, v = .item ref ∧ ∀ name t, type.fields.get? name = some t →
      Finds I (fun v => v.Fits known t) (ItemAccess.live.field ref name)
  | .object type, v => (∃ fields, v = .record fields) ∧ v.Fits known (.ofRecordType type)
  | .scalar type, v => v.Fits known type

theorem Shape.Conforms.field (h : shape.Conforms known I v) (ht : shape.fieldType? name = some t) :
    Finds I (fun v => v.Fits known t) (v.field ItemAccess.live name) := by
  cases shape with
  | stored type =>
      obtain ⟨ref, rfl, hfields⟩ := h
      exact hfields name t ht
  | object type =>
      obtain ⟨⟨fields, rfl⟩, hfits⟩ := h
      cases hfits with
      | record _ _ present fits =>
          obtain ⟨v, hv⟩ := present name t ht
          rw [Value.field, hv]
          exact .pure (fits name t v ht hv)
  | scalar type => cases ht

/-- An item whose fields are loaded and fit its schema. -/
theorem Shape.conforms_of_resolved {w : World} {ref : ItemRef} {cell : Cell}
    (hcell : w.cell? ref = some cell)
    (hslots : ∀ p ∈ ref.schema.properties, ∃ v : Value,
      cell.slots.get? p.name = some (.resolved v) ∧ v.Fits known (.scalar p.type)) :
    (Shape.ofSchema ref.schema).Conforms known (fun w' => w'.cells = w.cells) (.item ref) := by
  refine ⟨ref, rfl, fun name t ht w' hw' => ?_⟩
  obtain ⟨p, hp, rfl, rfl⟩ := DataType.get?_properties ht
  obtain ⟨v, hv, hfits⟩ := hslots p hp
  refine ⟨v, w', ?_, hw', hfits⟩
  have hslot : w'.slot? ref p.name = some (.resolved v) := by
    rw [World.slot?, World.cell?, hw', ← World.cell?, hcell]
    exact hv
  rw [ItemAccess.live, EvalM.run_bind_ok (EvalM.run_get w')]
  change (Item.read _ ref p.name).run w' = (.ok v, w')
  rw [Item.read, EvalM.run_bind_ok (EvalM.run_get w'), hslot]
  rfl

/-- What is found to be infallible has a value of its type for every element that conforms to
the shape. Items may be compared if that ends. -/
theorem Shape.Conforms.findsValue (h : shape.Conforms known I v)
    (items : ∀ a b, known a → known b → (ItemAccess.live.equal a b).EndsIn I)
    (hliterals : ∀ v, e.HasLiteral v → v.Known known) (ht : shape.infallibleType? e = some t) :
    e.FindsValue known I (.value v :: scope) t := by
  induction e using Expr.childInduction generalizing t with
  | step e ih =>
      -- No part is bound to anything else than the element.
      have part {part : Expr} {t : DataType} (hpart : (part, ChildScope.same) ∈ e.children)
          (ht : shape.infallibleType? part = some t) :
          Finds I (fun v => v.Fits known t) (Expr.evalOperand .live (.value v :: scope) part) :=
        (ih _ hpart (fun v hv => hliterals v (hv.part hpart)) ht).operand
      cases e with
      | literal u =>
          cases ht
          rw [Expr.FindsValue, Expr.eval_literal _ rfl]
          exact .pure ⟨u, rfl, (hliterals u (Expr.hasLiteral_self u)).fits_datatype⟩
      | field base name type =>
          obtain ⟨found, hfound, ht⟩ := Option.bind_eq_some_iff.1 ht
          obtain ⟨bound, rfl, rfl⟩ := Expr.exists_context_of_elementField? hfound
          refine .of_eval Expr.eval_field ?_
          rw [Expr.evalOperand_element, pure_bind]
          exact h.field ht
      | comparison op left right =>
          obtain ⟨l, hl, ht⟩ := Option.bind_eq_some_iff.1 ht
          obtain ⟨r, hr, ht⟩ := Option.bind_eq_some_iff.1 ht
          rw [Option.ite_none_left_eq_some] at ht
          obtain ⟨hsafe, ht⟩ := ht
          cases ht
          refine .of_eval Expr.eval_comparison ?_
          refine (part (by simp [Expr.children]) hl).bind fun a ha => ?_
          refine (part (by simp [Expr.children]) hr).bind fun b hb => ?_
          refine Value.compare_finds items ha hb fun hop => ?_
          rw [hop] at hsafe
          simpa using hsafe
      | boolean op operands =>
          rw [infallibleType?, Option.ite_none_right_eq_some] at ht
          obtain ⟨hoperands, ht⟩ := ht
          cases ht
          refine .of_eval Expr.eval_boolean (Expr.connect_finds_truth (fun e he => ?_) false)
          obtain ⟨u, hu, htruth⟩ := exists_truthType_of_mem hoperands he
          exact (part (by simpa [Expr.children] using he) hu).mono fun v hv =>
            Value.fits_truth hv htruth
      | negation op operand =>
          cases op with
          | minus => cases ht
          | not =>
              obtain ⟨u, hu, ht⟩ := Option.bind_eq_some_iff.1 ht
              rw [Option.ite_none_right_eq_some] at ht
              obtain ⟨htruth, ht⟩ := ht
              cases ht
              refine .of_eval Expr.eval_not ?_
              exact (part (by simp [Expr.children]) hu).bind fun v hv =>
                Expr.negated_finds (Value.fits_truth hv htruth)
      | function f input =>
          obtain ⟨u, hu, ht⟩ := Option.bind_eq_some_iff.1 ht
          obtain ⟨htext, ht⟩ : (u = .text ∨ u = .null) ∧ some f.returnType = some t := by
            split at ht
            · exact ⟨.inl rfl, ht⟩
            · exact ⟨.inr rfl, ht⟩
            · cases ht
          cases ht
          refine .of_eval Expr.eval_function ?_
          exact (part (by simp [Expr.children]) hu).bind fun v hv =>
            f.apply_finds (Value.fits_text hv htext)
      | _ => cases ht

/-- A condition on a person, and one on two persons of whom one has a name that fails to load. -/
theorem Shape.findsValue_failing :
    let schema : Schema :=
      { name := "people", properties := [⟨"age", .int, false⟩, ⟨"name", .text, false⟩],
        distinct := by decide }
    let source : SourceRef := { id := 0, name := "people", schema }
    let a : ItemRef := { cell := 0, source }
    let b : ItemRef := { cell := 1, source }
    let failing : Loader := { id := 0, assign := [], body := .field (.literal .null) "x" .any }
    let cells : Array Cell := #[
      { source, slots := [("age", .resolved (.int 30)), ("name", .resolved (.text "x"))] },
      { source, slots := [("age", .resolved (.int 30)), ("name", .deferred failing)] }]
    let e : Expr := .boolean .and [
      .comparison .less (.field (.context 0 (.item schema)) "age" .int) (.literal (.int 40)),
      .comparison .notEqual (.literal (.item a)) (.literal (.item b))]
    e.FindsValue (fun ref => ref = a ∨ ref = b) (fun w => w.cells = cells) [.value (.item a)]
      .boolean := by
  intro schema source a b failing cells e
  have helement : (Shape.ofSchema schema).Conforms (fun ref => ref = a ∨ ref = b)
      (fun w => w.cells = cells) (.item a) := by
    refine Shape.conforms_of_resolved (w := { cells }) rfl fun p hp => ?_
    rcases List.mem_pair.1 hp with rfl | rfl
    · exact ⟨_, rfl, .scalar rfl rfl⟩
    · exact ⟨_, rfl, .scalar rfl rfl⟩
  refine helement.findsValue (fun ref other href hother w hw => ?_) (fun v hv => ?_) rfl
  · obtain ⟨found, _, _, _, _, _, _⟩ := w
    replace hw : found = cells := hw
    subst hw
    have hend {b : Bool} : (Except.ok b : Except Stop Bool) ≠ .error .diverged := by
      intro h
      cases h
    rcases href with rfl | rfl <;> rcases hother with rfl | rfl <;> exact ⟨hend, rfl⟩
  · obtain ⟨part, hpart, hv⟩ := (Expr.hasLiteral_iff rfl).1 hv
    rcases List.mem_pair.1 hpart with rfl | rfl
    · obtain hv | hv := Expr.hasLiteral_comparison.1 hv
      · exact absurd hv (Expr.not_hasLiteral_of_elementField rfl)
      · exact Expr.hasLiteral_literal.1 hv ▸ .single rfl
    · obtain hv | hv := Expr.hasLiteral_comparison.1 hv
      · exact Expr.hasLiteral_literal.1 hv ▸ .item (.inl rfl)
      · exact Expr.hasLiteral_literal.1 hv ▸ .item (.inr rfl)

end Finding

end RecordAlgebra
