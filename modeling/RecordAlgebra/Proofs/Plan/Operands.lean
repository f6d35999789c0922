import RecordAlgebra.Pipeline.Run
import RecordAlgebra.Proofs.Expr.Elementwise
import RecordAlgebra.Proofs.Plan.Elements
import RecordAlgebra.Proofs.Typing.Tolerance
import RecordAlgebra.Proofs.Typing.Typed

/-!
# Operands compute what expressions mean

An operand is evaluated over a document and the expression that it was made of over the
element that the document stands for. The value that comes out tells the datum that comes out,
because an operand is made only where it does. In particular the document of the value reads
back, and the shape of the documents after a projection is known.
-/

namespace RecordAlgebra

open Pipeline (Operand Combination LetterCase)

namespace Value

mutual

@[simp] theorem isItemFree_bare : ∀ v : Value, v.bare.isItemFree = v.isItemFree
  | .null | .bool _ | .int _ | .float _ | .text _ | .bytes _ | .timestamp _ | .item _ => rfl
  | .list elements => areItemFree_bares elements
  | .record fields => fieldsItemFree_bareFields fields

theorem areItemFree_bares : ∀ vs : List Value, areItemFree (bares vs) = areItemFree vs
  | [] => rfl
  | v :: rest => by rw [bares, areItemFree, areItemFree, isItemFree_bare v, areItemFree_bares rest]

theorem fieldsItemFree_bareFields : ∀ fields : List (String × Value),
    fieldsItemFree (bareFields fields) = fieldsItemFree fields
  | [] => rfl
  | (name, v) :: rest => by
      rw [bareFields, fieldsItemFree, fieldsItemFree, isItemFree_bare v,
        fieldsItemFree_bareFields rest]

end

mutual

/-- A value without items is bare. -/
theorem bare_eq_self : ∀ {v : Value}, v.isItemFree = true → v.bare = v
  | .null, _ | .bool _, _ | .int _, _ | .float _, _ | .text _, _ | .bytes _, _
  | .timestamp _, _ => rfl
  | .list _, h => congrArg Value.list (bares_eq_self h)
  | .record _, h => congrArg Value.record (bareFields_eq_self h)
  | .item _, h => by cases h

theorem bares_eq_self : ∀ {vs : List Value}, areItemFree vs = true → bares vs = vs
  | [], _ => rfl
  | v :: rest, h => by
      rw [areItemFree, Bool.and_eq_true] at h
      rw [bares, bare_eq_self h.1, bares_eq_self h.2]

theorem bareFields_eq_self : ∀ {fields : List (String × Value)},
    fieldsItemFree fields = true → bareFields fields = fields
  | [], _ => rfl
  | (name, v) :: rest, h => by
      rw [fieldsItemFree, Bool.and_eq_true] at h
      rw [bareFields, bare_eq_self h.1, bareFields_eq_self h.2]

end

theorem fieldsItemFree_iff {fields : List (String × Value)} :
    fieldsItemFree fields = true ↔ ∀ field ∈ fields, field.2.isItemFree = true := by
  induction fields with
  | nil => simp [fieldsItemFree]
  | cons field rest ih =>
      obtain ⟨name, v⟩ := field
      simp [fieldsItemFree, ih]

end Value

namespace Datum

theorem IsTold.isItemFree {d : Datum} (hd : d.IsTold) : d.bare.isItemFree = true := by
  induction hd with
  | @single d hplain => cases d <;> first | rfl | cases hplain
  | @record ds _ ih =>
      rw [bare, Value.isItemFree, Value.fieldsItemFree_iff, bareFields_eq_map,
        List.forall_mem_map]
      exact ih

/-- Only one value shows a datum without items. -/
theorem eq_bare_of_shows {d : Datum} (hfree : d.bare.isItemFree = true) {w : World} {v : Value}
    (h : w.Shows v d) : v = d.bare := by
  rw [← h.bare_eq] at hfree ⊢
  rw [Value.isItemFree_bare] at hfree
  exact (Value.bare_eq_self hfree).symm

/-- A value without items is the only one that shows its datum. -/
theorem eq_of_shows {d : Datum} {w w' : World} {v u : Value} (hfree : v.isItemFree = true)
    (hv : w.Shows v d) (hu : w'.Shows u d) : v = u := by
  have hd : d.bare.isItemFree = true := by
    rw [← hv.bare_eq, Value.isItemFree_bare]
    exact hfree
  rw [eq_bare_of_shows hd hv, eq_bare_of_shows hd hu]

end Datum

namespace Value

variable {v : Value} {d : Datum} {t : DataType}

theorem Tells.of_shows {w : World} (h : w.Shows v d) (hfits : d.Fits t)
    (htold : t.isDocumentType = true) : v.Tells t d :=
  ⟨(Datum.eq_bare_of_shows (hfits.isTold htold).isItemFree h).symm, hfits, htold⟩

end Value

/-- A result that fits a type whose values are told apart. -/
theorem Agrees.tells {w : World} {x : Except Error Value} {y : Except ErrorKind Datum}
    {t : DataType} (h : Agrees w.Shows x y) (hfits : Progresses (·.Fits t) y)
    (htold : t.isDocumentType = true) : Agrees (fun v d => v.Tells t d) x y := by
  cases x <;> cases y <;> first | exact h | exact .of_shows h hfits htold

theorem Agrees.ok_left {α β : Type} {R : α → β → Prop} {a : α} {y : Except ErrorKind β}
    (h : Agrees R (.ok a) y) : ∃ b, y = .ok b ∧ R a b := by
  cases y with
  | ok b => exact ⟨b, rfl, h⟩
  | error kind => exact h.elim

theorem DataType.eq_text_of_beq {t : DataType} (h : (t == .text) = true) : t = .text := by
  cases t with
  | scalar s =>
      have hs : s = .text := by simpa [BEq.beq, same] using h
      rw [hs]
  | _ => cases h

theorem DataType.int_or_float_of_isNumeric {t : DataType} (h : t.isNumeric = true) :
    t = .int ∨ t = .float := by
  unfold DataType.isNumeric at h
  split at h
  · exact .inl rfl
  · exact .inr rfl
  · cases h

namespace Pipeline

/-- Values that tell their data are combined to one that does. -/
theorem Combination.ofTypes?_eq_some {op : ArithmeticOp} {l r t : DataType}
    {combination : Combination} (h : Combination.ofTypes? op l r = some (combination, t)) :
    combination.op = op ∧ op.resultType l r = .ok t ∧ l.isSettled = true ∧ r.isSettled = true ∧
      t.isSettled = true ∧ t.isDocumentType = true := by
  rw [Combination.ofTypes?] at h
  split at h
  next hnumeric =>
    rw [Bool.and_eq_true] at hnumeric
    obtain ⟨hl, hr⟩ := hnumeric
    rcases DataType.int_or_float_of_isNumeric hl with rfl | rfl <;>
      rcases DataType.int_or_float_of_isNumeric hr with rfl | rfl <;> cases op <;> cases h <;>
      exact ⟨rfl, rfl, rfl, rfl, rfl, rfl⟩
  next =>
    split at h
    next htext =>
      simp only [Bool.and_eq_true, decide_eq_true_eq] at htext
      obtain ⟨⟨rfl, hl⟩, hr⟩ := htext
      obtain rfl := DataType.eq_text_of_beq hl
      obtain rfl := DataType.eq_text_of_beq hr
      cases h
      exact ⟨rfl, rfl, rfl, rfl, rfl, rfl⟩
    next => cases h

theorem Combination.agrees {op : ArithmeticOp} {l r t : DataType} {combination : Combination}
    (h : Combination.ofTypes? op l r = some (combination, t)) {v u : Value} {d e : Datum}
    (hv : v.Tells l d) (hu : u.Tells r e) :
    Agrees (fun v d => v.Tells t d) (Value.apply noItems combination.op v u)
      (Datum.apply op d e) := by
  obtain ⟨rfl, htype, hl, hr, ht, htold⟩ := Combination.ofTypes?_eq_some h
  exact (World.apply_agrees noItems _ (hv.shows {}) (hu.shows {})).tells
    (Datum.apply_progresses hl hr ht htype hv.fits hu.fits) htold

theorem LetterCase.agrees {f : ScalarFunction} {letters : LetterCase}
    (h : LetterCase.ofFunction? f = some letters) {v : Value} {d : Datum}
    (hv : v.Tells .text d) :
    Agrees (fun v d => v.Tells .text d) (letters.function.apply v) (d.function f) := by
  obtain rfl : letters.function = f := by
    cases f <;> cases h <;> rfl
  refine (World.function_agrees _ (hv.shows {})).tells ?_ rfl
  cases letters <;> exact Datum.function_progresses rfl rfl hv.fits

end Pipeline

namespace Expr

/-- Single values among the literals stand for themselves, and records have distinct names. -/
structure Regular (lit : Value → Datum) (e : Expr) : Prop where
  knows : e.Knows lit
  proper : e.Proper

theorem Regular.part {lit : Value → Datum} {e : Expr} (h : e.Regular lit)
    {part : Expr × ChildScope} (hpart : part ∈ e.children) : part.1.Regular lit :=
  ⟨h.knows.part hpart, h.proper.part hpart⟩

end Expr

namespace Shape

variable {shape : Shape} {e : Expr} {operand : Operand} {t : DataType}

mutual

/-- The operand is made of the expression and gives values of this type. -/
inductive IsOperand (shape : Shape) : Expr → Operand → DataType → Prop
  | root {type t : DataType} {operand : Operand} :
      shape.rootOperand? = some (operand, t) → IsOperand shape (.context 0 type) operand t
  | field {e : Expr} {name : String} {t : DataType} :
      e.elementField? = some name → shape.documentField? name = some t →
        IsOperand shape e (.field name) t
  | literal {v : Value} {operand : Operand} {t : DataType} :
      literalOperand? v = some (operand, t) → IsOperand shape (.literal v) operand t
  | arithmetic {op : ArithmeticOp} {left right : Expr} {type l r t : DataType} {a b : Operand}
      {combination : Combination} :
      IsOperand shape left a l → IsOperand shape right b r →
        Combination.ofTypes? op l r = some (combination, t) →
          IsOperand shape (.arithmetic op left right type) (.combine combination a b) t
  | function {f : ScalarFunction} {input : Expr} {operand : Operand} {letters : LetterCase} :
      IsOperand shape input operand .text → LetterCase.ofFunction? f = some letters →
        IsOperand shape (.function f input) (.changeCase letters operand) .text
  | record {fields : List (String × Expr)} {type : DataType} {operands : Fields Operand}
      {types : Fields DataType} :
      AreOperands shape fields operands types →
        IsOperand shape (.record fields type) (.object operands) (.record types false)
  | merge {left right : Expr} {type : DataType} {a b : Operand} {l r : RecordType} :
      IsPart shape left a l → IsPart shape right b r →
        IsOperand shape (.merge left right type) (.merge [a, b])
          (.record (l.fields.insertAll r.fields) l.isOpen)

/-- The operand is made of a part of a merge. -/
inductive IsPart (shape : Shape) : Expr → Operand → RecordType → Prop
  | element {type : DataType} {whole : RecordType} :
      shape.wholeElement? = some whole → IsPart shape (.context 0 type) .root whole
  | record {e : Expr} {operand : Operand} {fields : Fields DataType} {isOpen : Bool} :
      IsOperand shape e operand (.record fields isOpen) → IsPart shape e operand { fields, isOpen }

inductive AreOperands (shape : Shape) :
    List (String × Expr) → Fields Operand → Fields DataType → Prop
  | nil : AreOperands shape [] [] []
  | cons {name : String} {e : Expr} {operand : Operand} {t : DataType}
      {rest : List (String × Expr)} {operands : Fields Operand} {types : Fields DataType} :
      IsOperand shape e operand t → AreOperands shape rest operands types →
        AreOperands shape ((name, e) :: rest) ((name, operand) :: operands) ((name, t) :: types)

end

theorem eq_context_of_isElement (h : e.isElement = true) : ∃ type, e = .context 0 type := by
  cases e with
  | context depth type =>
      cases depth with
      | zero => exact ⟨type, rfl⟩
      | succ depth => cases h
  | _ => cases h

theorem isPart_of_mergePart? {type : RecordType}
    (he : ∀ operand t, shape.operand? e = some (operand, t) → IsOperand shape e operand t)
    (h : shape.mergePart? e (shape.operand? e) = some (operand, type)) :
    IsPart shape e operand type := by
  by_cases helement : e.isElement = true
  · unfold mergePart? at h
    rw [if_pos helement] at h
    obtain ⟨type, rfl⟩ := eq_context_of_isElement helement
    obtain ⟨whole, hwhole, h⟩ := Option.map_eq_some_iff.1 h
    cases h
    exact .element hwhole
  · unfold mergePart? at h
    rw [if_neg helement] at h
    split at h
    next operand fields isOpen hoperand =>
      cases h
      exact .record (he _ _ hoperand)
    next => cases h

theorem areOperands_of_fieldOperands? {fields : List (String × Expr)} {operands : Fields Operand}
    {types : Fields DataType}
    (he : ∀ field ∈ fields, ∀ operand t, shape.operand? field.2 = some (operand, t) →
      IsOperand shape field.2 operand t)
    (h : shape.fieldOperands? fields = some (operands, types)) :
    AreOperands shape fields operands types := by
  induction fields generalizing operands types with
  | nil =>
      cases h
      exact .nil
  | cons field rest ih =>
      obtain ⟨name, e⟩ := field
      obtain ⟨hfirst, hrest⟩ := List.forall_mem_cons.1 he
      rw [fieldOperands?] at h
      obtain ⟨⟨operand, t⟩, hoperand, h⟩ := Option.bind_eq_some_iff.1 h
      obtain ⟨⟨others, types⟩, hothers, h⟩ := Option.bind_eq_some_iff.1 h
      cases h
      exact .cons (hfirst _ _ hoperand) (ih hrest hothers)

theorem isOperand_of_operand? (h : shape.operand? e = some (operand, t)) :
    IsOperand shape e operand t := by
  induction e using Expr.childInduction generalizing operand t with
  | step e ih =>
      have part {child : Expr} (hpart : (child, ChildScope.same) ∈ e.children)
          {operand : Operand} {t : DataType} (h : shape.operand? child = some (operand, t)) :
          IsOperand shape child operand t := ih (child, .same) hpart h
      cases e with
      | context depth type =>
          cases depth with
          | zero =>
              unfold operand? at h
              exact .root h
          | succ depth =>
              unfold operand? at h
              cases h
      | literal v =>
          rw [operand?] at h
          exact .literal h
      | field base name type =>
          rw [operand?] at h
          obtain ⟨name, hname, h⟩ := Option.bind_eq_some_iff.1 h
          obtain ⟨t, ht, h⟩ := Option.bind_eq_some_iff.1 h
          cases h
          exact .field hname ht
      | arithmetic op left right type =>
          rw [operand?] at h
          obtain ⟨⟨a, l⟩, ha, h⟩ := Option.bind_eq_some_iff.1 h
          obtain ⟨⟨b, r⟩, hb, h⟩ := Option.bind_eq_some_iff.1 h
          obtain ⟨⟨combination, t⟩, hcombination, h⟩ := Option.bind_eq_some_iff.1 h
          cases h
          exact .arithmetic (part (by simp [Expr.children]) ha) (part (by simp [Expr.children]) hb)
            hcombination
      | function f input =>
          rw [operand?] at h
          obtain ⟨⟨a, l⟩, ha, h⟩ := Option.bind_eq_some_iff.1 h
          obtain ⟨letters, hletters, h⟩ := Option.bind_eq_some_iff.1 h
          obtain ⟨htext, h⟩ := Option.ite_none_right_eq_some.1 h
          obtain rfl : l = .text := DataType.eq_text_of_beq htext
          cases h
          exact .function (part (by simp [Expr.children]) ha) hletters
      | record fields type =>
          rw [operand?] at h
          obtain ⟨⟨operands, types⟩, hoperands, h⟩ := Option.bind_eq_some_iff.1 h
          cases h
          exact .record (areOperands_of_fieldOperands?
            (fun field hfield _ _ => part (List.mem_map.2 ⟨field, hfield, rfl⟩)) hoperands)
      | merge left right type =>
          rw [operand?] at h
          obtain ⟨⟨a, l⟩, ha, h⟩ := Option.bind_eq_some_iff.1 h
          obtain ⟨⟨b, r⟩, hb, h⟩ := Option.bind_eq_some_iff.1 h
          cases h
          exact .merge (isPart_of_mergePart? (fun _ _ => part (by simp [Expr.children])) ha)
            (isPart_of_mergePart? (fun _ _ => part (by simp [Expr.children])) hb)
      | _ => cases h

section Agreement

variable {ref : SourceRef} {document : Json} {d : Datum} {lit : Value → Datum}
  {scope : List Meaning}

/-- The values of fields tell the fields of data, which have these types. -/
structure TellsEach (values : Fields Value) (ds : Fields Datum) (types : Fields DataType) :
    Prop where
  bare : values = Datum.bareFields ds
  fits : List.Forall₂ (fun d t => d.1 = t.1 ∧ d.2.Fits t.2) ds types
  told : DataType.isDocumentType.areDocumentTypes types = true

/-- The operand ends for the document as the expression does for the element. -/
def Computes (lit : Value → Datum) (scope : List Meaning) (document : Json) (d : Datum)
    (e : Expr) (operand : Operand) (t : DataType) : Prop :=
  Agrees (fun v d => v.Tells t d) (operand.eval document)
    (e.denoteValue lit (.value d :: scope))

/-- The same for a part of a merge. -/
def ComputesPart (lit : Value → Datum) (scope : List Meaning) (document : Json) (d : Datum)
    (e : Expr) (operand : Operand) (type : RecordType) : Prop :=
  Agrees (fun v d => ∃ ds, v.TellsFields type d ds) (operand.eval document)
    (e.denoteValue lit (.value d :: scope))

theorem denoteValue_element {type : DataType} :
    (Expr.context 0 type).denoteValue lit (.value d :: scope) = .ok d :=
  Expr.denoteValue_value (by rw [Expr.denote]; rfl)

theorem computes_literal {v : Value} (h : literalOperand? v = some (operand, t))
    (hknows : (Expr.literal v).Knows lit) :
    Computes lit scope document d (.literal v) operand t := by
  rw [literalOperand?] at h
  split at h
  next hplain =>
    split at h
    next constant hconstant =>
      cases h
      have htells : v.Tells v.datatype (.ofValue v) := by
        cases v <;> cases hplain <;> exact ⟨rfl, .scalar rfl, rfl⟩
      have hsingle : v.isSingle = true := by
        cases v <;> first | rfl | cases hplain
      rw [Computes, Operand.eval, htells.reads hconstant,
        Expr.denoteValue_value (Expr.denote_literal lit _ v),
        hknows v (Expr.hasLiteral_self v) hsingle]
      exact htells
    next => cases h
  next => cases h

theorem computes_merge {left right : Expr} {type : DataType} {a b : Operand} {l r : RecordType}
    (ha : ComputesPart lit scope document d left a l)
    (hb : ComputesPart lit scope document d right b r) :
    Computes lit scope document d (.merge left right type) (.merge [a, b])
      (.record (l.fields.insertAll r.fields) l.isOpen) := by
  have hmerge : Operand.eval document (.merge [a, b]) = (do
      let v ← a.eval document
      let fields ← v.entries ItemAccess.detached
      let u ← b.eval document
      let additions ← u.entries ItemAccess.detached
      .ok (.record ((Fields.ofList fields).insertAll additions))) := by
    simp only [Operand.eval, Operand.mergeAll]
    show Functor.map (f := Except Error) Value.record _ = _
    simp only [map_bind]
    rfl
  rw [Computes, hmerge, Expr.denoteValue_merge]
  refine ha.bind fun v d ⟨ds, hds⟩ => ?_
  rw [hds.bare]
  refine hb.bind fun u e ⟨es, hes⟩ => ?_
  rw [hes.bare, Datum.merge, hds.entries, hes.entries]
  have hbare : (Fields.ofList (Datum.bareFields ds)).insertAll (Datum.bareFields es) =
      Datum.bareFields ((Fields.ofList ds).insertAll es) := by
    simp only [Datum.bareFields_eq_map, Fields.map_snd_insertAll, Fields.ofList, List.map_nil]
  have hfits := hds.fits.ofList.insertAll hes.fits
  have htold : DataType.isDocumentType.areDocumentTypes (l.fields.insertAll r.fields) = true := by
    refine DataType.areDocumentTypes_iff.2 fun field hfield => ?_
    exact (Fields.mem_insertAll hfield).elim (DataType.areDocumentTypes_iff.1 hds.told field)
      (DataType.areDocumentTypes_iff.1 hes.told field)
  show Value.Tells (.record ((Fields.ofList (Datum.bareFields ds)).insertAll (Datum.bareFields es)))
    _ (.record ((Fields.ofList ds).insertAll es))
  rw [hbare, hds.closed]
  exact Value.tells_record hfits htold

theorem computes_record {fields : List (String × Expr)} {type : DataType}
    {operands : Fields Operand} {types : Fields DataType}
    (h : Agrees (fun values ds => TellsEach values ds types)
      (Operand.evalFields document operands)
      (Expr.denoteFields lit (.value d :: scope) fields))
    (hdistinct : types.names.Nodup) :
    Computes lit scope document d (.record fields type) (.object operands)
      (.record types false) := by
  rw [Computes, Operand.eval, Expr.denoteValue_record]
  revert h
  cases Operand.evalFields document operands <;>
    cases Expr.denoteFields lit (.value d :: scope) fields <;> intro h
  case ok.ok values ds =>
    obtain ⟨rfl, hfits, htold⟩ := h
    have hfields := Datum.fieldsFit_of_forall₂ hdistinct hfits
    have hnames : (Fields.names (Datum.bareFields ds)).Nodup := by
      rw [Datum.bareFields_eq_map, Fields.names, List.map_map]
      exact hfields.names
    show Value.Tells (.record (Fields.ofList (Datum.bareFields ds))) _ (.record (Fields.ofList ds))
    rw [Fields.ofList_eq_self hnames, Fields.ofList_eq_self hfields.names]
    exact Value.tells_record hfields htold
  all_goals exact h

theorem AreOperands.names {fields : List (String × Expr)} {operands : Fields Operand}
    {types : Fields DataType} :
    AreOperands shape fields operands types → types.names = fields.map Prod.fst
  | .nil => rfl
  | .cons _ hrest => congrArg _ hrest.names

mutual

/-- An operand computes the data that the expression means for the element. -/
theorem IsOperand.computes (h : shape.Stands ref document d) :
  ∀ {e : Expr} {operand : Operand} {t : DataType},
    IsOperand shape e operand t → e.Regular lit → Computes lit scope document d e operand t
  | _, _, _, .root hroot, _ => by
      obtain ⟨rfl, htells⟩ := h.root hroot
      rw [Computes, denoteValue_element]
      exact htells
  | _, _, _, .field hname ht, _ => by
      obtain ⟨part, hpart, htells⟩ := h.documentField ht
      rw [Computes, Expr.denoteValue_value (d := part)]
      · exact htells
      · rw [Expr.denote_elementField hname, hpart]
        rfl
  | _, _, _, .literal hliteral, hregular => computes_literal hliteral hregular.knows
  | .arithmetic _ left right _, _, _, .arithmetic ha hb hcombination, hregular => by
      have hleft := IsOperand.computes h ha
        (hregular.part (show (left, ChildScope.same) ∈ _ by simp [Expr.children]))
      have hright := IsOperand.computes h hb
        (hregular.part (show (right, ChildScope.same) ∈ _ by simp [Expr.children]))
      rw [Computes, Operand.eval, Expr.denoteValue_arithmetic]
      exact hleft.bind fun v a hv => hright.bind fun u b hu =>
        Combination.agrees hcombination hv hu
  | .function _ input, _, _, .function hinput hletters, hregular => by
      have hpart := IsOperand.computes h hinput
        (hregular.part (show (input, ChildScope.same) ∈ _ by simp [Expr.children]))
      rw [Computes, Operand.eval, Expr.denoteValue_function]
      exact hpart.bind fun v a hv => LetterCase.agrees hletters hv
  | .record fields _, _, _, .record hfields, hregular => by
      refine computes_record (AreOperands.computes h hfields fun field hfield =>
        hregular.part (show (field.2, ChildScope.same) ∈ _ from
          List.mem_map.2 ⟨field, hfield, rfl⟩)) ?_
      rw [hfields.names]
      exact hregular.proper.records [] fields _ rfl
  | .merge left right _, _, _, .merge ha hb, hregular => computes_merge
      (IsPart.computes h ha
        (hregular.part (show (left, ChildScope.same) ∈ _ by simp [Expr.children])))
      (IsPart.computes h hb
        (hregular.part (show (right, ChildScope.same) ∈ _ by simp [Expr.children])))

theorem IsPart.computes (h : shape.Stands ref document d) :
  ∀ {e : Expr} {operand : Operand} {type : RecordType},
    IsPart shape e operand type → e.Regular lit →
      ComputesPart lit scope document d e operand type
  | _, _, _, .element hwhole, _ => by
      rw [ComputesPart, denoteValue_element]
      exact h.whole hwhole
  | _, _, { fields, isOpen }, .record hoperand, hregular =>
      (IsOperand.computes h hoperand hregular).mono fun _ _ htells => by
        have htells : Value.Tells _ (.ofRecordType { fields, isOpen }) _ := htells
        obtain ⟨ds, -, hfields⟩ := htells.fields
        exact ⟨ds, hfields⟩

theorem AreOperands.computes (h : shape.Stands ref document d) :
    ∀ {fields : List (String × Expr)} {operands : Fields Operand} {types : Fields DataType},
      AreOperands shape fields operands types →
      (∀ field ∈ fields, field.2.Regular lit) →
        Agrees (fun values ds => TellsEach values ds types) (Operand.evalFields document operands)
          (Expr.denoteFields lit (.value d :: scope) fields)
  | _, _, _, .nil, _ => by
      rw [Operand.evalFields, Expr.denoteFields]
      exact ⟨rfl, .nil, rfl⟩
  | (name, e) :: rest, _, _, .cons hfirst hrest, hregular => by
      obtain ⟨hregular, hothers⟩ := List.forall_mem_cons.1 hregular
      have he := IsOperand.computes h hfirst hregular
      have hfields := AreOperands.computes h hrest hothers
      rw [Operand.evalFields, Expr.denoteFields_cons]
      refine he.bind fun v a hv => hfields.bind fun values ds heach => ?_
      refine ⟨?_, .cons ⟨rfl, hv.fits⟩ heach.fits, ?_⟩
      · rw [Datum.bareFields, hv.bare, heach.bare]
      · rw [DataType.isDocumentType.areDocumentTypes, hv.told, heach.told]
        rfl

end

end Agreement

section Literals

variable {v : Value}

theorem not_hasLiteral_context {depth : Nat} {type : DataType} :
    ¬(Expr.context depth type).HasLiteral v := by
  rw [Expr.hasLiteral_iff rfl]
  rintro ⟨part, hpart, -⟩
  cases hpart

mutual

/-- Only single values are literals of operands. -/
theorem IsOperand.isSingle : ∀ {e : Expr} {operand : Operand} {t : DataType},
    IsOperand shape e operand t → e.HasLiteral v → v.isSingle = true
  | _, _, _, .root _, hv => (not_hasLiteral_context hv).elim
  | _, _, _, .field hname _, hv => (Expr.not_hasLiteral_of_elementField hname hv).elim
  | .literal u, _, _, .literal hliteral, hv => by
      obtain rfl := Expr.hasLiteral_literal.1 hv
      rw [literalOperand?, Option.ite_none_right_eq_some] at hliteral
      cases u <;> first | rfl | cases hliteral.1
  | .arithmetic _ left right _, _, _, .arithmetic ha hb _, hv => by
      have hv : left.HasLiteral v ∨ right.HasLiteral v := by
        simpa [Expr.children] using (Expr.hasLiteral_iff rfl).1 hv
      exact hv.elim (IsOperand.isSingle ha) (IsOperand.isSingle hb)
  | .function _ input, _, _, .function hinput _, hv => by
      have hv : input.HasLiteral v := by
        simpa [Expr.children] using (Expr.hasLiteral_iff rfl).1 hv
      exact IsOperand.isSingle hinput hv
  | .record fields _, _, _, .record hfields, hv => by
      obtain ⟨part, hpart, hv⟩ := (Expr.hasLiteral_iff rfl).1 hv
      obtain ⟨field, hfield, rfl⟩ := List.mem_map.1 hpart
      exact AreOperands.isSingle hfields hfield hv
  | .merge left right _, _, _, .merge ha hb, hv => by
      have hv : left.HasLiteral v ∨ right.HasLiteral v := by
        simpa [Expr.children] using (Expr.hasLiteral_iff rfl).1 hv
      exact hv.elim (IsPart.isSingle ha) (IsPart.isSingle hb)

theorem IsPart.isSingle : ∀ {e : Expr} {operand : Operand} {type : RecordType},
    IsPart shape e operand type → e.HasLiteral v → v.isSingle = true
  | _, _, _, .element _, hv => (not_hasLiteral_context hv).elim
  | _, _, _, .record hoperand, hv => IsOperand.isSingle hoperand hv

theorem AreOperands.isSingle : ∀ {fields : List (String × Expr)} {operands : Fields Operand}
    {types : Fields DataType}, AreOperands shape fields operands types →
      ∀ {field : String × Expr}, field ∈ fields → field.2.HasLiteral v → v.isSingle = true
  | _, _, _, .cons hfirst hrest, _, hfield, hv => by
      rcases List.mem_cons.1 hfield with rfl | hfield
      · exact IsOperand.isSingle hfirst hv
      · exact AreOperands.isSingle hrest hfield hv

end

end Literals

end Shape

end RecordAlgebra
