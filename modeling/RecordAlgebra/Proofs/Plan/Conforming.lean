import RecordAlgebra.Proofs.Document.Conforming
import RecordAlgebra.Proofs.Plan.Groups

/-!
# Operands and accumulators over documents of a shape

A shape gives documents a type. What an operand gives for a document of this type is of the type
that the operand was made with, and so is what an accumulator comes to over such documents. Only
records with distinct names are needed for it, not that the documents stand for anything.
-/

namespace RecordAlgebra

open Pipeline (Operand Combination LetterCase Accumulator Grouping)

namespace Value

variable {known : ItemRef → Prop} {v : Value} {t : DataType}

variable (known) in
/-- To conform to a type of plain values is to fit it. -/
theorem conforms_iff_fits (ht : t.isPlain = true) : v.Conforms t ↔ v.Fits known t := by
  obtain ⟨s, rfl, hs⟩ := Shape.exists_scalar_of_isPlain ht
  have hany : s ≠ .any := by
    rintro rfl
    cases hs
  rw [Conforms.scalar_iff]
  constructor
  · intro ⟨_, hadmits⟩
    have hsingle : v.isSingle = true := by
      cases v <;> first | rfl | (cases s <;> cases hs <;> cases hadmits)
    exact .scalar hsingle hadmits
  · exact fun h => ⟨hs, (single_of_fits hany h).2⟩

end Value

theorem DataType.isPlain_of_isNumeric {t : DataType} (h : t.isNumeric = true) :
    t.isPlain = true := by
  rcases int_or_float_of_isNumeric h with rfl | rfl <;> rfl

namespace Pipeline

theorem Combination.isPlain_of_ofTypes? {op : ArithmeticOp} {l r t : DataType}
    {combination : Combination} (h : Combination.ofTypes? op l r = some (combination, t)) :
    l.isPlain = true ∧ r.isPlain = true ∧ t.isPlain = true := by
  rw [Combination.ofTypes?] at h
  split at h
  next hnumeric =>
    obtain ⟨hl, hr⟩ := Bool.and_eq_true_iff.1 hnumeric
    refine ⟨DataType.isPlain_of_isNumeric hl, DataType.isPlain_of_isNumeric hr, ?_⟩
    cases op <;> cases h <;> (split <;> rfl)
  next =>
    obtain ⟨htext, h⟩ := Option.ite_none_right_eq_some.1 h
    cases h
    simp only [Bool.and_eq_true] at htext
    rw [DataType.eq_text_of_beq htext.1.2, DataType.eq_text_of_beq htext.2]
    exact ⟨rfl, rfl, rfl⟩

namespace Operand

variable {document : Json} {a b : Operand} {l r : DataType} {operands : Fields Operand}
  {types : Fields DataType}

/-- Whatever the operand gives for the document conforms to the type. -/
def ConformsFor (document : Json) (operand : Operand) (t : DataType) : Prop :=
  ∀ v, operand.eval document = .ok v → v.Conforms t

theorem combine_conforms {op : ArithmeticOp} {t : DataType} {combination : Combination}
    (h : Combination.ofTypes? op l r = some (combination, t)) (ha : a.ConformsFor document l)
    (hb : b.ConformsFor document r) : (combine combination a b).ConformsFor document t := by
  intro x hx
  obtain ⟨v, hv, hx⟩ := bind_ok_iff.1 hx
  obtain ⟨u, hu, hx⟩ := bind_ok_iff.1 hx
  obtain ⟨rfl, htype, -⟩ := Combination.ofTypes?_eq_some h
  obtain ⟨hl, hr, ht⟩ := Combination.isPlain_of_ofTypes? h
  have hleft := (Value.conforms_iff_fits (fun _ => True) hl).1 (ha v hv)
  have hright := (Value.conforms_iff_fits (fun _ => True) hr).1 (hb u hu)
  exact (Value.conforms_iff_fits _ ht).2 (Value.apply_fits htype hleft hright hx)

theorem changeCase_conforms {letters : LetterCase} :
    (changeCase letters a).ConformsFor document .text := by
  intro x hx
  obtain ⟨v, -, hx⟩ := bind_ok_iff.1 hx
  have hfits : x.Fits (fun _ => True) letters.function.returnType := Value.function_fits hx
  have htype : letters.function.returnType = .text := by cases letters <;> rfl
  exact (Value.conforms_iff_fits _ rfl).2 (htype ▸ hfits)

theorem evalFields_conform (h : Fields.Related (ConformsFor document) operands types)
    {values : Fields Value} (hvalues : evalFields document operands = .ok values) :
    Fields.Related Value.Conforms values types := by
  induction h generalizing values with
  | nil =>
      cases hvalues
      exact .nil
  | cons hfirst _ ih =>
      obtain ⟨v, hv, hvalues⟩ := bind_ok_iff.1 hvalues
      obtain ⟨others, hothers, hvalues⟩ := bind_ok_iff.1 hvalues
      cases hvalues
      exact .cons (hfirst v hv) (ih hothers)

theorem object_conforms (hdistinct : types.names.Nodup)
    (h : Fields.Related (ConformsFor document) operands types) :
    (object operands).ConformsFor document (.record types false) := by
  intro x hx
  obtain ⟨values, hvalues, rfl⟩ := map_ok_iff.1 hx
  exact Value.conforms_ofList hdistinct (evalFields_conform h hvalues)

/-- What is merged are the fields of both parts. -/
theorem merge_conforms {l r : RecordType} (ha : a.ConformsFor document (.ofRecordType l))
    (hb : b.ConformsFor document (.ofRecordType r)) :
    (merge [a, b]).ConformsFor document (.record (l.fields.insertAll r.fields) l.isOpen) := by
  intro x hx
  obtain ⟨merged, hmerged, rfl⟩ := map_ok_iff.1 hx
  simp only [mergeAll, bind_ok_iff] at hmerged
  obtain ⟨v, hv, fields, hfields, u, hu, additions, hadditions, hmerged⟩ := hmerged
  cases hmerged
  obtain ⟨hopen, hdistinct, _, rfl, hleft⟩ := (ha v hv).fields
  obtain ⟨-, -, _, rfl, hright⟩ := (hb u hu).fields
  obtain rfl := Except.ok.inj hfields
  obtain rfl := Except.ok.inj hadditions
  rw [hopen, show Fields.insertAll [] _ = _ from Fields.ofList_eq_self (hleft.names ▸ hdistinct)]
  exact .record (Fields.nodup_names_insertAll hdistinct _) (hleft.insertAll hright)

theorem document_conforms {t : DataType} (h : a.ConformsFor document t) {output : Json}
    (hrun : a.document document = .ok output) : output.Conforms t := by
  obtain ⟨v, hv, houtput⟩ := bind_ok_iff.1 hrun
  exact Document.conforms_ofValue (h v hv) houtput

end Operand

namespace Tally

variable {tally next : Tally} {s t : DataType} {v : Value} {vs : List Value}

/-- Values of the one type can be added, and the results conform to the other one. -/
def Takes (s t : DataType) : Tally → Prop
  | .sum total => s = t ∧ t.isNumeric = true ∧ total.Conforms t
  | .mean _ => t = .float
  | .best _ found => s = t ∧ ∀ v ∈ found, v.Conforms t
  | .count _ _ => t = .int

theorem Takes.add (h : tally.Takes s t) (hv : v.Conforms s) (hnext : tally.add v = .ok next) :
    next.Takes s t := by
  cases tally with
  | sum total =>
      obtain ⟨rfl, hnumeric, htotal⟩ := h
      obtain ⟨sum, hsum, rfl⟩ := map_ok_iff.1 hnext
      have hplain := DataType.isPlain_of_isNumeric hnumeric
      have htype : AggregateOp.sum.resultType s = .ok s := by
        rcases DataType.int_or_float_of_isNumeric hnumeric with rfl | rfl <;> rfl
      rw [Value.conforms_iff_fits (fun _ => True) hplain] at htotal hv
      exact ⟨rfl, hnumeric,
        (Value.conforms_iff_fits _ hplain).2 (Value.addToSum_fits htype htotal hv hsum)⟩
  | mean state =>
      obtain ⟨state', -, rfl⟩ := map_ok_iff.1 hnext
      exact h
  | best wanted found =>
      obtain ⟨rfl, hfound⟩ := h
      obtain ⟨found', hbetter, rfl⟩ := map_ok_iff.1 hnext
      refine ⟨rfl, fun u hu => ?_⟩
      rcases Value.better_mem hbetter hu with hkept | rfl
      · exact hfound u hkept
      · exact hv
  | count skipNulls n =>
      cases hnext
      exact h

theorem Takes.addAll (h : tally.Takes s t) (hvs : ∀ v ∈ vs, v.Conforms s)
    (hnext : tally.addAll vs = .ok next) : next.Takes s t := by
  induction vs generalizing tally with
  | nil =>
      cases hnext
      exact h
  | cons v rest ih =>
      obtain ⟨hv, hrest⟩ := List.forall_mem_cons.1 hvs
      rw [Tally.addAll, List.foldlM_cons] at hnext
      obtain ⟨between, hbetween, hnext⟩ := bind_ok_iff.1 hnext
      exact ih (h.add hv hbetween) hrest hnext

theorem Takes.result {field : String} (h : tally.Takes s t) (hv : tally.result field = .ok v) :
    v.Conforms t := by
  cases tally with
  | sum total =>
      cases hv
      exact h.2.2
  | mean state =>
      obtain rfl : t = .float := h
      rw [Tally.result, Value.Mean.value?] at hv
      split at hv
      next found hfound =>
        obtain ⟨-, hfound⟩ := Option.ite_none_left_eq_some.1 hfound
        cases hfound
        cases hv
        exact .scalar rfl rfl
      next => cases hv
  | best wanted found =>
      cases found with
      | none => cases hv
      | some best =>
          cases hv
          exact h.2 v rfl
  | count skipNulls n =>
      obtain rfl : t = .int := h
      cases hv
      exact .scalar rfl rfl

end Tally

end Pipeline

namespace Shape

variable {shape : Shape} {document : Json} {name : String} {t : DataType} {v : Value}

/-- The type of documents of this shape. -/
def documentType : Shape → DataType
  | .stored type | .object type => .ofRecordType type
  | .scalar type => type

theorem documentType_ofType (t : DataType) : (ofType t).documentType = t := by
  cases t <;> rfl

theorem documentType_of_whole {whole : RecordType} (hwhole : shape.wholeElement? = some whole) :
    shape.documentType = .ofRecordType whole := by
  obtain ⟨type, htype, hwhole⟩ := Option.bind_eq_some_iff.1 hwhole
  obtain ⟨-, hwhole⟩ := Option.ite_none_right_eq_some.1 hwhole
  cases hwhole
  cases shape <;> cases htype <;> rfl

section Elements

variable (h : document.Conforms shape.documentType)

include h

theorem field_conforms (ht : shape.documentField? name = some t) :
    (Operand.field name).ConformsFor document t := by
  rintro _ ⟨⟩
  obtain ⟨ht, htold⟩ := Option.filter_eq_some_iff.1 ht
  obtain ⟨⟨types, isOpen⟩, htype, ht⟩ := Option.bind_eq_some_iff.1 ht
  have hshape : shape.documentType = .record types isOpen := by
    cases shape <;> cases htype <;> rfl
  rw [hshape] at h
  cases h with
  | record hdistinct hfields =>
      obtain ⟨member, hmember, hconforms⟩ := hfields.get? ht
      rw [Document.fieldValue, Json.member?, hmember]
      exact Document.conforms_toValue hconforms htold

theorem root_conforms {operand : Operand} (hroot : shape.rootOperand? = some (operand, t)) :
    operand.ConformsFor document t := by
  cases shape with
  | stored type => cases hroot
  | object type | scalar type =>
      obtain ⟨htold, hroot⟩ := Option.ite_none_right_eq_some.1 hroot
      cases hroot
      rintro _ ⟨⟩
      exact Document.conforms_toValue h htold

theorem whole_conforms {whole : RecordType} (hwhole : shape.wholeElement? = some whole) :
    Operand.root.ConformsFor document (.ofRecordType whole) := by
  rintro _ ⟨⟩
  obtain ⟨type, -, hwhole'⟩ := Option.bind_eq_some_iff.1 hwhole
  obtain ⟨htold, ⟨⟩⟩ := Option.ite_none_right_eq_some.1 hwhole'
  exact Document.conforms_toValue (documentType_of_whole hwhole ▸ h) htold

end Elements

theorem literal_conforms {operand : Operand} (h : literalOperand? v = some (operand, t)) :
    operand.ConformsFor document t := by
  rw [literalOperand?] at h
  obtain ⟨hplain, h⟩ := Option.ite_none_right_eq_some.1 h
  split at h
  next constant hconstant =>
    cases h
    rintro _ ⟨⟩
    have hv : v.Conforms v.datatype := by
      cases v <;> cases hplain <;> exact .scalar rfl rfl
    exact Document.conforms_stored hv hconstant
  next => cases h

mutual

/-- An operand keeps to its type for the documents of the shape that it was made for. -/
theorem IsOperand.conforms (h : document.Conforms shape.documentType) :
  ∀ {e : Expr} {operand : Operand} {t : DataType},
    IsOperand shape e operand t → e.Proper → operand.ConformsFor document t
  | _, _, _, .root hroot, _ => root_conforms h hroot
  | _, _, _, .field _ ht, _ => field_conforms h ht
  | _, _, _, .literal hliteral, _ => literal_conforms hliteral
  | .arithmetic _ left right _, _, _, .arithmetic ha hb hcombination, hproper =>
      Operand.combine_conforms hcombination
        (IsOperand.conforms h ha
          (hproper.part (show (left, ChildScope.same) ∈ _ by simp [Expr.children])))
        (IsOperand.conforms h hb
          (hproper.part (show (right, ChildScope.same) ∈ _ by simp [Expr.children])))
  | _, _, _, .function _ _, _ => Operand.changeCase_conforms
  | .record fields _, _, _, .record hfields, hproper =>
      Operand.object_conforms (hfields.names ▸ hproper.records [] fields _ rfl)
        (AreOperands.conform h hfields fun field hfield =>
          hproper.part (show (field.2, ChildScope.same) ∈ _ from
            List.mem_map.2 ⟨field, hfield, rfl⟩))
  | .merge left right _, _, _, .merge ha hb, hproper =>
      Operand.merge_conforms
        (IsPart.conforms h ha
          (hproper.part (show (left, ChildScope.same) ∈ _ by simp [Expr.children])))
        (IsPart.conforms h hb
          (hproper.part (show (right, ChildScope.same) ∈ _ by simp [Expr.children])))

theorem IsPart.conforms (h : document.Conforms shape.documentType) :
  ∀ {e : Expr} {operand : Operand} {type : RecordType},
    IsPart shape e operand type → e.Proper → operand.ConformsFor document (.ofRecordType type)
  | _, _, _, .element hwhole, _ => whole_conforms h hwhole
  | _, _, _, .record hoperand, hproper => IsOperand.conforms h hoperand hproper

theorem AreOperands.conform (h : document.Conforms shape.documentType) :
  ∀ {fields : List (String × Expr)} {operands : Fields Operand} {types : Fields DataType},
    AreOperands shape fields operands types → (∀ field ∈ fields, field.2.Proper) →
      Fields.Related (Operand.ConformsFor document) operands types
  | _, _, _, .nil, _ => .nil
  | _, _, _, .cons hfirst hrest, hproper =>
      .cons (IsOperand.conforms h hfirst (List.forall_mem_cons.1 hproper).1)
        (AreOperands.conform h hrest (List.forall_mem_cons.1 hproper).2)

end

/-- An object that is extended by operands has their types in addition. -/
theorem extend_conforms {whole : RecordType} {operands : Fields Operand} {types : Fields DataType}
    {output : Json} (h : document.Conforms shape.documentType)
    (hwhole : shape.wholeElement? = some whole)
    (hoperands : Fields.Related (Operand.ConformsFor document) operands types)
    (hrun : Pipeline.extend operands document = .ok output) :
    output.Conforms (.ofRecordType { whole with fields := whole.fields.insertAll types }) := by
  rw [documentType_of_whole hwhole] at h
  obtain ⟨present, isOpen⟩ := whole
  obtain ⟨additions, hadditions, hrun⟩ := bind_ok_iff.1 hrun
  obtain ⟨values, hvalues⟩ := exists_evalFields hadditions
  rw [mapM_document hvalues] at hadditions
  have hadded := Document.conforms_ofFields (Operand.evalFields_conform hoperands hvalues)
    hadditions
  cases h with
  | record hdistinct hmembers =>
      cases hrun
      exact .record (Fields.nodup_names_insertAll hdistinct _) (hmembers.insertAll hadded)

section Accumulators

variable {op : AggregateOp} {projection : Option Expr} {accumulator : Accumulator} {s : DataType}
  {e total : Expr} {members : List Json} {output : Json}

theorem accumulated?_conforms {operand : Operand}
    (h : shape.accumulated? projection = some (some (operand, s)))
    (hproper : ∀ e ∈ projection, e.Proper) (hdocument : document.Conforms shape.documentType) :
    operand.ConformsFor document s := by
  cases projection with
  | some e =>
      obtain ⟨_, hoperand, ⟨⟩⟩ := Option.map_eq_some_iff.1 h
      exact (isOperand_of_operand? hoperand).conforms hdocument (hproper e rfl)
  | none =>
      cases shape with
      | scalar type =>
          rw [accumulated?] at h
          split at h
          next htold =>
            cases h
            rintro _ ⟨⟩
            exact Document.conforms_toValue hdocument htold
          next => cases h
      | _ => cases h

/-- An accumulator starts with a tally that takes what it computes from documents. -/
theorem accumulator?_takes (h : shape.accumulator? op projection = some (accumulator, t))
    (hproper : ∀ e ∈ projection, e.Proper) :
    ∃ s, accumulator.start.Takes s t ∧ ∀ document, document.Conforms shape.documentType →
      ∀ v, accumulator.input document = .ok v → v.Conforms s := by
  obtain ⟨accumulated, haccumulated, h⟩ := Option.bind_eq_some_iff.1 h
  have counted (document : Json) (v : Value)
      (hv : (Accumulator.count none).input document = .ok v) : v.Conforms .int := by
    cases hv
    exact Value.conforms_null rfl
  cases accumulated with
  | none =>
      cases op with
      | len | count =>
          cases h
          exact ⟨.int, rfl, fun document _ => counted document⟩
      | _ => cases h
  | some taken =>
      obtain ⟨operand, s⟩ := taken
      have hinput (document : Json) (h : document.Conforms shape.documentType) :
          operand.ConformsFor document s := accumulated?_conforms haccumulated hproper h
      cases op with
      | len =>
          cases h
          exact ⟨.int, rfl, fun document _ => counted document⟩
      | count =>
          cases h
          exact ⟨s, rfl, hinput⟩
      | sum =>
          obtain ⟨hnumeric, h⟩ := Option.ite_none_right_eq_some.1 h
          -- A fractional sum starts with an integer as well.
          have hzero : (Value.int 0).Conforms s := by
            rcases DataType.int_or_float_of_isNumeric hnumeric with rfl | rfl <;>
              exact .scalar rfl rfl
          cases h
          exact ⟨_, ⟨rfl, hnumeric, hzero⟩, hinput⟩
      | avg =>
          obtain ⟨-, h⟩ := Option.ite_none_right_eq_some.1 h
          cases h
          exact ⟨s, rfl, hinput⟩
      | min | max =>
          obtain ⟨-, h⟩ := Option.ite_none_right_eq_some.1 h
          cases h
          exact ⟨_, ⟨rfl, nofun⟩, hinput⟩

variable (hmembers : ∀ member ∈ members, member.Conforms shape.documentType)

include hmembers

/-- What a summary holds for an aggregate over members of the shape. -/
theorem Holds.conforms {name : String} (h : Holds members output (name, accumulator))
    (hmember : shape.memberAccumulator? e = some (accumulator, t)) (hproper : e.Proper) :
    (Operand.field name).ConformsFor output t := by
  obtain ⟨result, hresult, hread⟩ := h
  cases e with
  | aggregate op source projection type =>
      obtain ⟨-, hmember⟩ := Option.ite_none_right_eq_some.1 hmember
      have hprojection : ∀ e ∈ projection, e.Proper := by
        rintro e ⟨⟩
        exact hproper.part (show (e, ChildScope.nested) ∈ _ by simp [Expr.children])
      obtain ⟨s, htakes, hinput⟩ := accumulator?_takes hmember hprojection
      obtain ⟨-, tally, htally, hmade⟩ := Grouping.member?_eq_some_iff.1 hresult
      obtain ⟨values, hvalues, htally⟩ := Grouping.tally_ok_iff.1 htally
      obtain ⟨v, hv, hmade⟩ := bind_ok_iff.1 hmade
      have hconform : ∀ u ∈ values, u.Conforms s := fun u hu => by
        obtain ⟨document, hdocument, hgives⟩ := exists_mem_of_forall₂ (mapM_ok_iff.1 hvalues) hu
        exact hinput document (hmembers document hdocument) u hgives
      rintro _ ⟨⟩
      rw [hread]
      exact Document.conforms_stored ((htakes.addAll hconform htally).result hv) hmade
  | _ => cases hmember

theorem memberAccumulators?_conform {fields : List (String × Expr)}
    {accumulators : Fields Accumulator} {operands : Fields Operand} {types : Fields DataType}
    {position : Nat}
    (h : shape.memberAccumulators? position fields = some (accumulators, operands, types))
    (hholds : ∀ field ∈ accumulators, Holds members output field)
    (hproper : ∀ field ∈ fields, field.2.Proper) :
    Fields.Related (Operand.ConformsFor output) operands types := by
  induction fields generalizing position accumulators operands types with
  | nil =>
      cases h
      exact .nil
  | cons field rest ih =>
      obtain ⟨name, e⟩ := field
      obtain ⟨accumulator, type, others, otherOperands, otherTypes, hfirst, hrest, rfl, rfl, rfl⟩ :=
        memberAccumulators?_cons h
      obtain ⟨hheld, hholds⟩ := List.forall_mem_cons.1 hholds
      obtain ⟨hproper, hothers⟩ := List.forall_mem_cons.1 hproper
      exact .cons (hheld.conforms hmembers hfirst hproper) (ih hrest hholds hothers)

/-- The results of a group, be they one or those of a record. -/
theorem groupResult?_conforms {result : GroupResult}
    (h : shape.groupResult? total = some result)
    (hholds : ∀ field ∈ result.accumulators, Holds members output field)
    (hproper : total.Proper) : result.operand.ConformsFor output result.type := by
  rcases groupResult?_cases h with ⟨fields, type, accumulators, operands, types, rfl, haccumulators,
    rfl⟩ | ⟨accumulator, type, -, hmember, rfl⟩
  · refine Operand.object_conforms ?_ (memberAccumulators?_conform hmembers haccumulators hholds
      fun field hfield => hproper.part (show (field.2, ChildScope.same) ∈ _ from
        List.mem_map.2 ⟨field, hfield, rfl⟩))
    rw [(names_memberAccumulators? haccumulators).2]
    exact hproper.records [] fields type rfl
  · exact (hholds _ List.mem_cons_self).conforms hmembers hmember hproper

end Accumulators

end Shape

end RecordAlgebra
