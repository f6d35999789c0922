import RecordAlgebra.Proofs.Pipeline.Written
import RecordAlgebra.Proofs.Plan.Translations

/-!
# Written plans

The pipeline of a plan reads back from its document, and so does every pipeline that was itself
read. Records of built expressions have distinct fields, so the objects that plans build from
them do too, and accumulators are named by their positions, never like the member for the key.
-/

namespace RecordAlgebra

open Pipeline (Operand Accumulator Grouping)

theorem Expr.Proper.same {e part : Expr} (h : e.Proper) (hpart : (part, .same) ∈ e.children) :
    part.Proper :=
  h.part hpart

theorem Expr.Proper.nested {e part : Expr} (h : e.Proper) (hpart : (part, .nested) ∈ e.children) :
    part.Proper :=
  h.part hpart

namespace Shape

variable {shape : Shape} {e : Expr} {operand : Operand} {t : DataType}

theorem rootOperand?_eq_root (h : shape.rootOperand? = some (operand, t)) : operand = .root := by
  cases shape with
  | stored type => cases h
  | object type | scalar type =>
      obtain ⟨-, h⟩ := Option.ite_none_right_eq_some.1 h
      cases h
      rfl

theorem isProper_of_literalOperand? {v : Value} (h : literalOperand? v = some (operand, t)) :
    operand.IsProper := by
  obtain ⟨-, h⟩ := Option.ite_none_right_eq_some.1 h
  split at h
  · cases h
    exact .literal _
  · cases h

theorem AreOperands.operandNames {fields : List (String × Expr)} {operands : Fields Operand}
    {types : Fields DataType} :
    AreOperands shape fields operands types → operands.names = fields.map Prod.fst
  | .nil => rfl
  | .cons _ hrest => congrArg _ hrest.operandNames

mutual

theorem IsOperand.isProper : ∀ {e : Expr} {operand : Operand} {t : DataType},
    IsOperand shape e operand t → e.Proper → operand.IsProper
  | _, _, _, .root hroot, _ => rootOperand?_eq_root hroot ▸ .root
  | _, _, _, .field _ _, _ => .field _
  | _, _, _, .literal hliteral, _ => isProper_of_literalOperand? hliteral
  | _, _, _, .arithmetic hleft hright _, hproper =>
      .combine (hleft.isProper (hproper.same (by simp [Expr.children])))
        (hright.isProper (hproper.same (by simp [Expr.children])))
  | _, _, _, .function hinput _, hproper =>
      .changeCase (hinput.isProper (hproper.same (by simp [Expr.children])))
  | _, _, _, .record hfields, hproper =>
      have hnames := hproper.records [] _ _ rfl
      .object (hfields.operandNames ▸ hnames) (hfields.isProper fun field hfield =>
        hproper.part (List.mem_map_of_mem hfield))
  | _, _, _, .merge hleft hright, hproper => by
      have hleft := hleft.isProper (hproper.same (by simp [Expr.children]))
      have hright := hright.isProper (hproper.same (by simp [Expr.children]))
      exact .merge (by simp [hleft, hright])

theorem IsPart.isProper : ∀ {e : Expr} {operand : Operand} {type : RecordType},
    IsPart shape e operand type → e.Proper → operand.IsProper
  | _, _, _, .element _, _ => .root
  | _, _, _, .record hrecord, hproper => hrecord.isProper hproper

theorem AreOperands.isProper : ∀ {fields : List (String × Expr)} {operands : Fields Operand}
    {types : Fields DataType}, AreOperands shape fields operands types →
      (∀ field ∈ fields, field.2.Proper) → ∀ field ∈ operands, field.2.IsProper
  | _, _, _, .nil, _ => by simp
  | _, _, _, .cons hfirst hrest, hproper =>
      have hproper := List.forall_mem_cons.1 hproper
      List.forall_mem_cons.2 ⟨hfirst.isProper hproper.1, hrest.isProper hproper.2⟩

end

theorem isProper_of_operand? (h : shape.operand? e = some (operand, t)) (hproper : e.Proper) :
    operand.IsProper :=
  (isOperand_of_operand? h).isProper hproper

/-- The operands for the fields of a record are those of an object. -/
theorem AreOperands.areProper {fields : List (String × Expr)} {operands : Fields Operand}
    {types : Fields DataType} {type : DataType} (h : AreOperands shape fields operands types)
    (hproper : (Expr.record fields type).Proper) : Operand.AreProper operands :=
  have hnames := hproper.records [] _ _ rfl
  ⟨h.operandNames ▸ hnames, h.isProper fun field hfield =>
    hproper.same (List.mem_map.2 ⟨field, hfield, rfl⟩)⟩

section Accumulators

variable {op : AggregateOp} {projection : Option Expr} {accumulator : Accumulator}

theorem isProper_of_accumulated? {accumulated : Option (Operand × DataType)}
    (h : shape.accumulated? projection = some accumulated)
    (hproper : ∀ e ∈ projection, e.Proper) : ∀ part ∈ accumulated, part.1.IsProper := by
  cases projection with
  | some e =>
      obtain ⟨part, hpart, rfl⟩ := Option.map_eq_some_iff.1 h
      rintro _ ⟨⟩
      exact isProper_of_operand? hpart (hproper e rfl)
  | none =>
      cases shape with
      | scalar type =>
          cases h
          intro part hpart
          obtain ⟨-, hpart⟩ := Option.ite_none_right_eq_some.1 hpart
          cases hpart
          exact .root
      | stored type | object type =>
          cases h
          rintro _ ⟨⟩

/-- An accumulator has the operand that its aggregate is taken of. -/
theorem isProper_of_accumulator? (h : shape.accumulator? op projection = some (accumulator, t))
    (hproper : ∀ e ∈ projection, e.Proper) : accumulator.IsProper := by
  obtain ⟨accumulated, haccumulated, h⟩ := Option.bind_eq_some_iff.1 h
  have hparts := isProper_of_accumulated? haccumulated hproper
  have taken {operand : Operand} {type : DataType} (h : accumulated = some (operand, type)) :
      ∀ o ∈ some operand, o.IsProper := by
    rintro _ ⟨⟩
    exact hparts (operand, type) h
  cases accumulated with
  | none =>
      cases op
      case len | count =>
        cases h
        rintro _ ⟨⟩
      all_goals cases h
  | some part =>
      obtain ⟨operand, type⟩ := part
      cases op
      case len =>
        cases h
        rintro _ ⟨⟩
      case count =>
        cases h
        exact taken rfl
      all_goals
        obtain ⟨-, h⟩ := Option.ite_none_right_eq_some.1 h
        cases h
        exact taken rfl

theorem isProper_of_memberAccumulator? (h : shape.memberAccumulator? e = some (accumulator, t))
    (hproper : e.Proper) : accumulator.IsProper := by
  cases e with
  | aggregate op source projection type =>
      obtain ⟨-, h⟩ := Option.ite_none_right_eq_some.1 h
      refine isProper_of_accumulator? h ?_
      rintro part ⟨⟩
      exact hproper.nested (by simp [Expr.children])
  | _ => cases h

theorem isProper_of_memberAccumulators? {position : Nat} {fields : List (String × Expr)}
    {accumulators : Fields Accumulator} {operands : Fields Operand} {types : Fields DataType}
    (h : shape.memberAccumulators? position fields = some (accumulators, operands, types))
    (hproper : ∀ field ∈ fields, field.2.Proper) :
    operands.names = fields.map Prod.fst ∧ (∀ field ∈ operands, field.2.IsProper) ∧
      ∀ field ∈ accumulators, field.2.IsProper := by
  induction fields generalizing position accumulators operands types with
  | nil =>
      cases h
      exact ⟨rfl, by simp, by simp⟩
  | cons field rest ih =>
      obtain ⟨accumulator, type, others, otherOperands, otherTypes, hfirst, hrest, rfl, rfl, rfl⟩ :=
        memberAccumulators?_cons h
      obtain ⟨hfield, hothers⟩ := List.forall_mem_cons.1 hproper
      obtain ⟨hnames, hoperands, haccumulators⟩ := ih hrest hothers
      exact ⟨congrArg (field.1 :: ·) hnames, List.forall_mem_cons.2 ⟨.field _, hoperands⟩,
        List.forall_mem_cons.2 ⟨isProper_of_memberAccumulator? hfirst hfield, haccumulators⟩⟩

/-- The results of a group are put together by a proper operand. -/
theorem isProper_of_groupResult? {result : GroupResult} {total : Expr}
    (h : shape.groupResult? total = some result) (hproper : total.Proper) :
    result.operand.IsProper ∧ ∀ field ∈ result.accumulators, field.2.IsProper := by
  rcases groupResult?_cases h with ⟨fields, type, accumulators, operands, types, rfl, hmembers,
    rfl⟩ | ⟨accumulator, type, -, hmember, rfl⟩
  · obtain ⟨hnames, hoperands, haccumulators⟩ := isProper_of_memberAccumulators? hmembers
      fun field hfield => hproper.same (List.mem_map.2 ⟨field, hfield, rfl⟩)
    exact ⟨.object (hnames ▸ hproper.records [] fields type rfl) hoperands, haccumulators⟩
  · exact ⟨.field _, by simpa using isProper_of_memberAccumulator? hmember hproper⟩

end Accumulators

theorem isProper_of_groupKey? {key : Expr} (h : shape.groupKey? key = some (operand, t)) :
    operand.IsProper := by
  unfold groupKey? at h
  split at h
  · obtain ⟨_, -, h⟩ := Option.map_eq_some_iff.1 h
    cases h
    exact .field _
  · split at h
    · obtain ⟨-, h⟩ := Option.ite_none_right_eq_some.1 h
      cases h
      exact .root
    · cases h

end Shape

namespace Pipeline

@[simp] theorem isProper_append {first others : Pipeline} :
    IsProper (first ++ others) ↔ IsProper first ∧ IsProper others :=
  List.forall_mem_append

@[simp] theorem isProper_nil : IsProper [] := by simp [IsProper]

@[simp] theorem isProper_cons {stage : Stage} {others : Pipeline} :
    IsProper (stage :: others) ↔ stage.IsProper ∧ IsProper others :=
  List.forall_mem_cons

end Pipeline

namespace Segment

variable {segment next : Segment} {e : Expr} {stage : Pipeline.Stage}

theorem isProper_push (h : Pipeline.IsProper segment.pipeline) (hstage : stage.IsProper) :
    Pipeline.IsProper (segment.push stage).pipeline := by
  simp [push, h, hstage]

theorem isProper_filter? (hnext : segment.filter? e = some next)
    (h : Pipeline.IsProper segment.pipeline) : Pipeline.IsProper next.pipeline := by
  obtain ⟨condition, -, hnext⟩ := Option.bind_eq_some_iff.1 hnext
  cases hnext
  exact isProper_push h trivial

theorem isProper_replace? (hnext : segment.replace? e = some next) (hproper : e.Proper)
    (h : Pipeline.IsProper segment.pipeline) : Pipeline.IsProper next.pipeline := by
  obtain ⟨operand, t, hoperand, hpipeline, -⟩ := replace?_eq_some hnext
  have hstage : (Pipeline.Stage.replaceWith operand).IsProper := hoperand.isProper hproper
  simp [hpipeline, h, hstage]

theorem isProper_extend? {fields : List (String × Expr)} {type : DataType}
    (hnext : segment.extend? fields = some next) (hproper : (Expr.record fields type).Proper)
    (h : Pipeline.IsProper segment.pipeline) : Pipeline.IsProper next.pipeline := by
  obtain ⟨whole, operands, types, -, hoperands, hpipeline, -⟩ := extend?_eq_some hnext
  have hstage : (Pipeline.Stage.addFields operands).IsProper := hoperands.areProper hproper
  simp [hpipeline, h, hstage]

theorem isProper_map? (hnext : segment.map? e = some next) (hproper : e.Proper)
    (h : Pipeline.IsProper segment.pipeline) : Pipeline.IsProper next.pipeline := by
  unfold map? at hnext
  split at hnext
  · cases hnext
    exact h
  split at hnext
  · obtain ⟨⟨operands, types⟩, hoperands, hnext⟩ := Option.bind_eq_some_iff.1 hnext
    cases hnext
    have hfields := Shape.areOperands_of_fieldOperands?
      (fun _ _ _ _ => Shape.isOperand_of_operand?) hoperands
    exact isProper_push h (hfields.areProper hproper)
  · split at hnext
    · exact isProper_extend? hnext (hproper.same (List.mem_cons_of_mem _ List.mem_cons_self)) h
    · exact isProper_replace? hnext hproper h
  · exact isProper_replace? hnext hproper h

theorem nodup_of_sortFields? {keys : List (Expr × Direction)} {fields : Fields Direction}
    (h : segment.sortFields? keys = some fields) : fields.names.Nodup := by
  induction keys generalizing fields with
  | nil =>
      cases h
      exact List.nodup_nil
  | cons key rest ih =>
      obtain ⟨name, -, h⟩ := Option.bind_eq_some_iff.1 h
      obtain ⟨-, -, h⟩ := Option.bind_eq_some_iff.1 h
      obtain ⟨others, hothers, h⟩ := Option.bind_eq_some_iff.1 h
      cases h
      have hfilter : (others.filter fun field => field.1 != name).Sublist others :=
        List.filter_sublist
      refine List.nodup_cons.2 ⟨fun hmem => ?_, (ih hothers).sublist (hfilter.map Prod.fst)⟩
      obtain ⟨field, hfield, hname⟩ := List.mem_map.1 hmem
      simp [hname] at hfield

theorem isProper_sort? {keys : List (Expr × Direction)} (hnext : segment.sort? keys = some next)
    (h : Pipeline.IsProper segment.pipeline) : Pipeline.IsProper next.pipeline := by
  obtain ⟨fields, hfields, hnext⟩ := Option.bind_eq_some_iff.1 hnext
  cases hnext
  exact isProper_push h (nodup_of_sortFields? hfields)

theorem isProper_slice (start : Nat) (stop : Option Nat)
    (h : Pipeline.IsProper segment.pipeline) :
    Pipeline.IsProper (segment.slice start stop).pipeline := by
  have hskipped : Pipeline.IsProper
      (if 0 < start then segment.push (.skip start) else segment).pipeline := by
    split
    · exact isProper_push h trivial
    · exact h
  cases stop with
  | none => exact hskipped
  | some stop => exact isProper_push hskipped trivial

theorem isProper_group? {key total : Expr} (hnext : segment.group? key total = some next)
    (hproper : total.Proper) (h : Pipeline.IsProper segment.pipeline) :
    Pipeline.IsProper next.pipeline := by
  obtain ⟨operand, t, result, hkey, hresult, hpipeline, -⟩ := group?_eq_some hnext
  obtain ⟨hoperand, haccumulators⟩ := Shape.isProper_of_groupResult? hresult hproper
  have hgroup : (Pipeline.Stage.group
      { key := some operand, accumulators := result.accumulators }).IsProper := {
    key := by
      rintro _ ⟨⟩
      exact Shape.isProper_of_groupKey? hkey
    names := Shape.names_groupResult? hresult
    accumulators := haccumulators }
  have hpresented : (Pipeline.Stage.project [(Expr.groupKeyField, .field Pipeline.groupIdField),
      (Expr.groupValueField, result.operand)]).IsProper :=
    ⟨show [Expr.groupKeyField, Expr.groupValueField].Nodup by decide,
      by simp [Operand.IsProper.field, hoperand]⟩
  simp [hpipeline, h, hgroup, hpresented]

/-- The stages that an expression adds are proper, and so are all before them. -/
theorem isProper_of_ofExpr? {schema : Schema} (h : ofExpr? schema e = some segment)
    (hproper : e.Proper) : Pipeline.IsProper segment.pipeline := by
  induction e using Expr.childInduction generalizing segment with
  | step e ih =>
      have source {source : Expr} {between : Segment} (hsource : (source, .same) ∈ e.children)
          (h : ofExpr? schema source = some between) : Pipeline.IsProper between.pipeline :=
        ih _ hsource h (hproper.same hsource)
      cases e with
      | context depth type =>
          obtain ⟨-, h⟩ := Option.ite_none_right_eq_some.1 h
          cases h
          exact Pipeline.isProper_nil
      | filter source' predicate =>
          obtain ⟨between, hbetween, h⟩ := Option.bind_eq_some_iff.1 h
          exact isProper_filter? h (source (by simp [Expr.children]) hbetween)
      | map source' projection type =>
          obtain ⟨between, hbetween, h⟩ := Option.bind_eq_some_iff.1 h
          exact isProper_map? h (hproper.nested (by simp [Expr.children]))
            (source (by simp [Expr.children]) hbetween)
      | sort source' keys =>
          obtain ⟨between, hbetween, h⟩ := Option.bind_eq_some_iff.1 h
          exact isProper_sort? h (source (by simp [Expr.children]) hbetween)
      | slice source' start stop =>
          obtain ⟨between, hbetween, h⟩ := Option.bind_eq_some_iff.1 h
          cases h
          exact isProper_slice start stop (source (by simp [Expr.children]) hbetween)
      | groupBy source' key total type =>
          obtain ⟨between, hbetween, h⟩ := Option.bind_eq_some_iff.1 h
          exact isProper_group? h (hproper.nested (by simp [Expr.children]))
            (source (by simp [Expr.children]) hbetween)
      | _ => cases h

end Segment

namespace Plan

variable {plan : Plan} {e : Expr}

theorem isProper_of_aggregate? {segment : Segment} {op : AggregateOp} {projection : Option Expr}
    (hplan : aggregate? segment op projection = some plan) (hproper : ∀ e ∈ projection, e.Proper)
    (h : Pipeline.IsProper segment.pipeline) : Pipeline.IsProper plan.pipeline := by
  unfold aggregate? at hplan
  split at hplan
  · cases hplan
    exact Segment.isProper_push h trivial
  · obtain ⟨⟨accumulator, t⟩, haccumulator, hplan⟩ := Option.bind_eq_some_iff.1 hplan
    cases hplan
    have hnames : [Pipeline.groupIdField, resultField].Nodup := by decide
    refine Segment.isProper_push h ⟨by rintro _ ⟨⟩, hnames, ?_⟩
    simpa using Shape.isProper_of_accumulator? haccumulator hproper

theorem isProper_of_ofExpr? {schema : Schema} (h : ofExpr? schema e = some plan)
    (hproper : e.Proper) : Pipeline.IsProper plan.pipeline := by
  have sequence (h : (Segment.ofExpr? schema e).map Segment.plan = some plan) :
      Pipeline.IsProper plan.pipeline := by
    obtain ⟨segment, hsegment, rfl⟩ := Option.map_eq_some_iff.1 h
    exact Segment.isProper_of_ofExpr? hsegment hproper
  cases e with
  | aggregate op source projection type =>
      obtain ⟨segment, hsegment, hplan⟩ := Option.bind_eq_some_iff.1 h
      have hsource : source.Proper := hproper.same (by simp [Expr.children])
      refine isProper_of_aggregate? hplan ?_ (Segment.isProper_of_ofExpr? hsegment hsource)
      rintro part ⟨⟩
      exact hproper.nested (by simp [Expr.children])
  | _ => exact sequence h

end Plan

namespace Coverage

variable {view : ItemRef → String} {schema : Schema} {e remainder : Expr} {plan : Plan}

theorem isProper_of_ofExpr {coverage : Coverage} (h : ofExpr view schema e = .ok coverage)
    (hproper : e.Proper) (hplan : coverage.plan? = some plan) :
    Pipeline.IsProper plan.pipeline := by
  cases coverage with
  | full plan =>
      cases hplan
      exact Plan.isProper_of_ofExpr? (ofExpr_eq_full h) hproper
  | partly plan remainder =>
      cases hplan
      obtain ⟨source, conjuncts, segment, rfl, hsegment, hsplit⟩ := ofExpr_eq_partly h
      obtain ⟨rest, rfl, -⟩ := split_eq_partly hsplit
      have hsource : source.Proper := hproper.same (by simp [Expr.children])
      exact Segment.isProper_push (Segment.isProper_of_ofExpr? hsegment hsource) trivial
  | nothing => cases hplan

end Coverage

namespace Pipeline

/-- The pipeline is read back from its document, and is written as the same document again. -/
structure ReadsBack (pipeline : Pipeline) : Prop where
  read : ofJson? (toJson pipeline) = some pipeline
  written : ∀ other, ofJson? (toJson pipeline) = some other → toJson other = toJson pipeline

theorem readsBack_iff {pipeline : Pipeline} : ReadsBack pipeline ↔ IsProper pipeline := by
  refine ⟨fun h => isProper_of_ofJson? h.read, fun h => ⟨ofJson?_toJson h, fun other hother => ?_⟩⟩
  cases (ofJson?_toJson h).symm.trans hother
  rfl

/-- A pipeline reads back exactly if its objects have distinct fields and no accumulator has the
name of the key. That is so for what is read of any document, and for what any built expression
is translated to, be it as a whole or in part. -/
theorem readsBack_of_any_origin :
    (∀ pipeline, ReadsBack pipeline ↔ IsProper pipeline) ∧
      (∀ document pipeline, ofJson? document = some pipeline → ReadsBack pipeline) ∧
      ∀ view view' schema e coverage plan, Expr.Built view e →
        Coverage.ofExpr view' schema e = .ok coverage → coverage.plan? = some plan →
          ReadsBack plan.pipeline := by
  refine ⟨fun pipeline => readsBack_iff, fun document pipeline h => ?_, ?_⟩
  · exact readsBack_iff.2 (isProper_of_ofJson? h)
  · intro view view' schema e coverage plan hbuilt hcoverage hplan
    have hproper : e.Proper := hbuilt.carriesType_and_proper.2
    exact readsBack_iff.2 (Coverage.isProper_of_ofExpr hcoverage hproper hplan)

/-- Tasks by whether they are done, with the number of each. -/
def tally : Pipeline :=
  [.filter (.any [.all [], .compare "done" .notEqual .null]),
    .group
      { key := some (.object [("done", .merge [.root, .literal (.object [("x", .null)])])])
        accumulators := [("n", .count none), ("last", .max (.field "at"))] },
    .group { key := none, accumulators := [] }]

/-- A pipeline with empty conditions, objects in objects and a count of everything reads back,
and so does the plan that counts the tasks. -/
theorem readsBack_tally :
    IsProper tally ∧ ReadsBack tally ∧
      ∃ e plan, Expr.Built Datum.unseen e ∧
        Coverage.ofExpr Datum.unseen Shape.tasks.schema e = .ok (.full plan) ∧
          plan.pipeline = [.count "value"] ∧ ReadsBack plan.pipeline := by
  obtain ⟨reads, -, translated⟩ := readsBack_of_any_origin
  have hkey : (Operand.object
      [("done", .merge [.root, .literal (.object [("x", .null)])])]).IsProper :=
    .object (by decide) (by simp [Operand.IsProper.merge, Operand.IsProper.root,
      Operand.IsProper.literal])
  have hproper : IsProper tally := by
    simp only [tally, isProper_cons, isProper_nil, and_true]
    refine ⟨trivial, ⟨by rintro _ ⟨⟩; exact hkey, by decide, ?_⟩, ⟨by rintro _ ⟨⟩, by decide,
      by simp⟩⟩
    simp [Accumulator.IsProper, Accumulator.operand?, Operand.IsProper.field]
  have counted : Expr.mkAggregate Datum.unseen .len (.allItems Shape.tasks.schema) none =
    .ok (.aggregate .len (.allItems Shape.tasks.schema) none .int) := rfl
  have hbuilt : Expr.Built Datum.unseen
      (.aggregate .len (.allItems Shape.tasks.schema) none .int) :=
    .aggregate (.input _) (by simp) counted
  exact ⟨hproper, (reads tally).2 hproper, _, _, hbuilt, rfl, rfl,
    translated _ Datum.unseen _ _ _ _ hbuilt rfl rfl⟩

end Pipeline

end RecordAlgebra
