import RecordAlgebra.Proofs.Plan.Conforming

/-!
# Pipelines keep to the shapes that are tracked

Beside the stages for an expression the shape of the documents after them is kept, and what is
decided for later stages relies on it. One stage after the other, documents of the shape become
documents of the next one. As long as the shape is the one of stored documents, stages only
select from them, so that no document is altered and none occurs more often than it is stored.
-/

namespace RecordAlgebra

open Pipeline (Operand Accumulator Grouping)

namespace Pipeline

theorem Stage.select_sublist {condition : Condition} {documents outputs : List Json}
    (h : select condition documents = .ok outputs) : outputs.Sublist documents := by
  induction documents generalizing outputs with
  | nil =>
      cases h
      exact .slnil
  | cons document rest ih =>
      obtain ⟨selected, -, h⟩ := bind_ok_iff.1 h
      obtain ⟨others, hothers, h⟩ := bind_ok_iff.1 h
      cases selected <;> cases h
      · exact (ih hothers).cons document
      · exact (ih hothers).cons_cons document

section Sorting

variable {directions : List Direction} {row : List Value × Json}
  {rows sorted done : List (List Value × Json)}

theorem insertRow_perm (h : insertRow directions row rows = .ok sorted) :
    sorted.Perm (row :: rows) := by
  induction rows generalizing sorted with
  | nil =>
      cases h
      exact .refl _
  | cons last rest ih =>
      obtain ⟨order, -, h⟩ := bind_ok_iff.1 h
      split at h
      · obtain ⟨inserted, hinserted, h⟩ := bind_ok_iff.1 h
        cases h
        exact ((ih hinserted).cons last).trans (.swap row last rest)
      · cases h
        exact .refl _

theorem foldlM_insertRow_perm
    (h : rows.foldlM (fun sorted row => insertRow directions row sorted) done = .ok sorted) :
    sorted.Perm (rows ++ done) := by
  induction rows generalizing done with
  | nil =>
      cases h
      exact .refl _
  | cons row rest ih =>
      rw [List.foldlM_cons] at h
      obtain ⟨between, hbetween, h⟩ := bind_ok_iff.1 h
      exact (ih h).trans (((insertRow_perm hbetween).append_left rest).trans List.perm_middle)

/-- Sorted documents are the same documents. -/
theorem sortDocuments_perm {keys : Fields Direction} {documents outputs : List Json}
    (h : sortDocuments keys documents = .ok outputs) : outputs.Perm documents := by
  obtain ⟨sorted, hsorted, h⟩ := bind_ok_iff.1 h
  cases h
  refine (List.reverse_perm _).trans (((foldlM_insertRow_perm hsorted).map _).trans ?_)
  rw [List.append_nil, List.map_map]
  exact .of_eq (List.map_id documents)

end Sorting

namespace Grouping

variable {α : Type} {keyed : List (Value.Key × α)} {group : Value.Key × List α}

/-- A group has the key of one of its members, and no members from elsewhere. -/
theorem mem_partition (h : group ∈ partition keyed) :
    (∃ entry ∈ keyed, entry.1 = group.1) ∧
      ∀ member ∈ group.2, ∃ entry ∈ keyed, entry.2 = member := by
  induction keyed using partition.induct with
  | case1 =>
      rw [partition] at h
      cases h
  | case2 key first rest ih =>
      rw [partition] at h
      rcases List.mem_cons.1 h with rfl | h
      · refine ⟨⟨(key, first), List.mem_cons_self, rfl⟩, fun member hmember => ?_⟩
        rcases List.mem_cons.1 hmember with rfl | hmember
        · exact ⟨(key, member), List.mem_cons_self, rfl⟩
        · obtain ⟨entry, hentry, rfl⟩ := List.mem_map.1 hmember
          exact ⟨entry, List.mem_cons_of_mem _ (List.mem_filter.1 hentry).1, rfl⟩
      · have hmem {entry : Value.Key × α} (hentry : entry ∈ withoutKey key rest) :
            entry ∈ (key, first) :: rest := List.mem_cons_of_mem _ (List.mem_filter.1 hentry).1
        obtain ⟨⟨entry, hentry, hkey⟩, hmembers⟩ := ih h
        refine ⟨⟨entry, hmem hentry, hkey⟩, fun member hmember => ?_⟩
        obtain ⟨other, hother, rfl⟩ := hmembers member hmember
        exact ⟨other, hmem hother, rfl⟩

theorem keyOf_conforms {operand : Operand} {accumulators : Fields Accumulator} {document : Json}
    {t : DataType} (h : operand.ConformsFor document t) {key : Value.Key}
    (hkey : keyOf { key := some operand, accumulators } document = .ok key) :
    key.value.Conforms t := by
  obtain ⟨v, hv, hkey⟩ := bind_ok_iff.1 hkey
  obtain ⟨digest, -, hkey⟩ := bind_ok_iff.1 hkey
  cases hkey
  exact h v hv

end Grouping

end Pipeline

namespace Shape

variable {shape : Shape} {t : DataType} {operand : Operand} {key total : Expr}

theorem groupKey?_conforms (h : shape.groupKey? key = some (operand, t)) {document : Json}
    (hdocument : document.Conforms shape.documentType) : operand.ConformsFor document t := by
  rcases groupKey?_cases h with ⟨name, -, rfl, ht⟩ | ⟨-, rfl, -, hplain, rfl⟩
  · exact field_conforms hdocument (Option.filter_eq_some_iff.1 ht).1
  · obtain ⟨s, rfl, hs⟩ := exists_scalar_of_isPlain hplain
    rintro _ ⟨⟩
    exact Document.conforms_toValue hdocument hs

/-- What is presented for groups of documents of the shape. -/
theorem presented_conforms {result : GroupResult} (hkey : shape.groupKey? key = some (operand, t))
    (hresult : shape.groupResult? total = some result) (hproper : total.Proper)
    {documents summaries : List Json}
    (hdocuments : ∀ document ∈ documents, document.Conforms shape.documentType)
    (hsummaries : Grouping.run { key := some operand, accumulators := result.accumulators }
      documents = .ok summaries) :
    ∀ summary ∈ summaries, ∀ output, (Operand.object
      [(Expr.groupKeyField, .field Pipeline.groupIdField),
        (Expr.groupValueField, result.operand)]).document summary = .ok output →
      output.Conforms (ofGroups t result.type).documentType := by
  obtain ⟨keys, hkeys, hsummaries⟩ := Grouping.run_ok_iff.1 hsummaries
  intro summary hsummary output houtput
  obtain ⟨group, hgroup, hmade⟩ := exists_mem_of_forall₂ (mapM_eq_some_iff.1 hsummaries) hsummary
  -- It matters nowhere which documents are put together, only that they are from the input.
  obtain ⟨⟨entry, hentry, hsame⟩, hmembers⟩ := Grouping.mem_partition hgroup
  obtain ⟨⟨found, hfound, hread⟩, hholds⟩ := summary?_holds hmade (names_groupResult? hresult)
  have hconforms : group.1.value.Conforms t := by
    obtain ⟨document, hdocument, hkeyed⟩ :=
      exists_mem_of_forall₂ (mapM_ok_iff.1 hkeys) (List.of_mem_zip hentry).1
    rw [← hsame]
    exact Grouping.keyOf_conforms (groupKey?_conforms hkey (hdocuments document hdocument)) hkeyed
  have hgroupKey : (Operand.field Pipeline.groupIdField).ConformsFor summary t := by
    rintro _ ⟨⟩
    rw [hread]
    exact Document.conforms_stored hconforms hfound
  have hvalue : result.operand.ConformsFor summary result.type := by
    refine groupResult?_conforms (fun member hmember => ?_) hresult hholds hproper
    obtain ⟨entry, hentry, rfl⟩ := hmembers member hmember
    exact hdocuments _ (List.of_mem_zip hentry).2
  have hdistinct : (Fields.names
      [(Expr.groupKeyField, t), (Expr.groupValueField, result.type)]).Nodup :=
    show [Expr.groupKeyField, Expr.groupValueField].Nodup by decide
  exact Operand.document_conforms
    (Operand.object_conforms hdistinct (.cons hgroupKey (.cons hvalue .nil))) houtput

end Shape

namespace Expr

/-- The sequence whose elements the stages for this expression take. -/
def source? : Expr → Option Expr
  | .filter source _ | .map source _ _ | .sort source _ | .slice source _ _
  | .groupBy source _ _ _ => some source
  | _ => none

/-- The first expression is the second one, its source, or the source of its source and so on. -/
inductive Feeds (part : Expr) : Expr → Prop
  | refl : Feeds part part
  | source {e source : Expr} : e.source? = some source → Feeds part source → Feeds part e

theorem mem_children_of_source? {e source : Expr} (h : e.source? = some source) :
    (source, ChildScope.same) ∈ e.children := by
  cases e <;> cases h <;> simp [children]

theorem Proper.feeds {part e : Expr} (hpart : part.Feeds e) (h : e.Proper) : part.Proper := by
  induction hpart with
  | refl => exact h
  | source hsource _ ih => exact ih (h.part (mem_children_of_source? hsource))

end Expr

namespace Segment

variable {segment next : Segment} {documents outputs : List Json}

/-- The stages that the next segment has in addition make documents of its shape of those of the
other one. If its documents are stored ones, they are selected from the others. -/
def Keeps (segment next : Segment) : Prop :=
  ∃ stages, next.pipeline = segment.pipeline ++ stages ∧ ∀ documents outputs,
    (∀ document ∈ documents, document.Conforms segment.shape.documentType) →
      Pipeline.run stages documents = .ok outputs →
        (∀ output ∈ outputs, output.Conforms next.shape.documentType) ∧
          ∀ type, next.shape = .stored type →
            segment.shape = .stored type ∧ outputs.Subperm documents

theorem Keeps.refl (segment : Segment) : segment.Keeps segment := by
  refine ⟨[], (List.append_nil _).symm, fun documents outputs hdocuments hrun => ?_⟩
  cases hrun
  exact ⟨hdocuments, fun type htype => ⟨htype, .refl _⟩⟩

theorem Keeps.trans {last : Segment} (h : segment.Keeps next) (hnext : next.Keeps last) :
    segment.Keeps last := by
  obtain ⟨first, hfirst, hkeeps⟩ := h
  obtain ⟨others, hothers, hkeeps'⟩ := hnext
  refine ⟨first ++ others, by rw [hothers, hfirst, List.append_assoc], ?_⟩
  intro documents outputs hdocuments hrun
  obtain ⟨between, hbetween, hrun⟩ := run_append.1 hrun
  obtain ⟨hconform, hselected⟩ := hkeeps documents between hdocuments hbetween
  obtain ⟨hconform', hselected'⟩ := hkeeps' between outputs hconform hrun
  refine ⟨hconform', fun type htype => ?_⟩
  obtain ⟨hstored, hsub⟩ := hselected' type htype
  exact ⟨(hselected type hstored).1, hsub.trans (hselected type hstored).2⟩

/-- A stage that selects documents or puts them into another order. -/
theorem push_keeps {stage : Pipeline.Stage}
    (h : ∀ documents outputs, stage.run documents = .ok outputs → outputs.Subperm documents) :
    segment.Keeps (segment.push stage) := by
  refine ⟨[stage], rfl, fun documents outputs hdocuments hrun => ?_⟩
  rw [Plan.run_single] at hrun
  have hsub := h documents outputs hrun
  exact ⟨fun output houtput => hdocuments output (hsub.subset houtput),
    fun type htype => ⟨htype, hsub⟩⟩

/-- A stage that makes a document of each document. -/
theorem mapM_keeps {stage : Pipeline.Stage} {f : Json → Except Error Json}
    (hpipeline : next.pipeline = segment.pipeline ++ [stage])
    (hrun : ∀ documents, stage.run documents = documents.mapM f)
    (hshape : ∀ type, next.shape ≠ .stored type)
    (h : ∀ document output, document.Conforms segment.shape.documentType →
      f document = .ok output → output.Conforms next.shape.documentType) : segment.Keeps next := by
  refine ⟨[stage], hpipeline, fun documents outputs hdocuments houtputs => ?_⟩
  rw [Plan.run_single, hrun, mapM_ok_iff] at houtputs
  refine ⟨fun output houtput => ?_, fun type htype => absurd htype (hshape type)⟩
  obtain ⟨document, hdocument, hmade⟩ := exists_mem_of_forall₂ houtputs houtput
  exact h document output (hdocuments document hdocument) hmade

theorem filter_keeps {predicate : Expr} (h : segment.filter? predicate = some next) :
    segment.Keeps next := by
  obtain ⟨condition, -, ⟨⟩⟩ := Option.bind_eq_some_iff.1 h
  exact push_keeps fun _ _ hrun => (Pipeline.Stage.select_sublist hrun).subperm

theorem sort_keeps {keys : List (Expr × Direction)} (h : segment.sort? keys = some next) :
    segment.Keeps next := by
  obtain ⟨columns, -, ⟨⟩⟩ := Option.bind_eq_some_iff.1 h
  exact push_keeps fun _ _ hrun => (Pipeline.sortDocuments_perm hrun).subperm

theorem slice_keeps (segment : Segment) (start : Nat) (stop : Option Nat) :
    segment.Keeps (segment.slice start stop) := by
  have hskip : segment.Keeps (if 0 < start then segment.push (.skip start) else segment) := by
    split
    · refine push_keeps fun documents outputs hrun => ?_
      cases hrun
      exact (List.drop_sublist _ _).subperm
    · exact .refl segment
  cases stop with
  | none => exact hskip
  | some stop =>
      refine hskip.trans (push_keeps fun documents outputs hrun => ?_)
      cases hrun
      exact (List.take_sublist _ _).subperm

theorem map_keeps {projection : Expr} (h : segment.map? projection = some next)
    (hproper : projection.Proper) : segment.Keeps next := by
  rcases map?_cases h with ⟨-, rfl⟩ | ⟨stage, operand, t, hoperand, hpipeline, hshape, hrun⟩ |
    ⟨left, fields, type, type', whole, operands, types, rfl, -, hwhole, hoperands, hpipeline,
      hshape⟩
  · exact .refl _
  · refine mapM_keeps hpipeline hrun ?_ fun document output hdocument hmade => ?_
    · rw [hshape]
      cases t <;> nofun
    · rw [hshape, Shape.documentType_ofType]
      exact Operand.document_conforms (hoperand.conforms hdocument hproper) hmade
  · refine mapM_keeps (f := Pipeline.extend operands) hpipeline (fun _ => rfl) ?_
      fun document output hdocument hmade => ?_
    · rw [hshape]
      nofun
    · have hrecord : (Expr.record fields type).Proper := hproper.part
        (show (Expr.record fields type, ChildScope.same) ∈ _ by simp [Expr.children])
      rw [hshape]
      refine Shape.extend_conforms hdocument hwhole
        (hoperands.conform hdocument fun field hfield => ?_) hmade
      exact hrecord.part
        (show (field.2, ChildScope.same) ∈ _ from List.mem_map.2 ⟨field, hfield, rfl⟩)

theorem group_keeps {key total : Expr} (h : segment.group? key total = some next)
    (hproper : total.Proper) : segment.Keeps next := by
  obtain ⟨operand, t, result, hkey, hresult, hpipeline, hshape⟩ := group?_eq_some h
  refine ⟨_, hpipeline, fun documents outputs hdocuments hrun => ?_⟩
  obtain ⟨summaries, hsummaries, hrun⟩ := run_append.1
    (show Pipeline.run ([.group _] ++ [.project _]) documents = .ok outputs from hrun)
  rw [Plan.run_single] at hsummaries hrun
  rw [hshape]
  refine ⟨fun output houtput => ?_, nofun⟩
  obtain ⟨summary, hsummary, hmade⟩ := exists_mem_of_forall₂ (mapM_ok_iff.1 hrun) houtput
  exact Shape.presented_conforms hkey hresult hproper hdocuments hsummaries summary hsummary
    output hmade

section Tracking

variable {schema : Schema} {e part source : Expr}

/-- One step of the translation: the stages for an expression follow those for its source. -/
theorem ofExpr?_keeps (h : ofExpr? schema e = some segment) (hproper : e.Proper)
    (hsource : e.source? = some source) :
    ∃ between, ofExpr? schema source = some between ∧ between.Keeps segment := by
  have nested {part : Expr} (hpart : (part, .nested) ∈ e.children) : part.Proper :=
    hproper.part hpart
  cases e with
  | filter source predicate =>
      cases hsource
      obtain ⟨between, hbetween, h⟩ := Option.bind_eq_some_iff.1 h
      exact ⟨between, hbetween, filter_keeps h⟩
  | map source projection type =>
      cases hsource
      obtain ⟨between, hbetween, h⟩ := Option.bind_eq_some_iff.1 h
      exact ⟨between, hbetween, map_keeps h (nested (by simp [Expr.children]))⟩
  | sort source keys =>
      cases hsource
      obtain ⟨between, hbetween, h⟩ := Option.bind_eq_some_iff.1 h
      exact ⟨between, hbetween, sort_keeps h⟩
  | slice source start stop =>
      cases hsource
      obtain ⟨between, hbetween, ⟨⟩⟩ := Option.bind_eq_some_iff.1 h
      exact ⟨between, hbetween, slice_keeps between start stop⟩
  | groupBy source key total type =>
      cases hsource
      obtain ⟨between, hbetween, h⟩ := Option.bind_eq_some_iff.1 h
      exact ⟨between, hbetween, group_keeps h (nested (by simp [Expr.children]))⟩
  | _ => cases hsource

theorem ofExpr?_of_no_source (h : ofExpr? schema e = some segment) (hsource : e.source? = none) :
    segment = .ofSchema schema := by
  cases e with
  | context depth type =>
      obtain ⟨-, ⟨⟩⟩ := Option.ite_none_right_eq_some.1 h
      rfl
  | filter | map | sort | slice | groupBy => cases hsource
  | _ => cases h

/-- All stages for an expression together, by one step after the other. -/
theorem ofSchema_keeps (h : ofExpr? schema e = some segment) (hproper : e.Proper) :
    (ofSchema schema).Keeps segment := by
  induction e using Expr.childInduction generalizing segment with
  | step e ih =>
      cases hsource : e.source? with
      | none =>
          obtain rfl := ofExpr?_of_no_source h hsource
          exact .refl _
      | some source =>
          obtain ⟨between, hbetween, hkeeps⟩ := ofExpr?_keeps h hproper hsource
          have hmem := Expr.mem_children_of_source? hsource
          exact (ih _ hmem hbetween (hproper.part hmem)).trans hkeeps

/-- The stages for an expression begin with those for the sequences that feed it. -/
theorem exists_of_feeds (hpart : part.Feeds e) (h : ofExpr? schema e = some segment)
    (hproper : e.Proper) :
    ∃ between rest, ofExpr? schema part = some between ∧
      segment.pipeline = between.pipeline ++ rest := by
  induction hpart generalizing segment with
  | refl => exact ⟨segment, [], h, (List.append_nil _).symm⟩
  | source hsource _ ih =>
      obtain ⟨between, hbetween, stages, hstages, -⟩ := ofExpr?_keeps h hproper hsource
      obtain ⟨first, rest, hfirst, hrest⟩ :=
        ih hbetween (hproper.part (Expr.mem_children_of_source? hsource))
      exact ⟨first, rest ++ stages, hfirst, by rw [hstages, hrest, List.append_assoc]⟩

/-- Whatever sequence feeds a translated expression, the pipeline begins with the stages for that
sequence. If they do not fail for documents of the schema, they give documents of the shape that
is tracked for it, and a selection of the documents as long as it is the shape of stored ones. -/
theorem pipeline_keeps_to_shapes (h : ofExpr? schema e = some segment) (hproper : e.Proper)
    (hpart : part.Feeds e)
    (hdocuments : ∀ document ∈ documents, document.Conforms (Shape.ofSchema schema).documentType) :
    ∃ between rest, ofExpr? schema part = some between ∧
      segment.pipeline = between.pipeline ++ rest ∧
        ∀ outputs, between.pipeline.run documents = .ok outputs →
          (∀ output ∈ outputs, output.Conforms between.shape.documentType) ∧
            ∀ type, between.shape = .stored type → outputs.Subperm documents := by
  obtain ⟨between, rest, hbetween, hrest⟩ := exists_of_feeds hpart h hproper
  refine ⟨between, rest, hbetween, hrest, fun outputs hrun => ?_⟩
  obtain ⟨stages, hstages, hkeeps⟩ := ofSchema_keeps hbetween (.feeds hpart hproper)
  obtain rfl : between.pipeline = stages := hstages
  obtain ⟨hconform, hselected⟩ := hkeeps documents outputs hdocuments hrun
  exact ⟨hconform, fun type htype => (hselected type htype).2⟩

/-- The sum of no prices at all is an integer, which conforms to the fractional sum that is
tracked for the group. -/
theorem pipeline_keeps_to_shapes_revenue :
    let schema : Schema :=
      { name := "Sale", properties := [⟨"shop", .text, false⟩, ⟨"price", .float, false⟩],
        distinct := by decide }
    let revenue : Expr := .groupBy
      (.filter .element (.comparison .notEqual (.field .element "shop" .any) (.literal (.text ""))))
      (.field .element "shop" .any)
      (.aggregate .sum .element (some (.field .element "price" .any)) .any) .any
    ∃ segment between rest sale, ofExpr? schema (.slice revenue 0 (some 1)) = some segment ∧
      ofExpr? schema revenue = some between ∧ segment.pipeline = between.pipeline ++ rest ∧
      Document.ofRow schema [("shop", .text "North")] = .ok sale ∧
      between.pipeline.run [sale] =
        .ok [.object [("key", .text "North"), ("value", .int 0)]] ∧
      Json.Conforms (.object [("key", .text "North"), ("value", .int 0)])
        (.record [("key", .text), ("value", .float)] false) := by
  intro schema revenue
  have element : Expr.element.Proper :=
    .of_parts nofun (fun _ _ h => by cases h; exact .inl rfl) nofun
  have field (name : String) : (Expr.field .element name .any).Proper :=
    .of_parts (by simpa [Expr.children] using element) nofun nofun
  have literal : (Expr.literal (.text "")).Proper := .of_parts nofun nofun nofun
  have predicate : (Expr.comparison .notEqual (.field .element "shop" .any)
      (.literal (.text ""))).Proper :=
    .of_parts (by simp [Expr.children, field, literal]) nofun nofun
  have total : (Expr.aggregate .sum .element (some (.field .element "price" .any)) .any).Proper :=
    .of_parts (by simp [Expr.children, field, element]) nofun nofun
  have filtered : (Expr.filter .element (.comparison .notEqual (.field .element "shop" .any)
      (.literal (.text "")))).Proper :=
    .of_parts (by simp [Expr.children, element, predicate]) nofun nofun
  have grouped : revenue.Proper :=
    .of_parts (by simp [revenue, Expr.children, filtered, field, total]) nofun nofun
  have first : (Expr.slice revenue 0 (some 1)).Proper :=
    .of_parts (by simpa [Expr.children] using grouped) nofun nofun
  let sale : Json := .object [("shop", .text "North"), ("price", .null)]
  have hstored : Document.ofRow schema [("shop", .text "North")] = .ok sale := rfl
  have hconforms : ∀ document ∈ [sale], document.Conforms (Shape.ofSchema schema).documentType := by
    rintro _ (_ | ⟨_, ⟨⟩⟩)
    exact Document.conforms_ofRow (by decide) hstored
  obtain ⟨between, rest, hbetween, hrest, hkeeps⟩ := pipeline_keeps_to_shapes
    (show ofExpr? schema (.slice revenue 0 (some 1)) = some _ from rfl) first
    (.source rfl .refl) hconforms
  have hrun : between.pipeline.run [sale] =
      .ok [.object [("key", .text "North"), ("value", .int 0)]] := by
    cases hbetween
    rfl
  have hkept := (hkeeps _ hrun).1 _ List.mem_cons_self
  refine ⟨_, between, rest, sale, rfl, hbetween, hrest, hstored, hrun, ?_⟩
  cases hbetween
  exact hkept

end Tracking

end Segment

end RecordAlgebra
