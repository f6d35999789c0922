import RecordAlgebra.Proofs.Plan.Groups
import RecordAlgebra.Proofs.Plan.Sorts
import RecordAlgebra.Proofs.Typing.Built

/-!
# Plans of expressions

Stage by stage, the documents of a segment determine the elements of the sequence that its
expression means. So what is read off a plan that does not fail is what the expression means,
be it a sequence, the result of an aggregate, or the part of a filter that a remainder
completes. An expression whose plan does not fail therefore does not fail itself.
-/

namespace RecordAlgebra

open Datum.Elements (ofData)
open Source.Documents (Stock runPlan? create executionOf)

variable {ref : SourceRef} {w : World} {lit : Value → Datum} {e : Expr} {documents : List Json}
  {data : List Datum}

theorem Shape.Determines.readsAs {shape : Shape} {document : Json} {d : Datum}
    (h : shape.Determines ref document d) (w : World) : shape.ReadsAs ref w document d := by
  cases shape with
  | stored type => exact h.2
  | object type | scalar type => exact Value.Tells.shows h w

/-- No group of documents of single values counts its members. Nulls among them would not be
counted. -/
def Expr.CountsAlike (schema : Schema) (e : Expr) : Prop :=
  ∀ path source key total type segment, e.sameNode? path = some (.groupBy source key total type) →
    Segment.ofExpr? schema source = some segment → (∃ t, segment.shape = .scalar t) →
    ∀ part ∈ total.totals, part.countsMembers = false

theorem Expr.CountsAlike.part {schema : Schema} (h : e.CountsAlike schema) {part : Expr}
    (hpart : (part, .same) ∈ e.children) : part.CountsAlike schema := by
  obtain ⟨position, hposition⟩ := List.getElem?_of_mem hpart
  refine fun path source key total type segment hpath => h (position :: path) source key total type
    segment ?_
  rw [sameNode?, hposition]
  exact hpath

theorem Expr.CountsAlike.of_parts {schema : Schema}
    (here : ∀ source key total type segment, e = .groupBy source key total type →
      Segment.ofExpr? schema source = some segment → (∃ t, segment.shape = .scalar t) →
      ∀ part ∈ total.totals, part.countsMembers = false)
    (parts : ∀ part, (part, .same) ∈ e.children → part.CountsAlike schema) :
    e.CountsAlike schema := by
  intro path source key total type segment hpath
  cases path with
  | nil => exact here source key total type segment (Option.some.inj hpath)
  | cons position path =>
      rw [sameNode?] at hpath
      split at hpath
      · next part hpart =>
          exact parts part (List.mem_of_getElem? hpart) path source key total type segment hpath
      · cases hpath

namespace Segment

variable {segment : Segment}

/-- What the stages of a segment make of the stored documents determines what its expression
means. -/
theorem ofExpr?_realizes (h : ofExpr? ref.schema e = some segment)
    (hlengths : e.ProjectsNoLength) (hcounts : e.CountsAlike ref.schema)
    (hregular : e.Regular lit) (hstock : Stock ref documents data) {outputs : List Json}
    (hrun : segment.pipeline.run documents = .ok outputs) :
    segment.shape.Realizes ref lit [.input data] outputs e := by
  induction e using Expr.childInduction generalizing segment outputs with
  | step e ih =>
      have source {source : Expr} {between : Segment} (hsource : (source, .same) ∈ e.children)
          (h : ofExpr? ref.schema source = some between) (outputs : List Json)
          (hrun : between.pipeline.run documents = .ok outputs) :
          between.shape.Realizes ref lit [.input data] outputs source :=
        ih _ hsource h (hlengths.part hsource) (hcounts.part hsource) (hregular.part hsource) hrun
      have regular {part : Expr} (hpart : (part, .nested) ∈ e.children) : part.Regular lit :=
        hregular.part hpart
      cases e with
      | context depth type =>
          obtain ⟨rfl, h⟩ := Option.ite_none_right_eq_some.1 h
          cases h
          cases hrun
          refine ⟨data, by rw [Expr.denote]; rfl, hstock.imp fun document d hstores => ?_⟩
          exact ⟨rfl, hstores⟩
      | filter source' predicate =>
          obtain ⟨between, hbetween, h⟩ := Option.bind_eq_some_iff.1 h
          exact (filter_leads h (regular (by simp [Expr.children])).knows).run
            (source (by simp [Expr.children]) hbetween) hrun
      | map source' projection type =>
          obtain ⟨between, hbetween, h⟩ := Option.bind_eq_some_iff.1 h
          exact (map_leads h (regular (by simp [Expr.children])) type).run
            (source (by simp [Expr.children]) hbetween) hrun
      | sort source' keys =>
          obtain ⟨between, hbetween, h⟩ := Option.bind_eq_some_iff.1 h
          exact (sort_leads h).run (source (by simp [Expr.children]) hbetween) hrun
      | slice source' start stop =>
          obtain ⟨between, hbetween, h⟩ := Option.bind_eq_some_iff.1 h
          cases h
          exact (slice_leads start stop).run (source (by simp [Expr.children]) hbetween) hrun
      | groupBy source' key total type =>
          obtain ⟨between, hbetween, h⟩ := Option.bind_eq_some_iff.1 h
          have htotal : (total, .nested) ∈ (Expr.groupBy source' key total type).children := by
            simp [Expr.children]
          exact (group_leads h (hlengths.part htotal)
            (hcounts [] source' key total type between rfl hbetween) (regular htotal) type).run
            (source (by simp [Expr.children]) hbetween) hrun
      | _ => cases h

end Segment

namespace Plan

variable {plan : Plan} {output : NativeOutput}

theorem run_of_runPlan? (h : runPlan? ref.schema plan documents = some output) :
    ∃ outputs, plan.pipeline.run documents = .ok outputs := by
  rw [runPlan?] at h
  cases hrun : plan.pipeline.run documents with
  | ok outputs => exact ⟨outputs, rfl⟩
  | error error =>
      rw [hrun] at h
      cases h

/-- What is read off the plan of a sequence is the sequence. -/
theorem segment_answers {segment : Segment} (h : Segment.ofExpr? ref.schema e = some segment)
    (hlengths : e.ProjectsNoLength) (hcounts : e.CountsAlike ref.schema)
    (hregular : e.Regular lit) (hstock : Stock ref documents data)
    (hrun : runPlan? ref.schema segment.plan documents = some output) (w : World) :
    (create .live ref true).Answers lit data e w (.accepted output) := by
  obtain ⟨outputs, houtputs⟩ := run_of_runPlan? hrun
  obtain ⟨ds, hds, hdetermine⟩ := Segment.ofExpr?_realizes h hlengths hcounts hregular hstock
    houtputs
  obtain ⟨found, s, hfound, hs, hyields⟩ := Segment.runPlan?_reads (w := w) true houtputs
    (hdetermine.imp fun _ _ h => h.readsAs w)
  cases hfound.symm.trans hrun
  refine ⟨_, hds, ?_⟩
  rw [hs]
  exact hyields

/-- Later stages of a plan see what the first ones give. -/
theorem runPlan?_append {first others : Pipeline} {between : List Json}
    (h : plan.pipeline = first ++ others) (hfirst : first.run documents = .ok between) :
    runPlan? ref.schema plan documents =
      runPlan? ref.schema { plan with pipeline := others } between := by
  have hrun : plan.pipeline.run documents = others.run between := by
    rw [h, Pipeline.run, List.foldlM_append]
    show (first.run documents >>= others.run) = _
    rw [hfirst]
    rfl
  rw [runPlan?, hrun]
  rfl

/-- What is read off the plan of an aggregate is its result. -/
theorem aggregate_answers {segment : Segment} {source : Expr} {op : AggregateOp}
    {projection : Option Expr} {type : DataType}
    (hsegment : Segment.ofExpr? ref.schema source = some segment)
    (hplan : aggregate? segment op projection = some plan)
    (hlengths : (Expr.aggregate op source projection type).ProjectsNoLength)
    (hcounts : (Expr.aggregate op source projection type).CountsAlike ref.schema)
    (hregular : (Expr.aggregate op source projection type).Regular lit)
    (hstock : Stock ref documents data)
    (hrun : runPlan? ref.schema plan documents = some output) (w : World) :
    (create .live ref true).Answers lit data (.aggregate op source projection type) w
      (.accepted output) := by
  have hsource : (source, ChildScope.same) ∈
      (Expr.aggregate op source projection type).children := by simp [Expr.children]
  have hprojection : ∀ e ∈ projection, e.Regular lit := by
    rintro e ⟨⟩
    exact hregular.part (show (e, ChildScope.nested) ∈ _ by simp [Expr.children])
  have hlen : op = .len → projection = none := fun hop =>
    hlengths [] source projection type (by rw [hop]; rfl)
  have reports {between : List Json} {ds : List Datum}
      (h : List.Forall₂ (segment.shape.Stands ref) between ds) :=
    aggregate_reports hplan hlen lit [.input data] hprojection h
  obtain ⟨stage, hpipeline, -⟩ := reports .nil
  obtain ⟨outputs, houtputs⟩ := run_of_runPlan? hrun
  obtain ⟨between, hbetween, -⟩ := Segment.run_append.1 (hpipeline ▸ houtputs)
  obtain ⟨ds, hds, hdetermine⟩ := Segment.ofExpr?_realizes hsegment (hlengths.part hsource)
    (hcounts.part hsource) (hregular.part hsource) hstock hbetween
  obtain ⟨stage', hpipeline', hreports⟩ := reports (hdetermine.imp fun _ _ h => h.stands)
  rw [← runPlan?_append hpipeline' hbetween, hrun] at hreports
  cases output with
  | scalar v =>
      obtain ⟨-, d, t, hmeans, hv⟩ := hreports
      exact ⟨.value d, by rw [Expr.denote_aggregate hds rfl, hmeans]; rfl, hv.shows w⟩
  | _ => exact hreports.elim

/-- What is read off the plan of an expression is what it means. -/
theorem ofExpr?_answers (hplan : ofExpr? ref.schema e = some plan)
    (hlengths : e.ProjectsNoLength) (hcounts : e.CountsAlike ref.schema)
    (hregular : e.Regular lit) (hstock : Stock ref documents data)
    (hrun : runPlan? ref.schema plan documents = some output) (w : World) :
    (create .live ref true).Answers lit data e w (.accepted output) := by
  have sequence (h : (Segment.ofExpr? ref.schema e).map Segment.plan = some plan) :
      (create .live ref true).Answers lit data e w (.accepted output) := by
    obtain ⟨segment, hsegment, rfl⟩ := Option.map_eq_some_iff.1 h
    exact segment_answers hsegment hlengths hcounts hregular hstock hrun w
  cases e with
  | aggregate op source projection type =>
      obtain ⟨segment, hsegment, hplan⟩ := Option.bind_eq_some_iff.1 hplan
      exact aggregate_answers hsegment hplan hlengths hcounts hregular hstock hrun w
  | _ => exact sequence hplan

end Plan

namespace Coverage

variable {view : ItemRef → String} {plan : Plan} {remainder : Expr} {output : NativeOutput}

/-- The plan that is run for an expression, if there is any. -/
def plan? : Coverage → Option Plan
  | .full plan | .partly plan _ => some plan
  | .nothing => none

theorem split_ne_full {segment : Segment} {conjuncts : List Expr} :
    split view segment conjuncts ≠ .ok (.full plan) := by
  intro h
  simp only [split] at h
  split at h
  · cases h
  · obtain ⟨_, -, h⟩ := bind_ok_iff.1 h
    obtain ⟨_, -, h⟩ := bind_ok_iff.1 h
    cases h

theorem ofExpr_eq_full {schema : Schema} (h : ofExpr view schema e = .ok (.full plan)) :
    Plan.ofExpr? schema e = some plan := by
  unfold ofExpr at h
  split at h
  · next hplan =>
      cases h
      exact hplan
  · split at h
    · split at h
      · exact absurd h split_ne_full
      · cases h
    · cases h

section Split

variable {segment : Segment} {source rest : Expr} {conjuncts : List Expr} {ds : List Datum}
  (hknows : ∀ conjunct ∈ conjuncts, conjunct.Knows lit)
  (hinfallible : segment.shape.areInfallible (segment.shape.remaining conjuncts) = true)
  (hstands : ∀ d ∈ ds, ∃ document, segment.shape.Stands ref document d)

include hknows hinfallible hstands

/-- A filter leaves what the remainder leaves of what the conditions select. -/
theorem denote_conjunction {scope : List Meaning}
    (hsource : source.denote lit scope = .ok (.sequence (ofData ds))) :
    (Expr.filter source (.boolean .and conjuncts)).denote lit scope = .ok (.sequence (ofData
      ((ds.filter (segment.shape.selects lit conjuncts)).filter
        (segment.shape.leaves lit conjuncts)))) := by
  rw [List.filter_filter]
  refine Expr.denote_filter hsource rfl fun d hd => ?_
  obtain ⟨document, hdocument⟩ := hstands d hd
  rw [Bool.and_comm]
  exact hdocument.conjunction_decided hknows hinfallible _

theorem denote_remainder
    (hrest : conjunction view (segment.shape.remaining conjuncts) = .ok rest) :
    (Expr.filter .element rest).denote lit [.input ds] =
      .ok (.sequence (ofData (ds.filter (segment.shape.leaves lit conjuncts)))) := by
  refine Expr.denote_filter (show Expr.element.denote _ _ = .ok _ from rfl) rfl fun d hd => ?_
  obtain ⟨document, hdocument⟩ := hstands d hd
  obtain ⟨hremaining, hleaves⟩ := hdocument.remaining_decided hknows hinfallible _
  obtain ⟨hdecided, htrue⟩ := conjunction_decided hrest hremaining
  exact ⟨hdecided, htrue.trans hleaves⟩

end Split

/-- What is read off a plan for a part of a filter is an input over which the remainder means
what the filter means, which does not fail. -/
theorem ofExpr_answers_partly
    (hcoverage : ofExpr view ref.schema e = .ok (.partly plan remainder))
    (hlengths : e.ProjectsNoLength) (hcounts : e.CountsAlike ref.schema) (hproper : e.Proper)
    (literals : ∀ v, e.HasLiteral v → w.Shows v (lit v)) (hstock : Stock ref documents data)
    (hrun : runPlan? ref.schema plan documents = some output) :
    (create .live ref true).Answers lit data e w (.partly output remainder) ∧
      ∃ r, e.denote lit [.input data] = .ok r := by
  obtain ⟨source, conjuncts, segment, rfl, hsegment, hsplit⟩ := ofExpr_eq_partly hcoverage
  obtain ⟨rest, rfl, hinfallible, hrest, rfl⟩ := split_eq_partly hsplit
  have hregular : (Expr.filter source (.boolean .and conjuncts)).Regular lit :=
    ⟨Expr.knows_of_shows literals, hproper⟩
  have hsource : (source, ChildScope.same) ∈
      (Expr.filter source (.boolean .and conjuncts)).children := List.mem_cons_self
  have hknows : ∀ conjunct ∈ conjuncts, conjunct.Knows lit := fun conjunct hconjunct =>
    (hregular.knows.part
      (show (Expr.boolean .and conjuncts, ChildScope.nested) ∈ _ by simp [Expr.children])).part
      (List.mem_map.2 ⟨conjunct, hconjunct, rfl⟩)
  obtain ⟨outputs, houtputs⟩ := Plan.run_of_runPlan? hrun
  obtain ⟨between, hbetween, hadded⟩ := Segment.run_append.1 houtputs
  obtain ⟨ds, hds, hdetermine⟩ := Segment.ofExpr?_realizes hsegment (hlengths.part hsource)
    (hcounts.part hsource) (hregular.part hsource) hstock hbetween
  obtain ⟨kept, hkept, hchosen⟩ := Shape.select_related hdetermine
    fun document d h => (h.stands.translated_decided hknows []).2.2
  rw [Plan.run_single] at hadded
  cases hkept.symm.trans hadded
  obtain ⟨found, s, hfound, hs, hyields⟩ := Segment.runPlan?_reads (w := w) true houtputs
    (hchosen.imp fun _ _ h => h.readsAs w)
  cases hfound.symm.trans hrun
  have hstands : ∀ d ∈ ds, ∃ document, segment.shape.Stands ref document d := fun d hd => by
    obtain ⟨document, -, hdocument⟩ := exists_mem_of_forall₂ hdetermine hd
    exact ⟨document, hdocument.stands⟩
  have hwhole := denote_conjunction hknows hinfallible hstands hds
  have hselected : ∀ d ∈ ds.filter (segment.shape.selects lit conjuncts),
      ∃ document, segment.shape.Stands ref document d :=
    fun d hd => hstands d (List.mem_filter.1 hd).1
  have hremainder := denote_remainder hknows hinfallible hselected hrest
  refine ⟨?_, _, hwhole⟩
  have hbinds : Source.BindsAs w ((create .live ref true).output output)
      (.input (ds.filter (segment.shape.selects lit conjuncts))) := by
    rw [hs]
    exact hyields
  exact Source.answers_partly hbinds (fun v hv => literals v (hasLiteral_of_remainder hrest hv))
    (hremainder.trans hwhole.symm)

/-- How a store responds to an expression agrees with what the expression means. -/
theorem execution_answers {coverage : Coverage}
    (hcoverage : ofExpr view ref.schema e = .ok coverage) (hlengths : e.ProjectsNoLength)
    (hcounts : e.CountsAlike ref.schema) (hproper : e.Proper)
    (literals : ∀ v, e.HasLiteral v → w.Shows v (lit v)) (hstock : Stock ref documents data) :
    (create .live ref true).Answers lit data e w (executionOf ref coverage documents) := by
  cases coverage with
  | full plan =>
      have hplan := ofExpr_eq_full hcoverage
      rw [executionOf]
      cases hrun : runPlan? ref.schema plan documents with
      | none => trivial
      | some output =>
          exact Plan.ofExpr?_answers hplan hlengths hcounts
            ⟨Expr.knows_of_shows literals, hproper⟩ hstock hrun w
  | partly plan remainder =>
      rw [executionOf]
      cases hrun : runPlan? ref.schema plan documents with
      | none => trivial
      | some output =>
          exact (ofExpr_answers_partly hcoverage hlengths hcounts hproper literals hstock hrun).1
  | nothing => trivial

end Coverage

end RecordAlgebra
