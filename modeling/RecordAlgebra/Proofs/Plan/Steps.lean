import RecordAlgebra.Proofs.Plan.Aggregates
import RecordAlgebra.Proofs.Plan.Splits

/-!
# Stages and the expressions they are made of

The documents between two stages determine, one by one and in order, the elements of the
sequence that the translated expression means. A stage that is run keeps it so: if it does not
fail, the documents after it determine what the whole expression means. So none of filters,
projections and slices fails where its stage does not.
-/

namespace RecordAlgebra

open Datum.Elements (ofData)
open Pipeline (Operand)

namespace Shape

/-- The document stands for the datum and, unless it is stored, tells it by what it reads as. -/
def Determines (ref : SourceRef) (document : Json) (d : Datum) : Shape → Prop
  | .stored type => (stored type).Stands ref document d
  | .object type => (Document.toValue document).Tells (.ofRecordType type) d
  | .scalar type => (Document.toValue document).Tells type d

/-- The expression means a sequence without failures, whose elements the documents determine. -/
def Realizes (shape : Shape) (ref : SourceRef) (lit : Value → Datum) (scope : List Meaning)
    (documents : List Json) (e : Expr) : Prop :=
  ∃ ds, e.denote lit scope = .ok (.sequence (ofData ds)) ∧
    List.Forall₂ (shape.Determines ref) documents ds

variable {shape projected : Shape} {ref : SourceRef} {document : Json} {d : Datum} {t : DataType}
  {lit : Value → Datum} {scope : List Meaning} {documents outputs : List Json} {ds : List Datum}

theorem Determines.stands (h : shape.Determines ref document d) : shape.Stands ref document d := by
  cases shape with
  | stored type => exact h
  | object type | scalar type => exact ⟨h.fits, .inr h.bare.symm⟩

theorem determines_ofType :
    (ofType t).Determines ref document d ↔ (Document.toValue document).Tells t d := by
  cases t <;> exact .rfl

variable (projected lit scope) in
/-- If a stage makes of every document one that determines what the projection gives for the
element, the projection fails for none of them. -/
theorem mapM_determines {f : Json → Except Error Json} (projection : Expr)
    (h : List.Forall₂ (shape.Determines ref) documents ds)
    (step : ∀ document d output, shape.Determines ref document d → f document = .ok output →
      ∃ r, projection.denoteValue lit (.value d :: scope) = .ok r ∧
        projected.Determines ref output r)
    (hrun : documents.mapM f = .ok outputs) :
    ∃ rs, Datum.Elements.map (fun d => projection.denoteValue lit (.value d :: scope)) (ofData ds) =
        ofData rs ∧ List.Forall₂ (projected.Determines ref) outputs rs := by
  induction h generalizing outputs with
  | nil =>
      cases hrun
      exact ⟨[], rfl, .nil⟩
  | @cons document d documents ds hfirst _ ih =>
      rw [List.mapM_cons] at hrun
      obtain ⟨output, houtput, hrun⟩ := bind_ok_iff.1 hrun
      obtain ⟨others, hothers, hrun⟩ := bind_ok_iff.1 hrun
      cases hrun
      obtain ⟨r, hr, hdetermines⟩ := step document d output hfirst houtput
      obtain ⟨rs, hrs, hrest⟩ := ih hothers
      refine ⟨r :: rs, ?_, .cons hdetermines hrest⟩
      rw [ofData, List.map_cons, Datum.Elements.map, List.map_cons] at *
      exact congrArg₂ _ hr hrs

end Shape

namespace Datum.Elements

theorem window_ofData (start position : Nat) (left : Option Nat) (ds : List Datum) :
    window start position left (ofData ds) = ofData (match left with
      | none => ds.drop (start - position)
      | some n => (ds.drop (start - position)).take n) := by
  induction ds generalizing position left with
  | nil => cases left <;> simp [ofData, window]
  | cons d rest ih =>
      rw [ofData, List.map_cons, window]
      by_cases hdone : left = some 0
      · subst hdone
        simp [ofData]
      · rw [if_neg hdone]
        by_cases hstart : start ≤ position
        · have hnext : start - (position + 1) = 0 := by omega
          have hnow : start - position = 0 := by omega
          simp only [if_pos hstart]
          rw [show List.map Except.ok rest = ofData rest from rfl, ih, hnext, hnow]
          cases left with
          | none => rfl
          | some n =>
              cases n with
              | zero => exact absurd rfl hdone
              | succ n => rfl
        · have hnow : start - position = start - (position + 1) + 1 := by omega
          simp only [if_neg hstart]
          rw [show List.map Except.ok rest = ofData rest from rfl, ih, hnow]
          cases left <;> rfl

end Datum.Elements

namespace Expr

variable {lit : Value → Datum} {scope : List Meaning} {source : Expr}
  {elements : List Datum.Element} {ds : List Datum}

theorem denote_map {projection : Expr} {type : DataType}
    (h : source.denote lit scope = .ok (.sequence elements)) :
    (map source projection type).denote lit scope = .ok (.sequence
      (Datum.Elements.map (fun d => projection.denoteValue lit (.value d :: scope)) elements)) := by
  rw [denote, h]
  rfl

theorem denote_slice (start : Nat) (stop : Option Nat)
    (h : source.denote lit scope = .ok (.sequence (ofData ds))) :
    (slice source start stop).denote lit scope = .ok (.sequence (ofData (match stop with
      | none => ds.drop start
      | some stop => (ds.drop start).take (stop - start)))) := by
  rw [denote, h]
  show Except.ok (Result.sequence _) = _
  rw [Datum.Elements.window_ofData]
  cases stop <;> rfl

end Expr

namespace Segment

/-- The stages that the next segment has in addition make of documents for one expression
documents for another. -/
def Leads (segment next : Segment) (ref : SourceRef) (lit : Value → Datum) (scope : List Meaning)
    (e e' : Expr) : Prop :=
  ∃ stages, next.pipeline = segment.pipeline ++ stages ∧ ∀ documents outputs,
    segment.shape.Realizes ref lit scope documents e → Pipeline.run stages documents = .ok outputs →
      next.shape.Realizes ref lit scope outputs e'

variable {segment next : Segment} {ref : SourceRef} {lit : Value → Datum} {scope : List Meaning}
  {source : Expr}

theorem run_append {first others : Pipeline} {documents outputs : List Json} :
    Pipeline.run (first ++ others) documents = .ok outputs ↔
      ∃ between, first.run documents = .ok between ∧ others.run between = .ok outputs := by
  rw [Pipeline.run, List.foldlM_append, bind_ok_iff]
  rfl

theorem Leads.run {e e' : Expr} {documents outputs : List Json}
    (h : segment.Leads next ref lit scope e e')
    (hsegment : ∀ outputs, segment.pipeline.run documents = .ok outputs →
      segment.shape.Realizes ref lit scope outputs e)
    (hrun : next.pipeline.run documents = .ok outputs) :
    next.shape.Realizes ref lit scope outputs e' := by
  obtain ⟨stages, hpipeline, hstages⟩ := h
  rw [hpipeline, run_append] at hrun
  obtain ⟨between, hbetween, hrun⟩ := hrun
  exact hstages between outputs (hsegment between hbetween) hrun

theorem filter_leads {predicate : Expr} (h : segment.filter? predicate = some next)
    (hknows : predicate.Knows lit) :
    segment.Leads next ref lit scope source (.filter source predicate) := by
  obtain ⟨condition, hcondition, h⟩ := Option.bind_eq_some_iff.1 h
  cases h
  refine ⟨[.filter condition], rfl, fun documents outputs ⟨ds, hds, hdetermine⟩ hrun => ?_⟩
  have hmatches {document : Json} {d : Datum} (h : segment.shape.Determines ref document d) :
      predicate.Decided lit (.value d :: scope) ∧
        condition.holds document = .ok (predicate.isTrue lit (.value d :: scope)) :=
    (h.stands.matches hknows hcondition).decided
  obtain ⟨kept, hkept, hchosen⟩ := Shape.select_related hdetermine fun document d h =>
    (hmatches h).2
  rw [Plan.run_single] at hrun
  cases hkept.symm.trans hrun
  refine ⟨_, Expr.denote_filter hds rfl fun d hd => ?_, hchosen⟩
  obtain ⟨document, -, hdocument⟩ := exists_mem_of_forall₂ hdetermine hd
  exact ⟨(hmatches hdocument).1, rfl⟩

/-- A projection of each document by an operand. -/
theorem operand_determines {shape : Shape} {projection : Expr} {operand : Operand} {t : DataType}
    (hoperand : shape.IsOperand projection operand t) (hregular : projection.Regular lit)
    {document output : Json} {d : Datum} (h : shape.Determines ref document d)
    (hrun : operand.document document = .ok output) :
    ∃ r, projection.denoteValue lit (.value d :: scope) = .ok r ∧
      (Shape.ofType t).Determines ref output r := by
  obtain ⟨v, hv, houtput⟩ := bind_ok_iff.1 hrun
  have hcomputes : Shape.Computes lit scope document d projection operand t :=
    hoperand.computes h.stands hregular
  rw [Shape.Computes, hv] at hcomputes
  obtain ⟨r, hr, htells⟩ := Agrees.ok_left hcomputes
  exact ⟨r, hr, Shape.determines_ofType.2 (htells.stored houtput)⟩

/-- An extension of each document by operands. -/
theorem extend_determines {shape : Shape} {left : Expr} {fields : List (String × Expr)}
    {type type' : DataType} {whole : RecordType} {operands : Fields Operand}
    {types : Fields DataType} (hwhole : shape.wholeElement? = some whole)
    (hleft : left.isElement = true) (hoperands : shape.AreOperands fields operands types)
    (hregular : (Expr.merge left (.record fields type) type').Regular lit)
    {document output : Json} {d : Datum} (h : shape.Determines ref document d)
    (hrun : Pipeline.extend operands document = .ok output) :
    ∃ r, (Expr.merge left (.record fields type) type').denoteValue lit (.value d :: scope) = .ok r ∧
      Shape.Determines ref output r
        (.object { whole with fields := whole.fields.insertAll types }) := by
  have hoperand : shape.IsOperand (.merge left (.record fields type) type') _ _ :=
    Shape.isOperand_extension hwhole hleft hoperands
  have hcomputes : Shape.Computes lit scope document d _ _ _ :=
    hoperand.computes h.stands hregular
  have hrecord : (Expr.record fields type).Regular lit := hregular.part
    (show (Expr.record fields type, ChildScope.same) ∈ _ by simp [Expr.children])
  rw [Shape.Computes, Shape.eval_of_extend hwhole hoperands hrecord h.stands hrun] at hcomputes
  obtain ⟨r, hr, htells⟩ := Agrees.ok_left hcomputes
  exact ⟨r, hr, htells⟩

theorem map_leads {projection : Expr} (h : segment.map? projection = some next)
    (hregular : projection.Regular lit) (type : DataType) :
    segment.Leads next ref lit scope source (.map source projection type) := by
  rcases map?_cases h with ⟨helement, rfl⟩ |
    ⟨stage, operand, t, hoperand, hpipeline, hshape, hrun⟩ |
    ⟨left, fields, type, type', whole, operands, types, rfl, hleft, hwhole, hoperands, hpipeline,
      hshape⟩
  · refine ⟨[], (List.append_nil _).symm, fun documents outputs ⟨ds, hds, hdetermine⟩ hrun => ?_⟩
    cases hrun
    obtain ⟨contextType, rfl⟩ := Shape.eq_context_of_isElement helement
    refine ⟨ds, ?_, hdetermine⟩
    rw [Expr.denote_map hds]
    simp only [Shape.denoteValue_element]
    rw [Datum.Elements.map, ofData, List.map_map]
    rfl
  · refine ⟨[stage], hpipeline, fun documents outputs ⟨ds, hds, hdetermine⟩ hrun' => ?_⟩
    rw [Plan.run_single, hrun] at hrun'
    obtain ⟨rs, hrs, hdetermine'⟩ := Shape.mapM_determines next.shape lit scope projection
      hdetermine (fun document d output h hf => hshape ▸ operand_determines hoperand hregular h hf)
        hrun'
    exact ⟨rs, by rw [Expr.denote_map hds, hrs], hdetermine'⟩
  · refine ⟨[.addFields operands], hpipeline,
      fun documents outputs ⟨ds, hds, hdetermine⟩ hrun => ?_⟩
    rw [Plan.run_single] at hrun
    obtain ⟨rs, hrs, hdetermine'⟩ := Shape.mapM_determines next.shape lit scope _ hdetermine
      (fun document d output h hf =>
        hshape ▸ extend_determines hwhole hleft hoperands hregular h hf) hrun
    exact ⟨rs, by rw [Expr.denote_map hds, hrs], hdetermine'⟩

theorem slice_leads (start : Nat) (stop : Option Nat) :
    segment.Leads (segment.slice start stop) ref lit scope source (.slice source start stop) := by
  have hskip : ∃ stages, (if 0 < start then segment.push (.skip start) else segment).pipeline =
      segment.pipeline ++ stages ∧ ∀ documents, Pipeline.run stages documents =
        .ok (documents.drop start) := by
    by_cases hstart : 0 < start
    · exact ⟨[.skip start], by rw [if_pos hstart]; rfl, fun documents => Plan.run_single _ _⟩
    · obtain rfl : start = 0 := by omega
      exact ⟨[], (List.append_nil _).symm, fun documents => rfl⟩
  have hshape : (if 0 < start then segment.push (.skip start) else segment).shape =
      segment.shape := by
    split <;> rfl
  obtain ⟨stages, hpipeline, hstages⟩ := hskip
  cases stop with
  | none =>
      refine ⟨stages, hpipeline, fun documents outputs ⟨ds, hds, hdetermine⟩ hrun => ?_⟩
      cases (hstages documents).symm.trans hrun
      exact ⟨_, Expr.denote_slice start none hds, hshape ▸ List.forall₂_drop _ hdetermine⟩
  | some stop =>
      refine ⟨stages ++ [.limit (stop - start)], ?_,
        fun documents outputs ⟨ds, hds, hdetermine⟩ hrun => ?_⟩
      · rw [← List.append_assoc, ← hpipeline]
        rfl
      · obtain ⟨between, hbetween, hrun⟩ := run_append.1 hrun
        cases (hstages documents).symm.trans hbetween
        rw [Plan.run_single] at hrun
        cases hrun
        exact ⟨_, Expr.denote_slice start (some stop) hds,
          hshape ▸ List.forall₂_take _ (List.forall₂_drop _ hdetermine)⟩

end Segment

end RecordAlgebra
