import RecordAlgebra.Proofs.Pipeline.Grouping
import RecordAlgebra.Proofs.Plan.Conditions
import RecordAlgebra.Proofs.Plan.Projections
import RecordAlgebra.Source.Documents

/-!
# Aggregates of documents

An aggregate over documents is a stage with one accumulator, or one that counts. What is read
off its output is what the aggregate of the elements gives for which the documents stand, and
nothing is read off it exactly where that fails or gives a number that no document holds.
-/

namespace RecordAlgebra

open Datum.Elements (ofData)
open Pipeline (Operand Accumulator Grouping)

namespace Datum.Elements

variable {xs : List Datum.Element} {kind : ErrorKind}

theorem fold_of_error {σ : Type} (f : σ → Datum → Except ErrorKind σ) (state : σ)
    (h : .error kind ∈ xs) : ∃ kind, fold f state xs = .error kind := by
  induction xs generalizing state with
  | nil => cases h
  | cons x xs ih =>
      cases x with
      | error first => exact ⟨first, rfl⟩
      | ok d =>
          have hrest : .error kind ∈ xs := by simpa using h
          rw [fold]
          cases f state d with
          | error first => exact ⟨first, rfl⟩
          | ok next => exact ih next hrest

/-- No aggregate passes over an error. -/
theorem aggregate_of_error (op : AggregateOp) (projected : Bool) (h : .error kind ∈ xs) :
    ∃ kind, aggregate op projected xs = .error kind := by
  have counted (skipNulls : Bool) : ∃ kind, count skipNulls xs = .error kind := by
    obtain ⟨kind, hfold⟩ := fold_of_error (fun n d => .ok (addToCount skipNulls n d)) 0 h
    exact ⟨kind, by rw [count, hfold]; rfl⟩
  have best (wanted : Ordering) : ∃ kind, best wanted xs = .error kind := by
    obtain ⟨kind, hfold⟩ := fold_of_error (better wanted) none h
    exact ⟨kind, by rw [Elements.best, hfold]; rfl⟩
  cases op with
  | len => exact counted false
  | count => exact counted projected
  | sum => exact fold_of_error addToSum (.int 0) h
  | avg =>
      obtain ⟨kind, hfold⟩ := fold_of_error addToMean {} h
      exact ⟨kind, by rw [aggregate, hfold]; rfl⟩
  | min => exact best .lt
  | max => exact best .gt

/-- Only a count tells apart whether its elements come from a projection. -/
theorem aggregate_projected {op : AggregateOp} (hop : op ≠ .count) (projected projected' : Bool)
    (xs : List Datum.Element) : aggregate op projected xs = aggregate op projected' xs := by
  cases op <;> first | rfl | exact absurd rfl hop

theorem count_ofData (ds : List Datum) :
    count false (ofData ds) = .ok (.int (Int64.ofNat ds.length)) := by
  have hfold (n : Nat) : fold (fun n d => .ok (addToCount false n d)) n (ofData ds) =
      .ok (n + ds.length) := by
    induction ds generalizing n with
    | nil => rfl
    | cons d ds ih =>
        rw [List.length_cons, Nat.add_comm ds.length, ← Nat.add_assoc]
        exact ih (n + 1)
  rw [count, hfold, Nat.zero_add]
  rfl

end Datum.Elements

namespace Expr

variable (lit : Value → Datum) (scope : List Meaning) (projection : Option Expr)

/-- What an aggregate takes of an element. -/
def taken (d : Datum) : Datum.Element :=
  match projection with
  | none => .ok d
  | some e => e.denoteValue lit (.value d :: scope)

/-- What an aggregate of these elements means. -/
def denoteAggregate (op : AggregateOp) (ds : List Datum) : Except ErrorKind Datum :=
  Datum.Elements.aggregate op projection.isSome (ds.map (taken lit scope projection))

variable {lit scope projection} {source : Expr} {op : AggregateOp} {type : DataType}
  {ds : List Datum}

theorem denote_aggregate {r : Result} (hsource : source.denote lit scope = .ok r)
    (hdata : r.intoSequence = .ok (ofData ds)) :
    (aggregate op source projection type).denote lit scope =
      (denoteAggregate lit scope projection op ds).map .value := by
  have hmap (outcome : Except ErrorKind Datum) :
      (do return Result.value (← outcome)) = outcome.map .value := by
    cases outcome <;> rfl
  cases projection with
  | none =>
      rw [denote, hsource, denoteAggregate, ← hmap]
      show (r.intoSequence >>= _) = _
      rw [hdata, show ds.map (taken lit scope none) = ofData ds from rfl]
      rfl
  | some e =>
      rw [denote, hsource, denoteAggregate, ← hmap]
      show (r.intoSequence >>= _) = _
      rw [hdata]
      show (do return Result.value (← Datum.Elements.aggregate op true
        (Datum.Elements.map _ (ofData ds)))) = _
      rw [Datum.Elements.map, ofData, List.map_map]
      rfl

theorem denoteValue_aggregate {type' : DataType} :
    (aggregate op (.context 0 type) projection type').denoteValue lit (.value (.list ds) :: scope) =
      denoteAggregate lit (.value (.list ds) :: scope) projection op ds := by
  have hsource : (Expr.context 0 type).denote lit (.value (.list ds) :: scope) =
      .ok (.value (.list ds)) := by
    rw [denote]
    rfl
  rw [denoteValue, denote_aggregate hsource rfl]
  cases denoteAggregate lit (.value (.list ds) :: scope) projection op ds <;> rfl

end Expr

namespace Value

mutual

theorem isFinite_bare : ∀ v : Value, v.bare.isFinite = v.isFinite
  | .null | .bool _ | .int _ | .float _ | .text _ | .bytes _ | .timestamp _ | .item _ => rfl
  | .list vs => areFinite_bares vs
  | .record fields => fieldsFinite_bareFields fields

theorem areFinite_bares : ∀ vs : List Value, areFinite (bares vs) = areFinite vs
  | [] => rfl
  | v :: rest => by rw [bares, areFinite, areFinite, isFinite_bare v, areFinite_bares rest]

theorem fieldsFinite_bareFields : ∀ fields : List (String × Value),
    fieldsFinite (bareFields fields) = fieldsFinite fields
  | [] => rfl
  | (name, v) :: rest => by
      rw [bareFields, fieldsFinite, fieldsFinite, isFinite_bare v, fieldsFinite_bareFields rest]

end

end Value

namespace Document

mutual

theorem isFinite_of_ofValue : ∀ {v : Value} {document : Json}, ofValue v = .ok document →
    v.isFinite = true
  | .null, _, _ | .bool _, _, _ | .int _, _, _ | .text _, _, _ | .bytes _, _, _
  | .timestamp _, _, _ | .item _, _, _ => rfl
  | .float x, _, h => by
      rw [ofValue] at h
      split at h
      · assumption
      · cases h
  | .list vs, _, h => by
      obtain ⟨documents, hdocuments, -⟩ := map_ok_iff.1 h
      exact areFinite_of_ofValues hdocuments
  | .record fields, _, h => by
      obtain ⟨members, hmembers, -⟩ := map_ok_iff.1 h
      exact fieldsFinite_of_ofFields hmembers

theorem areFinite_of_ofValues : ∀ {vs : List Value} {documents : List Json},
    ofValues vs = .ok documents → Value.areFinite vs = true
  | [], _, _ => rfl
  | v :: rest, _, h => by
      obtain ⟨document, hdocument, h⟩ := bind_ok_iff.1 h
      obtain ⟨documents, hdocuments, -⟩ := bind_ok_iff.1 h
      rw [Value.areFinite, isFinite_of_ofValue hdocument, areFinite_of_ofValues hdocuments]
      rfl

theorem fieldsFinite_of_ofFields : ∀ {fields : List (String × Value)}
    {members : List (String × Json)}, ofFields fields = .ok members →
      Value.fieldsFinite fields = true
  | [], _, _ => rfl
  | (name, v) :: rest, _, h => by
      obtain ⟨document, hdocument, h⟩ := bind_ok_iff.1 h
      obtain ⟨members, hmembers, -⟩ := bind_ok_iff.1 h
      rw [Value.fieldsFinite, isFinite_of_ofValue hdocument, fieldsFinite_of_ofFields hmembers]
      rfl

end

end Document

theorem accumulated?_count_none (vs : List Value) :
    (Accumulator.count none).accumulated? vs = some (.int (Int64.ofNat vs.length)) := by
  have hcount (n : Nat) : vs.foldl (Value.addToCount false) n = n + vs.length := by
    induction vs generalizing n with
    | nil => rfl
    | cons v vs ih =>
        rw [List.length_cons, Nat.add_comm vs.length, ← Nat.add_assoc]
        exact ih (n + 1)
  rw [Accumulator.accumulated?, Accumulator.start, Pipeline.Tally.addAll_count]
  show some (Value.ofCount (vs.foldl (Value.addToCount false) 0)) = _
  rw [hcount, Nat.zero_add]
  rfl

namespace Shape

variable {shape : Shape} {op : AggregateOp} {projection : Option Expr} {accumulator : Accumulator}
  {s t : DataType} {ref : SourceRef} {documents : List Json} {ds : List Datum}
  {lit : Value → Datum} {scope : List Meaning}

/-- What the accumulator takes of a document tells what the aggregate takes of the element that
the document stands for, and the result of the aggregate is told by its document. -/
structure Accumulates (shape : Shape) (op : AggregateOp) (projection : Option Expr)
    (accumulator : Accumulator) (s t : DataType) : Prop where
  aggregates : accumulator.op = op
  hasOperand : accumulator.hasOperand = true
  takes {ref : SourceRef} {document : Json} {d : Datum} {lit : Value → Datum}
    (scope : List Meaning) : shape.Stands ref document d → (∀ e ∈ projection, e.Regular lit) →
      Agrees (fun v d => v.Tells s d) (accumulator.input document)
        (Expr.taken lit scope projection d)
  result : op.resultType s = .ok t
  settled : op ≠ .count → s.isSettled = true
  told : t.isDocumentType = true

/-- An operand for what is accumulated. -/
theorem accumulated?_eq_some {operand : Operand}
    (h : shape.accumulated? projection = some (some (operand, s)))
    {document : Json} {d : Datum} (hstands : shape.Stands ref document d)
    (hregular : ∀ e ∈ projection, e.Regular lit) :
    Agrees (fun v d => v.Tells s d) (operand.eval document)
      (Expr.taken lit scope projection d) := by
  cases projection with
  | some e =>
      obtain ⟨_, hoperand, ⟨⟩⟩ := Option.map_eq_some_iff.1 h
      exact (isOperand_of_operand? hoperand).computes hstands (hregular e rfl)
  | none =>
      cases shape with
      | scalar type =>
          rw [accumulated?] at h
          split at h
          next htold =>
            cases h
            exact tells_of_said hstands.1 hstands.2 htold
          next => cases h
      | _ => cases h

theorem accumulator?_cases (h : shape.accumulator? op projection = some (accumulator, t)) :
    (accumulator = .count none ∧ t = .int ∧ (op = .len ∨ op = .count ∧ projection = none)) ∨
      ∃ s, shape.Accumulates op projection accumulator s t := by
  obtain ⟨accumulated, haccumulated, h⟩ := Option.bind_eq_some_iff.1 h
  have accumulates {operand : Operand} {s : DataType}
      (haccumulated' : accumulated = some (operand, s)) (haggregates : accumulator.op = op)
      (hoperand : accumulator.hasOperand = true)
      (hinput : ∀ document, accumulator.input document = operand.eval document)
      (hresult : op.resultType s = .ok t) (hsettled : op ≠ .count → s.isSettled = true)
      (htold : t.isDocumentType = true) : ∃ s, shape.Accumulates op projection accumulator s t := by
    subst haccumulated'
    refine ⟨s, haggregates, hoperand, fun {_ document _ _ _} hstands hregular => ?_, hresult,
      hsettled, htold⟩
    rw [hinput]
    exact accumulated?_eq_some haccumulated hstands hregular
  have plain {s : DataType} (hs : s.isPlain = true) :
      s.isSettled = true ∧ s.isOrderable = true ∧ s.isDocumentType = true := by
    cases s with
    | scalar s => exact ⟨isSettled_of_isPlain hs, rfl, hs⟩
    | _ => cases hs
  cases accumulated with
  | none =>
      have hnone : projection = none := by
        cases projection with
        | none => rfl
        | some e =>
            obtain ⟨_, -, ⟨⟩⟩ := Option.map_eq_some_iff.1 haccumulated
      cases op with
      | len => cases h; exact .inl ⟨rfl, rfl, .inl rfl⟩
      | count => cases h; exact .inl ⟨rfl, rfl, .inr ⟨rfl, hnone⟩⟩
      | _ => cases h
  | some taken =>
      obtain ⟨operand, s⟩ := taken
      cases op with
      | len => cases h; exact .inl ⟨rfl, rfl, .inl rfl⟩
      | count =>
          cases h
          exact .inr (accumulates rfl rfl rfl (fun _ => rfl) rfl (absurd rfl) rfl)
      | sum =>
          obtain ⟨hnumeric, h⟩ := Option.ite_none_right_eq_some.1 h
          cases h
          refine .inr (accumulates rfl rfl rfl (fun _ => rfl) ?_ (fun _ => ?_) ?_) <;>
            rcases DataType.int_or_float_of_isNumeric hnumeric with rfl | rfl <;> rfl
      | avg =>
          obtain ⟨hnumeric, h⟩ := Option.ite_none_right_eq_some.1 h
          cases h
          refine .inr (accumulates rfl rfl rfl (fun _ => rfl) ?_ (fun _ => ?_) rfl) <;>
            rcases DataType.int_or_float_of_isNumeric hnumeric with rfl | rfl <;> rfl
      | min | max =>
          obtain ⟨hplain, h⟩ := Option.ite_none_right_eq_some.1 h
          cases h
          obtain ⟨hsettled, horderable, htold⟩ := plain hplain
          exact .inr (accumulates rfl rfl rfl (fun _ => rfl) (if_pos horderable)
            (fun _ => hsettled) htold)

variable (scope) in
/-- What an accumulator takes of all documents. -/
theorem Accumulates.takesAll (h : shape.Accumulates op projection accumulator s t)
    (hstands : List.Forall₂ (shape.Stands ref) documents ds)
    (hregular : ∀ e ∈ projection, e.Regular lit) :
    match (documents.mapM accumulator.input).toOption with
    | some vs => ∃ data, ds.map (Expr.taken lit scope projection) = ofData data ∧
        List.Forall₂ (fun v d => v.Tells s d) vs data
    | none => ∃ kind, .error kind ∈ ds.map (Expr.taken lit scope projection) := by
  induction hstands with
  | nil => exact ⟨[], rfl, .nil⟩
  | @cons document d documents ds hfirst _ ih =>
      have htakes := h.takes scope hfirst hregular
      rw [toOption_mapM, List.mapM_cons, ← toOption_mapM, List.map_cons]
      cases hinput : accumulator.input document with
      | error e =>
          rw [hinput] at htakes
          cases htaken : Expr.taken lit scope projection d with
          | ok data => rw [htaken] at htakes; exact htakes.elim
          | error kind => exact ⟨kind, List.mem_cons_self⟩
      | ok v =>
          rw [hinput] at htakes
          obtain ⟨r, htaken, hr⟩ := Agrees.ok_left htakes
          cases hrest : (documents.mapM accumulator.input).toOption with
          | none =>
              rw [hrest] at ih
              obtain ⟨kind, hkind⟩ := ih
              exact ⟨kind, List.mem_cons_of_mem _ hkind⟩
          | some vs =>
              rw [hrest] at ih
              obtain ⟨data, hdata, hvs⟩ := ih
              exact ⟨r :: data, by rw [htaken, hdata]; rfl, .cons hr hvs⟩

/-- The accumulated result tells the aggregate of the data that the values tell. -/
theorem Accumulates.results (h : shape.Accumulates op projection accumulator s t)
    {vs : List Value} {data : List Datum}
    (hvs : List.Forall₂ (fun v d => v.Tells s d) vs data) :
    match accumulator.accumulated? vs with
    | some v => ∃ d, Datum.Elements.aggregate op true (ofData data) = .ok d ∧ v.Tells t d
    | none => ∃ kind, Datum.Elements.aggregate op true (ofData data) = .error kind := by
  have hgives := Pipeline.aggregate_gives accumulator vs
  have hyields : RecordAlgebra.Yields .empty {} (.ofValues vs) (ofData data) :=
    yields_ofValues (hvs.imp fun v d hv => hv.shows {})
  have hends := (computes_aggregate accumulator.op accumulator.hasOperand hyields {} (.refl _)
    (fun _ _ h => by cases h) (.none _ _)).2
  rw [h.aggregates, h.hasOperand] at hgives hends
  have hprogresses : Progresses (·.Fits t) (Datum.Elements.aggregate op true (ofData data)) := by
    have hdata : Datum.AllProgress s (ofData data) := by
      refine Datum.Elements.allProgress_ofData fun d hd => ?_
      obtain ⟨v, -, hv⟩ := exists_mem_of_forall₂ hvs hd
      exact hv.fits
    by_cases hop : op = .count
    · subst hop
      cases h.result
      exact Datum.Elements.count_progresses true hdata
    · exact Datum.Elements.aggregate_progresses true (h.settled hop) h.result hdata
  cases haccumulated : accumulator.accumulated? vs with
  | none =>
      rw [haccumulated] at hgives
      obtain ⟨e, hrun⟩ := hgives {}
      rw [hrun] at hends
      cases hmeans : Datum.Elements.aggregate op true (ofData data) with
      | ok d => rw [hmeans] at hends; exact hends.elim
      | error kind => exact ⟨kind, rfl⟩
  | some v =>
      rw [haccumulated] at hgives
      rw [hgives {}] at hends
      cases hmeans : Datum.Elements.aggregate op true (ofData data) with
      | ok d =>
          rw [hmeans] at hends hprogresses
          exact ⟨d, rfl, .of_shows hends hprogresses h.told⟩
      | error kind => rw [hmeans] at hends; exact hends.elim

variable (scope) in
/-- What is accumulated over documents tells the aggregate over the elements that they stand
for. Only over documents of single values a count without projection takes nulls for nothing,
which the aggregate does not. -/
theorem accumulator_agrees (h : shape.accumulator? op projection = some (accumulator, t))
    (hcount : op = .count → projection = none → accumulator = .count none)
    (hlen : op = .len → projection = none)
    (hregular : ∀ e ∈ projection, e.Regular lit)
    (hstands : List.Forall₂ (shape.Stands ref) documents ds) :
    match (documents.mapM accumulator.input).toOption.bind accumulator.accumulated? with
    | some v => ∃ d, Expr.denoteAggregate lit scope projection op ds = .ok d ∧ v.Tells t d
    | none => ∃ kind, Expr.denoteAggregate lit scope projection op ds = .error kind := by
  rcases accumulator?_cases h with ⟨rfl, rfl, hop⟩ | ⟨s, haccumulates⟩
  · have hnone : projection = none := hop.elim hlen And.right
    subst hnone
    have hinput : (documents.mapM (Accumulator.count none).input).toOption =
        some (documents.map fun _ => .null) := by
      rw [toOption_mapM]
      exact List.mapM_pure
    have hmeans : Expr.denoteAggregate lit scope none op ds =
        .ok (.int (Int64.ofNat documents.length)) := by
      rw [hstands.length_eq, ← Datum.Elements.count_ofData]
      rcases hop with rfl | ⟨rfl, -⟩ <;> rfl
    rw [hinput, Option.bind_some, accumulated?_count_none, List.length_map]
    exact ⟨_, hmeans, rfl, .scalar rfl, rfl⟩
  · have hprojected : Expr.denoteAggregate lit scope projection op ds =
        Datum.Elements.aggregate op true (ds.map (Expr.taken lit scope projection)) := by
      by_cases hop : op = .count
      · cases projection with
        | some e => rfl
        | none =>
            have hnone := hcount hop rfl
            rw [hnone] at haccumulates
            cases haccumulates.hasOperand
      · exact Datum.Elements.aggregate_projected hop _ _ _
    rw [hprojected]
    have htakes := haccumulates.takesAll scope hstands hregular
    cases hvalues : (documents.mapM accumulator.input).toOption with
    | none =>
        rw [hvalues] at htakes
        obtain ⟨kind, hkind⟩ := htakes
        exact Datum.Elements.aggregate_of_error op true hkind
    | some vs =>
        rw [hvalues] at htakes
        obtain ⟨data, hdata, hvs⟩ := htakes
        rw [hdata]
        exact haccumulates.results hvs

end Shape

namespace Plan

open Source.Documents (runPlan? scalarOf)
open Shape (tasks unknownTask taskState shows_unknownTask stands_unknownTask)

variable {segment : Segment} {plan : Plan} {op : AggregateOp} {projection : Option Expr}
  {ref : SourceRef} {w : World} {documents : List Json} {view : ItemRef → String}

theorem runPlan?_scalar (schema : Schema) (pipeline : Pipeline) (ifEmpty : Option Value) :
    runPlan? schema { pipeline, output := .scalar ifEmpty } documents =
      ((pipeline.run documents).toOption.bind (scalarOf ifEmpty)).map .scalar := by
  rw [runPlan?]
  cases pipeline.run documents <;> rfl

theorem run_single (stage : Pipeline.Stage) (documents : List Json) :
    Pipeline.run [stage] documents = stage.run documents := by
  rw [Pipeline.run, List.foldlM_cons]
  exact bind_pure _

/-- The result that is read off a plan is a value that tells what is meant, and nothing is read
off it if that fails or is a number that is not finite. -/
def Reports (means : Except ErrorKind Datum) : Option NativeOutput → Prop
  | some (.scalar v) => v.isFinite = true ∧ ∃ d t, means = .ok d ∧ v.Tells t d
  | none => ∀ d, means = .ok d → d.bare.isFinite = false
  | some _ => False

theorem counts_report (lit : Value → Datum) (scope : List Meaning) {ds : List Datum}
    (hlength : documents.length = ds.length) (hop : countsAll op none = true) :
    Reports (Expr.denoteAggregate lit scope none op ds) (runPlan? ref.schema
      { pipeline := [.count resultField], output := .scalar (some (.int 0)) } documents) := by
  have hmeans : Expr.denoteAggregate lit scope none op ds =
      .ok (.int (Int64.ofNat documents.length)) := by
    rw [hlength, ← Datum.Elements.count_ofData]
    cases op <;> first | rfl | cases hop
  have hread : Document.fieldValue
      (.object [(resultField, .int (Int64.ofNat documents.length).toInt)]) resultField =
        .int (Int64.ofNat documents.length) := numberValue_toInt _
  rw [runPlan?_scalar, run_single, hmeans]
  show Reports _ (some (.scalar (Document.fieldValue _ _)))
  rw [hread]
  exact ⟨rfl, _, .int, rfl, rfl, .scalar rfl, rfl⟩

/-- All documents together give one document with the result that is accumulated. -/
theorem toOption_run_result (accumulator : Accumulator) (document : Json) :
    (Grouping.run { key := none, accumulators := [(resultField, accumulator)] }
      (document :: documents)).toOption =
        (((document :: documents).mapM accumulator.input).toOption.bind
          accumulator.accumulated?).bind fun result => (Document.ofValue result).toOption.map
            fun found => [.object [(Pipeline.groupIdField, .null), (resultField, found)]] := by
  rw [Grouping.toOption_run_ungrouped, List.mapM_cons, List.mapM_nil]
  simp only [Grouping.member?, Option.bind_eq_bind, Option.bind_assoc]
  cases ((document :: documents).mapM accumulator.input).toOption with
  | none => rfl
  | some vs =>
      simp only [Option.bind_some]
      cases accumulator.accumulated? vs with
      | none => rfl
      | some result =>
          simp only [Option.bind_some]
          cases Document.ofValue result <;> rfl

theorem group_reports {accumulator : Accumulator} {t : DataType} (lit : Value → Datum)
    (scope : List Meaning) {ds : List Datum}
    (haccumulator : segment.shape.accumulator? op projection = some (accumulator, t))
    (hop : countsAll op projection = false) (hregular : ∀ e ∈ projection, e.Regular lit)
    (hstands : List.Forall₂ (segment.shape.Stands ref) documents ds) :
    Reports (Expr.denoteAggregate lit scope projection op ds) (runPlan? ref.schema
      { pipeline := [.group { key := none, accumulators := [(resultField, accumulator)] }]
        output := .scalar (emptyResult op) } documents) := by
  rw [runPlan?_scalar, run_single]
  cases documents with
  | nil =>
      cases hstands
      cases op with
      | sum | count | len => exact ⟨rfl, _, .int, rfl, rfl, .scalar rfl, rfl⟩
      | avg | min | max => exact nofun
  | cons document documents =>
      have hagrees := Shape.accumulator_agrees scope haccumulator
        (fun hcount hnone => by subst hcount hnone; cases hop)
        (fun hlen => by subst hlen; cases hop) hregular hstands
      rw [show Pipeline.Stage.run (.group _) _ = Grouping.run _ _ from rfl, toOption_run_result]
      cases haccumulated : ((document :: documents).mapM accumulator.input).toOption.bind
          accumulator.accumulated? with
      | none =>
          rw [haccumulated] at hagrees
          obtain ⟨kind, hkind⟩ := hagrees
          rw [hkind]
          exact nofun
      | some v =>
          rw [haccumulated] at hagrees
          obtain ⟨d, hd, hv⟩ := hagrees
          rw [hd, Option.bind_some]
          cases hfound : Document.ofValue v with
          | error e =>
              rintro _ ⟨⟩
              rw [hv.bare]
              exact Shape.isFinite_of_error hv hfound
          | ok found =>
              show Reports _ (some (.scalar (Document.toValue found)))
              rw [hv.reads hfound]
              exact ⟨Document.isFinite_of_ofValue hfound, d, t, rfl, hv⟩

/-- The stage of an aggregate reports what the aggregate of the elements means. -/
theorem aggregate_reports (hplan : aggregate? segment op projection = some plan)
    (hlen : op = .len → projection = none) (lit : Value → Datum) (scope : List Meaning)
    (hregular : ∀ e ∈ projection, e.Regular lit) {ds : List Datum}
    (hstands : List.Forall₂ (segment.shape.Stands ref) documents ds) :
    ∃ stage, plan.pipeline = segment.pipeline ++ [stage] ∧
      Reports (Expr.denoteAggregate lit scope projection op ds)
        (runPlan? ref.schema { plan with pipeline := [stage] } documents) := by
  rw [aggregate?] at hplan
  split at hplan
  next hop =>
    cases hplan
    have hnone : projection = none := by
      cases op with
      | len => exact hlen rfl
      | count =>
          cases projection with
          | none => rfl
          | some e => cases hop
      | _ => cases hop
    subst hnone
    exact ⟨_, rfl, counts_report lit scope hstands.length_eq hop⟩
  next hop =>
    obtain ⟨⟨accumulator, t⟩, haccumulator, h⟩ := Option.bind_eq_some_iff.1 hplan
    cases h
    exact ⟨_, rfl, group_reports lit scope haccumulator (by simpa using hop) hregular hstands⟩

/-- Only single values are literals of what is aggregated. -/
theorem isSingle_of_aggregate? (hplan : aggregate? segment op projection = some plan)
    (hlen : op = .len → projection = none) {e : Expr} (he : projection = some e) {v : Value}
    (hv : e.HasLiteral v) : v.isSingle = true := by
  subst he
  rw [aggregate?, if_neg] at hplan
  · obtain ⟨⟨accumulator, t⟩, haccumulator, -⟩ := Option.bind_eq_some_iff.1 hplan
    obtain ⟨_, haccumulated, -⟩ := Option.bind_eq_some_iff.1 haccumulator
    obtain ⟨_, hoperand, -⟩ := Option.map_eq_some_iff.1 haccumulated
    exact (Shape.isOperand_of_operand? hoperand).isSingle hv
  · cases op with
    | len => cases hlen rfl
    | _ => exact Bool.false_ne_true

/-- The result of a plan is the outcome of an evaluation, which fails or gives a number that is
not finite where the plan has none. -/
def Matches : Option NativeOutput → Except Stop Value → Prop
  | some (.scalar v), .ok u => v = u ∧ u.isFinite = true
  | none, .ok u => u.isFinite = false
  | none, .error (.raised _) => True
  | _, _ => False

/-- Whether a task is done. -/
def isDone : Expr := .field .element "done" .any

theorem built_isDone (view : ItemRef → String) : isDone.Built view :=
  .field (.outer 0) (show Expr.mkField view .element "done" = .ok isDone from rfl)

end Plan

end RecordAlgebra
