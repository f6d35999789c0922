import RecordAlgebra.Plan.Coverage
import RecordAlgebra.Proofs.Plan.Infallible
import RecordAlgebra.Proofs.Plan.Projections
import RecordAlgebra.Proofs.Source.Execution
import RecordAlgebra.Source.Documents

/-!
# Split conjunctions

Of a filter some conjuncts become a condition of the pipeline, and the others remain. The order
of the conjuncts does not matter, because none of those that remain can fail and every
condition agrees with its conjunct. So what the remainder leaves of the output is what the
filter leaves of its source.
-/

namespace RecordAlgebra

open Datum.Elements (ofData)

theorem Datum.Elements.filter_ofData {keep : Datum → Except ErrorKind Bool} {chosen : Datum → Bool}
    {data : List Datum} (h : ∀ d ∈ data, keep d = .ok (chosen d)) :
    filter keep (ofData data) = ofData (data.filter chosen) := by
  induction data with
  | nil => rfl
  | cons d rest ih =>
      obtain ⟨hd, hrest⟩ := List.forall_mem_cons.1 h
      rw [ofData, List.map_cons, filter, hd, List.filter_cons]
      cases chosen d with
      | false => exact ih hrest
      | true => exact congrArg (.ok d :: ·) (ih hrest)

theorem Datum.Elements.eq_ofData_of_collect {elements : List Datum.Element} {data : List Datum}
    (h : collect elements = .ok data) : elements = ofData data := by
  induction elements generalizing data with
  | nil =>
      cases h
      rfl
  | cons element rest ih =>
      cases element with
      | error kind => cases h
      | ok d =>
          obtain ⟨others, hothers, rfl⟩ := map_ok_iff.1 h
          rw [ih hothers]
          rfl

/-- What is shown at the end is known. -/
theorem EndsIn.unique {w : World} {m : EvalM Value} {d : Datum} {r : Except ErrorKind Datum}
    (h : EndsIn w m (.ok d)) (h' : EndsIn w m r) : r = .ok d := by
  obtain ⟨v, hv, hshows⟩ := EndsAs.ok_right h
  rw [EndsIn, hv] at h'
  cases r with
  | ok d' => exact congrArg Except.ok (World.Shows.unique h' hshows)
  | error kind => exact h'.elim

namespace Expr

variable {lit : Value → Datum} {scope : List Meaning} {source predicate : Expr} {r : Result}
  {data : List Datum} {view : ItemRef → String} {operands : List Expr} {e : Expr}

/-- A predicate that is true for chosen elements, and false or null for others. -/
theorem denote_filter {chosen : Datum → Bool} (hsource : source.denote lit scope = .ok r)
    (hdata : r.intoSequence = .ok (ofData data))
    (hpredicate : ∀ d ∈ data, predicate.Decided lit (.value d :: scope) ∧
      predicate.isTrue lit (.value d :: scope) = chosen d) :
    (filter source predicate).denote lit scope = .ok (.sequence (ofData (data.filter chosen))) := by
  have hkeep : ∀ d ∈ data, (do
      let result ← (← predicate.denote lit (.value d :: scope)).intoValue
      result.predicate) = .ok (chosen d) := by
    intro d hd
    obtain ⟨⟨result, hresult, hdecides⟩, htrue⟩ := hpredicate d hd
    rw [htrue] at hdecides
    rw [hresult]
    exact hdecides.predicate
  have hbind : (do
      let elements ← r.intoSequence
      return Result.sequence (Datum.Elements.filter (fun d => do
        let result ← (← predicate.denote lit (.value d :: scope)).intoValue
        result.predicate) elements)) = .ok (.sequence (ofData (data.filter chosen))) := by
    rw [hdata, ← Datum.Elements.filter_ofData hkeep]
    rfl
  rw [denote, hsource]
  exact hbind

theorem decided_and (h : ∀ e ∈ operands, e.Decided lit scope) :
    (boolean .and operands).Decided lit scope ∧
      (boolean .and operands).isTrue lit scope = operands.all (isTrue lit scope) := by
  obtain ⟨r, hr, hdecides⟩ := denote_boolean .and h
  exact ⟨decided_of_decides hr hdecides, isTrue_eq hr hdecides⟩

end Expr

namespace Coverage

variable {view : ItemRef → String} {operands conjuncts : List Expr} {e : Expr}
  {lit : Value → Datum} {scope : List Meaning}

theorem conjunction_cases (h : conjunction view operands = .ok e) :
    operands = [e] ∨ e = .boolean .and operands := by
  have checked (h : Expr.mkBoolean view .and operands = .ok e) : e = .boolean .and operands := by
    obtain ⟨-, -, rfl⟩ := map_ok_iff.1 (Expr.checked_of_mkBoolean h)
    rfl
  unfold conjunction at h
  split at h
  · cases h
    exact .inl rfl
  · exact .inr (checked h)

theorem conjunction_decided (h : conjunction view operands = .ok e)
    (hoperands : ∀ e ∈ operands, e.Decided lit scope) :
    e.Decided lit scope ∧ e.isTrue lit scope = operands.all (Expr.isTrue lit scope) := by
  rcases conjunction_cases h with rfl | rfl
  · exact ⟨hoperands e List.mem_cons_self, by simp⟩
  · exact Expr.decided_and hoperands

theorem hasLiteral_of_conjunction (h : conjunction view operands = .ok e) {v : Value}
    (hv : e.HasLiteral v) : ∃ operand ∈ operands, operand.HasLiteral v := by
  rcases conjunction_cases h with rfl | rfl
  · exact ⟨e, List.mem_cons_self, hv⟩
  · obtain ⟨part, hpart, hv⟩ := (Expr.hasLiteral_iff rfl).1 hv
    obtain ⟨operand, hoperand, rfl⟩ := List.mem_map.1 hpart
    exact ⟨operand, hoperand, hv⟩

end Coverage

namespace Shape

variable {ref : SourceRef} {shape : Shape} {document : Json} {d : Datum} {w : World}
  {lit : Value → Datum} {scope : List Meaning} {conjuncts : List Expr}

/-- The conjuncts that become conditions. -/
def translated (shape : Shape) (conjuncts : List Expr) : List Expr :=
  conjuncts.filter fun e => (shape.condition? e).isSome

/-- The conjuncts that do not become conditions. -/
def remaining (shape : Shape) (conjuncts : List Expr) : List Expr :=
  conjuncts.filter fun e => (shape.condition? e).isNone

theorem conditions?_translated :
    shape.conditions? (shape.translated conjuncts) =
      some (conjuncts.filterMap shape.condition?) := by
  induction conjuncts with
  | nil => rfl
  | cons e rest ih =>
      rw [translated, List.filter_cons, List.filterMap_cons]
      cases hcondition : shape.condition? e with
      | none => exact ih
      | some condition =>
          show shape.conditions? (e :: shape.translated rest) = _
          rw [conditions?, hcondition, ih]
          rfl

theorem mem_translated_or_remaining {e : Expr} (he : e ∈ conjuncts) :
    e ∈ shape.translated conjuncts ∨ e ∈ shape.remaining conjuncts := by
  cases h : shape.condition? e with
  | none => exact .inr (List.mem_filter.2 ⟨he, by rw [h]; rfl⟩)
  | some condition => exact .inl (List.mem_filter.2 ⟨he, by rw [h]; rfl⟩)

theorem all_translated_and_remaining (p : Expr → Bool) :
    ((shape.translated conjuncts).all p && (shape.remaining conjuncts).all p) =
      conjuncts.all p := by
  rw [Bool.eq_iff_iff, Bool.and_eq_true]
  simp only [List.all_eq_true]
  constructor
  · rintro ⟨htranslated, hremaining⟩ e he
    exact (mem_translated_or_remaining he).elim (htranslated e) (hremaining e)
  · intro h
    exact ⟨fun e he => h e (List.mem_filter.1 he).1, fun e he => h e (List.mem_filter.1 he).1⟩

variable (shape lit conjuncts) in
/-- Whether the conjuncts that become conditions are true for the element. -/
def selects (d : Datum) : Bool := (shape.translated conjuncts).all (Expr.isTrue lit [.value d])

variable (shape lit conjuncts) in
/-- Whether the other conjuncts are true for the element. -/
def leaves (d : Datum) : Bool := (shape.remaining conjuncts).all (Expr.isTrue lit [.value d])

section Elements

variable (h : shape.Stands ref document d) (hlit : ∀ e ∈ conjuncts, e.Knows lit)

include h hlit

/-- The condition is the same whatever is bound around the element, so its conjuncts are. -/
theorem Stands.translated_decided (scope : List Meaning) :
    (∀ e ∈ shape.translated conjuncts, e.Decided lit (.value d :: scope)) ∧
      (shape.translated conjuncts).all (Expr.isTrue lit (.value d :: scope)) =
        shape.selects lit conjuncts d ∧
      (Pipeline.Condition.all (conjuncts.filterMap shape.condition?)).holds document =
        .ok (shape.selects lit conjuncts d) := by
  have hmatches (scope : List Meaning) : ∀ e ∈ shape.translated conjuncts, ∀ condition,
      shape.condition? e = some condition → Matches lit scope document d e condition :=
    fun e he condition hcondition => h.matches (hlit e (List.mem_filter.1 he).1) hcondition
  have hholds := holdAll_of_matches (hmatches []) conditions?_translated
  have hsame := (holdAll_of_matches (hmatches scope) conditions?_translated).symm.trans hholds
  exact ⟨decided_of_matches (hmatches scope) conditions?_translated, Except.ok.inj hsame, hholds⟩

section Remaining

variable (hinfallible : shape.areInfallible (shape.remaining conjuncts) = true)

include hinfallible

theorem Stands.remaining_decided (scope : List Meaning) :
    (∀ e ∈ shape.remaining conjuncts, e.Decided lit (.value d :: scope)) ∧
      (shape.remaining conjuncts).all (Expr.isTrue lit (.value d :: scope)) =
        shape.leaves lit conjuncts d := by
  have hdecided : ∀ e ∈ shape.remaining conjuncts, e.Decided lit (.value d :: scope) ∧
      e.isTrue lit (.value d :: scope) = e.isTrue lit [.value d] := by
    intro e he
    obtain ⟨t, ht, htruth⟩ := exists_truthType_of_mem hinfallible he
    exact (h.infallible (hlit e (List.mem_filter.1 he).1) ht).decided htruth scope
  refine ⟨fun e he => (hdecided e he).1, Bool.eq_iff_iff.2 ?_⟩
  simp only [leaves, List.all_eq_true]
  exact forall₂_congr fun e he => by rw [(hdecided e he).2]

/-- The whole conjunction is true if both of its parts are. -/
theorem Stands.conjunction_decided (scope : List Meaning) :
    (Expr.boolean .and conjuncts).Decided lit (.value d :: scope) ∧
      (Expr.boolean .and conjuncts).isTrue lit (.value d :: scope) =
        (shape.selects lit conjuncts d && shape.leaves lit conjuncts d) := by
  obtain ⟨htranslated, hselects, -⟩ := h.translated_decided hlit scope
  obtain ⟨hremaining, hleaves⟩ := h.remaining_decided hlit hinfallible scope
  obtain ⟨hdecided, htrue⟩ := Expr.decided_and fun e he =>
    (mem_translated_or_remaining he).elim (htranslated e) (hremaining e)
  exact ⟨hdecided, by rw [htrue, ← all_translated_and_remaining, hselects, hleaves]⟩

end Remaining

end Elements

/-- The document stands for an element with this datum. -/
def Carries (shape : Shape) (ref : SourceRef) (w : World) (document : Json) (d : Datum) : Prop :=
  ∃ element, shape.Represents ref w document element ∧ w.Shows element d

theorem Carries.stands (h : shape.Carries ref w document d) : shape.Stands ref document d := by
  obtain ⟨element, ⟨d', hshows, hstands, -⟩, hd⟩ := h
  rwa [hshows.unique hd] at hstands

/-- The document is read as a row of which the item will show the datum, or as a value that
shows it. -/
def ReadsAs (ref : SourceRef) (w : World) (document : Json) (d : Datum) : Shape → Prop
  | .stored _ => ∃ row ds, d = .item ref ds ∧ Document.Stores ref.schema document row ds
  | .object _ | .scalar _ => w.Shows (Document.toValue document) d

theorem Carries.readsAs (h : shape.Carries ref w document d) : shape.ReadsAs ref w document d := by
  cases shape with
  | stored type => exact h.stands.2
  | object type | scalar type =>
      obtain ⟨element, hrepresents, hshows⟩ := h
      rwa [ReadsAs, show Document.toValue document = element from hrepresents.givesBack]

/-- A condition that agrees with a choice of data selects the documents that are related to the
chosen ones. -/
theorem select_related {R : Json → Datum → Prop} {condition : Pipeline.Condition}
    {chosen : Datum → Bool} {documents : List Json} {data : List Datum}
    (h : List.Forall₂ R documents data)
    (step : ∀ document d, R document d → condition.holds document = .ok (chosen d)) :
    ∃ kept, Pipeline.Stage.select condition documents = .ok kept ∧
      List.Forall₂ R kept (data.filter chosen) := by
  induction h with
  | nil => exact ⟨[], rfl, .nil⟩
  | @cons document d documents data hfirst _ ih =>
      obtain ⟨kept, hkept, hrelated⟩ := ih
      rw [Pipeline.Stage.select, step document d hfirst, hkept, List.filter_cons]
      cases chosen d with
      | false => exact ⟨kept, rfl, hrelated⟩
      | true => exact ⟨document :: kept, rfl, .cons hfirst hrelated⟩

end Shape

namespace Source

variable {ref : SourceRef} {w : World} {data : List Datum} {schema : Schema} {row : Row}

theorem rowFields_self (h : Fields.names row = schema.names) : rowFields schema row = row := by
  have hnodup : (Fields.names row).Nodup := by
    rw [h]
    exact schema.distinct
  rw [rowFields, ← h, Fields.names, List.map_map]
  refine (List.map_congr_left fun field hfield => ?_).trans (List.map_id row)
  rw [Function.comp_apply, Fields.get?_eq_some_of_mem hnodup hfield]
  rfl

theorem showsRow_of_stores {source : Source} {document : Json} {ds : Fields Datum}
    (hdeferred : source.deferred = [])
    (h : Document.Stores source.ref.schema document row ds) (w : World) :
    source.ShowsRow w row (.item source.ref ds) := by
  have hnames : Fields.names row = source.ref.schema.names :=
    (Fields.names_eq_of_forall₂ (h.shows w)).trans h.names
  refine ⟨?_, fun name hname => ?_, ds, rfl, ?_⟩
  · rw [loadersFor, hdeferred]
    rfl
  · rw [hnames] at hname
    obtain ⟨property, hproperty, hsame⟩ := List.mem_map.1 hname
    exact List.any_eq_true.2 ⟨property, hproperty, by simp [hsame]⟩
  · rw [rowFields_self hnames]
    exact h.shows w

/-- Documents of a store, and the data of the items that they are read as. -/
def Documents.Stock (ref : SourceRef) (documents : List Json) (data : List Datum) : Prop :=
  List.Forall₂ (fun document d => ∃ row ds, d = .item ref ds ∧
    Document.Stores ref.schema document row ds) documents data

end Source

namespace Segment

open Source.Documents (Stock runPlan? create)

variable {segment : Segment} {ref : SourceRef} {w : World} {documents : List Json}
  {data : List Datum}

/-- Stored documents are read as rows of which the items will show their data. -/
theorem rows_show (allowed : Bool) (w : World) (h : Stock ref documents data) :
    ∃ rows, documents.mapM (Document.toRow ref.schema) = .ok rows ∧
      List.Forall₂ ((create .live ref allowed).ShowsRow w) rows data := by
  induction h with
  | nil => exact ⟨[], rfl, .nil⟩
  | @cons document d documents data hfirst _ ih =>
      obtain ⟨row, ds, rfl, hstores⟩ := hfirst
      obtain ⟨rows, hrows, hshow⟩ := ih
      refine ⟨row :: rows, ?_, .cons (Source.showsRow_of_stores rfl hstores w) hshow⟩
      rw [List.mapM_cons, hstores.reads, hrows]
      rfl

/-- Stored documents become items with their data. -/
theorem rows_yield (allowed : Bool) (w : World) (h : Stock ref documents data) :
    ∃ rows, documents.mapM (Document.toRow ref.schema) = .ok rows ∧
      Yields .empty w ((create .live ref allowed).itemsOf rows) (ofData data) := by
  obtain ⟨rows, hrows, hshow⟩ := rows_show allowed w h
  exact ⟨rows, hrows, Source.yields_itemsOf hshow⟩

theorem run_filter {condition : Pipeline.Condition} {kept : List Json}
    (h : Pipeline.Stage.select condition documents = .ok kept) :
    Pipeline.run [.filter condition] documents = .ok kept :=
  (bind_pure _).trans h

/-- Documents that a pipeline gives are read as elements with the data that they are read as. -/
theorem runPlan?_reads (allowed : Bool) {pipeline : Pipeline} {kept : List Json}
    (hrun : pipeline.run documents = .ok kept)
    (h : List.Forall₂ (segment.shape.ReadsAs ref w) kept data) :
    ∃ output s, runPlan? ref.schema { pipeline, output := segment.output } documents = some output ∧
      (create .live ref allowed).output output = .sequence s ∧ Yields .empty w s (ofData data) := by
  obtain ⟨steps, shape⟩ := segment
  have values (hshown : List.Forall₂ (fun document d => w.Shows (Document.toValue document) d)
      kept data) : Yields .empty w (.ofElements (kept.map fun document =>
        .ok (Document.toValue document))) (ofData data) := by
    refine yields_ofElements ?_
    rw [ofData, List.forall₂_map_left_iff, List.forall₂_map_right_iff]
    exact hshown.imp fun _ _ hdocument => hdocument
  cases shape with
  | stored type =>
      obtain ⟨rows, hrows, hyields⟩ := rows_yield allowed w h
      refine ⟨.rows rows, _, ?_, rfl, hyields⟩
      simp only [runPlan?, hrun, output, hrows]
      rfl
  | object type | scalar type =>
      refine ⟨.elements _, _, ?_, rfl, values h⟩
      simp only [runPlan?, hrun, output]

theorem runPlan?_yields (allowed : Bool) {pipeline : Pipeline} {kept : List Json}
    (hrun : pipeline.run documents = .ok kept)
    (h : List.Forall₂ (segment.shape.Carries ref w) kept data) :
    ∃ output s, runPlan? ref.schema { pipeline, output := segment.output } documents = some output ∧
      (create .live ref allowed).output output = .sequence s ∧ Yields .empty w s (ofData data) :=
  runPlan?_reads allowed hrun (h.imp fun _ _ hcarries => hcarries.readsAs)

end Segment

namespace Coverage

open Source.Documents (runPlan? create)

variable {view : ItemRef → String} {segment : Segment} {conjuncts : List Expr} {plan : Plan}
  {remainder e source predicate : Expr} {ref : SourceRef} {w : World} {lit : Value → Datum}
  {schema : Schema} {inputs data : List Datum}

theorem split_eq_partly (h : split view segment conjuncts = .ok (.partly plan remainder)) :
    ∃ rest, plan =
        (segment.push (.filter (.all (conjuncts.filterMap segment.shape.condition?)))).plan ∧
      segment.shape.areInfallible (segment.shape.remaining conjuncts) = true ∧
      conjunction view (segment.shape.remaining conjuncts) = .ok rest ∧
      remainder = .filter .element rest := by
  simp only [split] at h
  split at h
  · cases h
  · next hsplit =>
    simp only [Bool.or_eq_true, not_or, Bool.not_eq_true, Bool.not_eq_false'] at hsplit
    obtain ⟨rest, hrest, h⟩ := bind_ok_iff.1 h
    obtain ⟨built, hbuilt, h⟩ := bind_ok_iff.1 h
    cases h
    obtain ⟨-, -, rfl⟩ := map_ok_iff.1 hbuilt
    exact ⟨rest, rfl, hsplit.2, hrest, rfl⟩

theorem ofExpr_eq_partly (h : ofExpr view schema e = .ok (.partly plan remainder)) :
    ∃ source conjuncts segment, e = .filter source (.boolean .and conjuncts) ∧
      Segment.ofExpr? schema source = some segment ∧
      split view segment conjuncts = .ok (.partly plan remainder) := by
  unfold ofExpr at h
  split at h
  · cases h
  · split at h
    · split at h
      · next segment hsegment => exact ⟨_, _, segment, rfl, hsegment, h⟩
      · cases h
    · cases h

/-- A sequence of data is what an expression means if it ends with these data. -/
theorem denote_of_endsIn {rows : Sequence} (hrows : Yields .empty w rows (ofData inputs))
    (literals : ∀ v, e.HasLiteral v → w.Shows v (lit v))
    (h : EndsIn w (do (← e.run .live rows).intoValue) (.ok (.list data))) :
    ∃ r, e.denote lit [.input inputs] = .ok r ∧ r.intoSequence = .ok (ofData data) := by
  have hends := (Expr.run_settles ItemAccess.live_readsLoaded (Negotiation.holds_empty w) hrows
    literals).intoValue.endsIn
  obtain ⟨r, hr, hd⟩ := bind_ok_iff.1 (h.unique hends)
  refine ⟨r, hr, ?_⟩
  cases r with
  | value d =>
      cases hd
      rfl
  | sequence elements =>
      obtain ⟨found, hfound, hlist⟩ := map_ok_iff.1 hd
      cases hlist
      exact congrArg Except.ok (Datum.Elements.eq_ofData_of_collect hfound)

/-- An expression that means a sequence of data ends with them. -/
theorem endsIn_of_denote {s : Sequence} (hs : Yields .empty w s (ofData inputs))
    (literals : ∀ v, e.HasLiteral v → w.Shows v (lit v))
    (h : e.denote lit [.input inputs] = .ok (.sequence (ofData data))) :
    EndsIn w (do (← e.run .live s).intoValue) (.ok (.list data)) := by
  have hends := (Expr.run_settles ItemAccess.live_readsLoaded (Negotiation.holds_empty w) hs
    literals).intoValue.endsIn
  have hmeans : (do (← e.denote lit [.input inputs]).intoValue) = .ok (.list data) := by
    rw [h]
    exact congrArg (Except.map Datum.list) (Datum.Elements.collect_ofData data)
  rwa [hmeans] at hends

/-- The remainder has no other literals than the filter. -/
theorem hasLiteral_of_remainder {rest : Expr}
    (h : conjunction view (segment.shape.remaining conjuncts) = .ok rest) {v : Value}
    (hv : (Expr.filter .element rest).HasLiteral v) :
    (Expr.filter source (.boolean .and conjuncts)).HasLiteral v := by
  obtain ⟨part, hpart, hv⟩ := (Expr.hasLiteral_iff rfl).1 hv
  simp only [Expr.children, List.mem_cons, List.not_mem_nil, or_false] at hpart
  rcases hpart with rfl | rfl
  · exact (Shape.not_hasLiteral_context hv).elim
  · obtain ⟨operand, hoperand, hv⟩ := hasLiteral_of_conjunction h hv
    have hconjunct : (operand, ChildScope.same) ∈ (Expr.boolean .and conjuncts).children :=
      List.mem_map.2 ⟨operand, (List.mem_filter.1 hoperand).1, rfl⟩
    exact (hv.part hconjunct).part (show (Expr.boolean .and conjuncts, ChildScope.nested) ∈
      (Expr.filter source (.boolean .and conjuncts)).children by simp [Expr.children])

/-- A filter that a plan does in part may be done in two steps: the stage that was added selects
some of the documents, and the remainder selects from what they are read as. Neither step fails.
What they leave, in order, is what the whole filter leaves of the elements of its source that
the documents stand for, however the conjuncts of both steps are interleaved. -/
theorem partly_filters (hcoverage : ofExpr view ref.schema e = .ok (.partly plan remainder))
    (literals : ∀ v, e.HasLiteral v → w.Shows v (lit v)) (allowed : Bool) :
    ∃ source predicate segment added, e = .filter source predicate ∧
      Segment.ofExpr? ref.schema source = some segment ∧ plan = (segment.push added).plan ∧
        ∀ documents data, List.Forall₂ (segment.shape.Carries ref w) documents data →
          ∃ output chosen,
            runPlan? ref.schema { plan with pipeline := [added] } documents = some output ∧
            chosen.Sublist data ∧
            EndsIn w (do
              let output := (create .live ref allowed).output output
              (← Negotiation.runRemainder .live remainder output).intoValue)
              (.ok (.list chosen)) ∧
            ∀ rows inputs, Yields .empty w rows (ofData inputs) →
              EndsIn w (do (← source.run .live rows).intoValue) (.ok (.list data)) →
                EndsIn w (do (← e.run .live rows).intoValue) (.ok (.list chosen)) := by
  obtain ⟨source, conjuncts, segment, rfl, hsegment, hsplit⟩ := ofExpr_eq_partly hcoverage
  obtain ⟨rest, rfl, hinfallible, hrest, rfl⟩ := split_eq_partly hsplit
  refine ⟨source, _, segment, _, rfl, hsegment, rfl, fun documents data hcarries => ?_⟩
  have hknows : ∀ conjunct ∈ conjuncts, conjunct.Knows lit := fun conjunct hconjunct =>
    ((Expr.knows_of_shows literals).part
      (show (Expr.boolean .and conjuncts, ChildScope.nested) ∈ _ by simp [Expr.children])).part
      (List.mem_map.2 ⟨conjunct, hconjunct, rfl⟩)
  obtain ⟨kept, hkept, hcarries'⟩ := Shape.select_related hcarries
    fun document d hcarries => (hcarries.stands.translated_decided hknows []).2.2
  obtain ⟨output, s, hplan, houtput, hyields⟩ :=
    Segment.runPlan?_yields allowed (Segment.run_filter hkept) hcarries'
  have hstands : ∀ d ∈ data, ∃ document, segment.shape.Stands ref document d := fun d hd => by
    obtain ⟨document, -, hdocument⟩ := exists_mem_of_forall₂ hcarries hd
    exact ⟨document, hdocument.stands⟩
  refine ⟨output, (data.filter (segment.shape.selects lit conjuncts)).filter
    (segment.shape.leaves lit conjuncts), hplan, List.filter_sublist.trans List.filter_sublist, ?_,
    fun rows inputs hrows hsource => ?_⟩
  · rw [houtput]
    refine endsIn_of_denote hyields (fun v hv => literals v (hasLiteral_of_remainder hrest hv))
      (Expr.denote_filter (show Expr.element.denote _ _ = .ok _ from rfl) rfl fun d hd => ?_)
    obtain ⟨document, hdocument⟩ := hstands d (List.mem_filter.1 hd).1
    obtain ⟨hremaining, hleaves⟩ := hdocument.remaining_decided hknows hinfallible _
    obtain ⟨hdecided, htrue⟩ := conjunction_decided hrest hremaining
    exact ⟨hdecided, htrue.trans hleaves⟩
  · obtain ⟨r, hr, hdata⟩ := denote_of_endsIn hrows
      (fun v hv => literals v (hv.part (show (source, .same) ∈ _ from List.mem_cons_self)))
      hsource
    rw [List.filter_filter]
    refine endsIn_of_denote hrows literals (Expr.denote_filter hr hdata fun d hd => ?_)
    obtain ⟨document, hdocument⟩ := hstands d hd
    rw [Bool.and_comm]
    exact hdocument.conjunction_decided hknows hinfallible _

/-- Whether a task is done is unknown, and it is the same as itself. -/
def stillUnknown : Expr :=
  let done := Expr.field (.context 0 (.item Shape.tasks.schema)) "done" .boolean
  .filter (.allItems Shape.tasks.schema) (.boolean .and
    [.comparison .equal done done, .comparison .equal done (.literal .null)])

theorem literal_of_stillUnknown {v : Value} (h : stillUnknown.HasLiteral v) : v = .null := by
  obtain ⟨part, hpart, h⟩ := (Expr.hasLiteral_iff rfl).1 h
  simp only [stillUnknown, Expr.children, List.mem_cons, List.not_mem_nil, or_false] at hpart
  rcases hpart with rfl | rfl
  · exact (Shape.not_hasLiteral_context h).elim
  · obtain ⟨part, hpart, h⟩ := (Expr.hasLiteral_iff rfl).1 h
    simp only [Expr.children, List.map_cons, List.map_nil, List.mem_cons, List.not_mem_nil,
      or_false] at hpart
    rcases hpart with rfl | rfl
    · exact ((Expr.hasLiteral_comparison.1 h).elim (Expr.not_hasLiteral_of_elementField rfl)
        (Expr.not_hasLiteral_of_elementField rfl)).elim
    · exact (Expr.hasLiteral_comparison.1 h).elim
        (fun h => (Expr.not_hasLiteral_of_elementField rfl h).elim)
        fun h => (Expr.hasLiteral_literal.1 h).symm

/-- The task that a plan selects and the remainder leaves is the one that the filter selects. -/
theorem partly_filters_unknown :
    ∃ plan remainder output chosen,
      ofExpr Datum.unseen Shape.tasks.schema stillUnknown = .ok (.partly plan remainder) ∧
        runPlan? Shape.tasks.schema plan [.object [("done", .null)]] = some output ∧
        EndsIn Shape.taskState (do
          let output := (create .live Shape.tasks true).output output
          (← Negotiation.runRemainder .live remainder output).intoValue) (.ok (.list chosen)) ∧
        EndsIn Shape.taskState
          (do (← stillUnknown.run .live (.ofValues [Shape.unknownTask])).intoValue)
          (.ok (.list chosen)) := by
  have hliterals (v : Value) (hv : stillUnknown.HasLiteral v) :
      Shape.taskState.Shows v (.ofValue v) := by
    rw [literal_of_stillUnknown hv]
    rfl
  obtain ⟨source, predicate, segment, added, hfilter, hsegment, hplan, hfilters⟩ :=
    partly_filters (show ofExpr Datum.unseen Shape.tasks.schema stillUnknown = .ok (.partly _ _)
      from rfl) hliterals true
  cases hfilter
  cases hsegment
  have hcarries : Shape.Carries (.ofSchema Shape.tasks.schema) Shape.tasks Shape.taskState
      (.object [("done", .null)]) (.item Shape.tasks [("done", .null)]) :=
    ⟨_, ⟨_, Shape.shows_unknownTask, Shape.stands_unknownTask, trivial⟩, Shape.shows_unknownTask⟩
  have hrows : Yields .empty Shape.taskState (.ofValues [Shape.unknownTask]) (ofData _) :=
    yields_ofValues (.cons Shape.shows_unknownTask .nil)
  obtain ⟨output, chosen, houtput, -, hremainder, hwhole⟩ := hfilters _ _ (.cons hcarries .nil)
  refine ⟨_, _, output, chosen, rfl, ?_, hremainder, hwhole _ _ hrows ?_⟩
  · have hpipeline : _ = [added] := congrArg Plan.pipeline hplan
    rw [← hpipeline] at houtput
    exact houtput
  · exact endsIn_of_denote hrows (fun v hv => hliterals v (hv.part (show
      (Expr.allItems Shape.tasks.schema, ChildScope.same) ∈ _ from List.mem_cons_self))) rfl

section Late

def notes : SourceRef where
  id := 0
  name := "notes"
  schema := { name := "notes", properties := [⟨"x", .int, false⟩], distinct := by simp }

def people : SourceRef where
  id := 1
  name := "people"
  schema :=
    { name := "people", properties := [⟨"id", .int, true⟩]
      distinct := List.pairwise_singleton _ _ }

/-- Assigns the field that it is to compute, and fails. -/
def assigning : Loader where
  id := 0
  assign := [("x", .int 5)]
  body := .arithmetic .divide (.literal (.int 1)) (.literal (.int 0)) .int

/-- A state with two notes, of which one waits for its loader, and two people. -/
def lateState : World where
  cells :=
    #[{ source := notes, slots := [("x", .deferred assigning)] },
      { source := notes, slots := [("x", .resolved (.int 5))] },
      { source := people, slots := [("id", .resolved (.int 1))] },
      { source := people, slots := [("id", .resolved (.int 2))] }]
  calls := #[0]

def person (n : Int64) : Datum := .item people [("id", .int n)]

/-- The people with a certain identity, as long as the two notes are equal. -/
def whileEqual : Expr :=
  .filter (.allItems people.schema) (.boolean .and
    [.comparison .equal (.literal (.item { cell := 0, source := notes }))
        (.literal (.item { cell := 1, source := notes })),
      .comparison .equal (.field (.context 0 (.item people.schema)) "id" .int)
        (.literal (.int 2))])

/-- Two notes are not equal while one cannot be loaded. But its loader assigns the field before
it fails, so from the second element on they are. Evaluated over one element less, the
remainder does not come that far. -/
theorem partly_differs_assigning :
    ∃ plan remainder output,
      ofExpr Datum.unseen people.schema whileEqual = .ok (.partly plan remainder) ∧
        List.Forall₂ (Shape.Carries (.ofSchema people.schema) people lateState)
          [.object [("id", .int 1)], .object [("id", .int 2)]] [person 1, person 2] ∧
        runPlan? people.schema plan [.object [("id", .int 1)], .object [("id", .int 2)]] =
          some output ∧
        EndsIn lateState
          (do (← whileEqual.run .live (.ofValues
            [.item { cell := 2, source := people }, .item { cell := 3, source := people }])).intoValue)
          (.ok (.list [person 2])) ∧
        EndsIn lateState (do
          let output := (create .live people true).output output
          (← Negotiation.runRemainder .live remainder output).intoValue) (.ok (.list [])) := by
  have carries {n : Int64} {m : Int} (cell : Nat) (hcell : lateState.cells[cell]? =
        some { source := people, slots := [("id", .resolved (.int n))] })
      (hread : Document.toValue (.int m) = .int n) :
      Shape.Carries (.ofSchema people.schema) people lateState (.object [("id", .int m)])
        (person n) := by
    have hshows : lateState.Shows (.item { cell, source := people }) (person n) :=
      World.shows_item.2 ⟨rfl, [("id", .int n)], hcell, rfl, .cons ⟨rfl, rfl⟩ .nil⟩
    have hrow : Document.toRow people.schema (.object [("id", .int m)]) =
        .ok [("id", .int n)] := by
      rw [← hread]
      rfl
    refine ⟨_, ⟨_, hshows, ⟨rfl, _, _, rfl, hrow, ⟨_, rfl, rfl⟩, rfl, fun property hproperty => ?_,
      fun _ => .cons ⟨rfl, rfl⟩ .nil⟩, trivial⟩, hshows⟩
    obtain rfl := List.mem_singleton.1 hproperty
    exact ⟨.int n, rfl, rfl, fun _ => hread⟩
  refine ⟨_, _, _, rfl, .cons (carries 2 rfl rfl) (.cons (carries 3 rfl rfl) .nil), rfl, ?_, ?_⟩
  · exact World.shows_list.2 (.cons (World.shows_item.2
      ⟨rfl, [("id", .int 2)], rfl, rfl, .cons ⟨rfl, rfl⟩ .nil⟩) .nil)
  · exact World.shows_list.2 .nil

end Late

end Coverage

end RecordAlgebra
