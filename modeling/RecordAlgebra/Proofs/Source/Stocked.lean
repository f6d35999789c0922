import RecordAlgebra.Proofs.Plan.Remainders
import RecordAlgebra.Proofs.Plan.Translations
import RecordAlgebra.Proofs.Source.Documents

/-!
# What a document store has in stock

Whatever was saved and deleted, every document of a store is read as an item with known data.
A scan gives the rows of these items as often as it is repeated, and an offer of an expression
that was built is always answered: the store declines, or it gives what the expression means
over the data of its items.
-/

namespace RecordAlgebra

theorem exists_forall₂_of_forall {α β : Type} {R : α → β → Prop} {as : List α}
    (h : ∀ a ∈ as, ∃ b, R a b) : ∃ bs, List.Forall₂ R as bs := by
  induction as with
  | nil => exact ⟨[], .nil⟩
  | cons a rest ih =>
      obtain ⟨⟨b, hb⟩, hrest⟩ := List.forall_mem_cons.1 h
      obtain ⟨bs, hbs⟩ := ih hrest
      exact ⟨b :: bs, .cons hb hbs⟩

namespace Source.Documents

variable {ref : SourceRef} {w w' : World} {lit : Value → Datum} {data : List Datum}

section Filling

/-- If what is read for a save can be stored, the records in it have distinct fields, and its
times exist. This is so for all values that operations make. -/
def StoresData (ref : SourceRef) (item : ItemRef) (w : World) : Prop :=
  ∀ fields row document w₁ w₂, (keyFields .live ref item).run w = (.ok fields, w₁) →
    (Item.entries ItemAccess.live.field item).run w₁ = (.ok row, w₂) →
    Document.ofRow ref.schema row = .ok document →
    ∀ property ∈ ref.schema.properties, (Document.valueIn row property.name).IsData ∧
      (Document.valueIn row property.name).timesExist = true

/-- The states to which saves and deletions lead from an empty store, whether or not they
succeed. Anything else that leaves the documents alone may happen in between. -/
inductive Filled (ref : SourceRef) : World → Prop
  | empty {w : World} (h : contents ref w = []) : Filled ref w
  | saved {w : World} {item : ItemRef} (h : Filled ref w) (hdata : StoresData ref item w) :
      Filled ref (((create .live ref true).saveItem item).run w).2
  | deleted {w : World} (h : Filled ref w) (item : ItemRef) :
      Filled ref (((create .live ref true).deleteItem item).run w).2
  | aside {w w' : World} (h : Filled ref w) (hsame : contents ref w' = contents ref w) :
      Filled ref w'

/-- All documents were stored for rows whose data are known. -/
def AllStored (schema : Schema) (documents : Fields Json) : Prop :=
  ∀ entry ∈ documents, ∃ row ds, Document.Stores schema entry.2 row ds

theorem Filled.allStored (h : Filled ref w) : AllStored ref.schema (contents ref w) := by
  induction h with
  | empty hempty =>
      rw [hempty]
      exact nofun
  | @saved w item _ hdata ih =>
      rcases contents_saveItem ref true item w with hkept | ⟨key, document, w₁, hprepared, hinserted⟩
      · rwa [hkept]
      · rw [hinserted]
        obtain ⟨fields, row, w₂, w₃, hfields, hrow, -, hdocument⟩ := prepareSave_ok hprepared
        have hvalues := hdata fields row document w₂ w₃ hfields hrow hdocument
        have hstored := Document.exists_stores_of_ofRow (fun property h => (hvalues property h).1)
          (fun property h => (hvalues property h).2) hdocument
        intro entry hentry
        rcases Fields.mem_insert hentry with rfl | hentry
        · exact hstored
        · exact ih entry hentry
  | @deleted w _ item ih =>
      rcases contents_deleteItem ref true item w with hkept | ⟨key, hremoved⟩
      · rwa [hkept]
      · rw [hremoved]
        exact fun entry hentry => ih entry (List.mem_filter.1 hentry).1
  | aside _ hsame ih =>
      rw [hsame]
      exact ih

/-- The documents of a store are those of items with known data. -/
theorem Filled.exists_stock (h : Filled ref w) :
    ∃ data, Stock ref ((contents ref w).map Prod.snd) data := by
  refine exists_forall₂_of_forall fun document hdocument => ?_
  obtain ⟨entry, hentry, rfl⟩ := List.mem_map.1 hdocument
  obtain ⟨row, ds, hstores⟩ := h.allStored entry hentry
  exact ⟨_, row, ds, rfl, hstores⟩

end Filling

section Reading

theorem contents_extends (h : w.Extends w') : contents ref w' = contents ref w := by
  have hcontents (w : World) : contents ref w =
      ((w.stores[ref.id]?.map Store.contents).map Prod.snd).getD [] := by
    rw [contents]
    cases w.stores[ref.id]? <;> rfl
  rw [hcontents, hcontents, h.stores]

/-- Counting what a store was asked for changes nothing that it holds. -/
theorem extends_modify {f : Store → Store} (h : ∀ store, (f store).contents = store.contents)
    (w : World) (id : Nat) : w.Extends { w with stores := w.stores.modify id f } := by
  refine ⟨fun _ _ hcell => hcell, fun i => ?_⟩
  rw [Array.getElem?_modify]
  split
  · cases w.stores[i]? with
    | none => rfl
    | some store => exact congrArg some (h store)
  · rfl

theorem extends_countScan (ref : SourceRef) (w : World) : w.Extends (countScan ref w) :=
  extends_modify (f := fun store => { store with scans := store.scans + 1 }) (fun _ => rfl) w ref.id

/-- The state in which an expression has just been executed. -/
def countNative (ref : SourceRef) (w : World) : World :=
  { w with
    stores := w.stores.modify ref.id fun store => { store with natives := store.natives + 1 } }

theorem extends_countNative (ref : SourceRef) (w : World) : w.Extends (countNative ref w) :=
  extends_modify (f := fun store => { store with natives := store.natives + 1 }) (fun _ => rfl) w
    ref.id

variable (hstock : Stock ref ((contents ref w).map Prod.snd) data)

include hstock

/-- A scan gives the rows of the items in stock. -/
theorem scan_succeeds : ∃ rows, List.Forall₂ ((create .live ref true).ShowsRow w) rows data ∧
    ∀ w', w.Extends w' → Succeeds w' (scan ref true) fun _ found => found = rows := by
  obtain ⟨rows, hrows, hshow⟩ := Segment.rows_show true w hstock
  refine ⟨rows, hshow,
    fun w' hw => ⟨rows, countScan ref w', ?_, extends_countScan ref w', rfl, rfl⟩⟩
  rw [scan_run, contents_extends hw, rowsOf, hrows]
  rfl

end Reading

section Offers

variable {view : ItemRef → String} {e : Expr}

/-- The state in which a store has just responded. What is executed is counted. -/
def stateResponded (ref : SourceRef) (execution : Execution) (w : World) : World :=
  if isDeclined execution then w else countNative ref w

theorem extends_stateResponded (ref : SourceRef) (execution : Execution) (w : World) :
    w.Extends (stateResponded ref execution w) := by
  rw [stateResponded]
  split
  · exact .refl w
  · exact extends_countNative ref w

theorem offer_run {coverage : Coverage} {w : World}
    (h : Coverage.ofExpr w.view ref.schema e = .ok coverage) :
    let execution := executionOf ref coverage ((contents ref w).map Prod.snd)
    (offer ref e).run w = (.ok execution, stateResponded ref execution w) := by
  intro execution
  have hcount : (do
      if !isDeclined execution then
        ref.modifyStore fun store => { store with natives := store.natives + 1 }
      pure execution : EvalM Execution).run w =
        (.ok execution, stateResponded ref execution w) := by
    rw [stateResponded]
    cases isDeclined execution <;> rfl
  have hview : EvalM.view.run w = (.ok w.view, w) := rfl
  rw [← hcount, offer, EvalM.run_bind_ok hview, h]
  rfl

theorem eq_partly_of_executionOf {coverage : Coverage} {documents : List Json}
    {output : NativeOutput} {remainder : Expr}
    (h : executionOf ref coverage documents = .partly output remainder) :
    ∃ plan, coverage = .partly plan remainder ∧ runPlan? ref.schema plan documents = some output := by
  cases coverage with
  | nothing => cases h
  | full plan =>
      rw [executionOf] at h
      split at h <;> cases h
  | partly plan rest =>
      rw [executionOf] at h
      split at h
      next hplan =>
        cases h
        exact ⟨plan, rfl, hplan⟩
      next => cases h

/-- An expression that was built has a coverage, by which the store responds to it. -/
theorem exists_offer_run (ref : SourceRef) (built : e.Built view) (w : World) : ∃ coverage w',
    Coverage.ofExpr w.view ref.schema e = .ok coverage ∧ (offer ref e).run w =
      (.ok (executionOf ref coverage ((contents ref w).map Prod.snd)), w') ∧
    w.Extends w' ∧ w'.inputs = w.inputs := by
  obtain ⟨coverage, hcoverage⟩ := Coverage.exists_ofExpr w.view ref.schema built
  refine ⟨coverage, _, hcoverage, offer_run hcoverage, extends_stateResponded ref _ w, ?_⟩
  rw [stateResponded]
  split <;> rfl

variable (built : e.Built view) (hlengths : e.ProjectsNoLength)
  (hcounts : e.CountsAlike ref.schema) (literals : ∀ v, e.HasLiteral v → w.Shows v (lit v))
  (hstock : Stock ref ((contents ref w).map Prod.snd) data)

include built hlengths hcounts literals hstock

/-- Every offer is answered, and an answer agrees with what the expression means. -/
theorem offer_succeeds (hw : w.Extends w') :
    Succeeds w' (offer ref e) ((create .live ref true).Answers lit data e) := by
  obtain ⟨coverage, w'', hcoverage, hrun, hextends, hinputs⟩ := exists_offer_run ref built w'
  refine ⟨_, w'', hrun, hextends, hinputs, ?_⟩
  rw [contents_extends hw]
  exact Coverage.execution_answers hcoverage hlengths hcounts built.carriesType_and_proper.2
    (fun v hv => ((literals v hv).mono hw).mono hextends) hstock

/-- What the store executes in part does not fail. -/
theorem denote_of_offer_partly {output : NativeOutput} {remainder : Expr} {w'' : World}
    (hw : w.Extends w') (h : (offer ref e).run w' = (.ok (.partly output remainder), w'')) :
    ∃ r, e.denote lit [.input data] = .ok r := by
  obtain ⟨coverage, _, hcoverage, hrun, -⟩ := exists_offer_run ref built w'
  have hexecution := Except.ok.inj (Prod.ext_iff.1 (hrun.symm.trans h)).1
  rw [contents_extends hw] at hexecution
  obtain ⟨plan, rfl, hplan⟩ := eq_partly_of_executionOf hexecution
  exact (Coverage.ofExpr_answers_partly hcoverage hlengths hcounts built.carriesType_and_proper.2
    literals hstock hplan).2

end Offers

end Source.Documents

end RecordAlgebra
