import RecordAlgebra.Proofs.Document.Identity
import RecordAlgebra.Proofs.Source.Changes

/-!
# What a document store holds

Saving and deleting change the documents in one step, after everything that can fail. As
long as the key of what is saved is what its document says, every document is kept under
the text of its identity. So no two documents have the same identity, and what was read
from a document finds it again.
-/

namespace RecordAlgebra

namespace Source.Documents

variable {ref : SourceRef} {item : ItemRef} {w w' : World}

/-- The documents of a store, each with its key. -/
def contents (ref : SourceRef) (w : World) : Fields Json :=
  (w.stores[ref.id]?.getD {}).documents

theorem contents_congr (h : w'.stores = w.stores) : contents ref w' = contents ref w := by
  rw [contents, h, contents]

/-- Changing the documents of a store changes nothing if there is no such store. -/
theorem contents_change (g : Fields Json → Fields Json) (w : World) :
    contents ref w = [] ∧ contents ref { w with
      stores := w.stores.modify ref.id fun store => { store with documents := g store.documents } } = [] ∨
    contents ref { w with
      stores := w.stores.modify ref.id fun store => { store with documents := g store.documents } } =
        g (contents ref w) := by
  simp only [contents, Array.getElem?_modify, if_true]
  cases w.stores[ref.id]? with
  | none => exact .inl ⟨rfl, rfl⟩
  | some store => exact .inr rfl

section Reading

theorem keyFields_spends (stores : Array Store) (ref : SourceRef) (item : ItemRef) :
    Spends (.storing stores) 0 (fun _ => True) (keyFields .live ref item) := by
  have hidentity := Item.identity?_spends (ItemAccess.live_stores stores).field item
  refine hidentity.first fun found _ => ?_
  cases found with
  | none => exact Item.readAll_spends (ItemAccess.live_stores stores).field item _
  | some fields =>
      simp only
      split
      · exact .raise trivial
      · exact .pure trivial

theorem keyOf_spends (stores : Array Store) (ref : SourceRef) (item : ItemRef) :
    Spends (.storing stores) 0 (fun _ => True) (keyOf .live ref item) :=
  (keyFields_spends stores ref item).first fun _ _ =>
    .lift (fun _ _ => trivial) fun _ _ => trivial

/-- Everything of a save that comes before the documents change. -/
def prepareSave (source : Source) (ref : SourceRef) (item : ItemRef) : EvalM (String × Json) := do
  source.checkOwned item
  let key ← keyOf .live ref item
  let row ← Item.entries ItemAccess.live.field item
  let document ← EvalM.lift (Document.ofRow ref.schema row)
  pure (key, document)

/-- Everything of a deletion that comes before the documents change. -/
def prepareDelete (source : Source) (ref : SourceRef) (item : ItemRef) : EvalM String := do
  source.checkOwned item
  let key ← keyOf .live ref item
  if (← ref.store).documents.contains key then pure key
  else EvalM.raise ((Error.ofCause .documentNotStored).attach "source" ref.name)

theorem prepareSave_spends (source : Source) (stores : Array Store) (item : ItemRef) :
    Spends (.storing stores) 0 (fun _ => True) (prepareSave source ref item) := by
  refine (checkOwned_spends source stores item).first fun _ _ => ?_
  refine (keyOf_spends stores ref item).first fun _ _ => ?_
  refine (Item.readAll_spends (ItemAccess.live_stores stores).field item _).first fun row _ => ?_
  have hdocument : Spends (.storing stores) 0 (fun _ => True)
      (EvalM.lift (Document.ofRow ref.schema row)) :=
    .lift (fun _ _ => trivial) fun _ _ => trivial
  exact hdocument.map fun _ _ => trivial

theorem prepareDelete_spends (source : Source) (stores : Array Store) (item : ItemRef) :
    Spends (.storing stores) 0 (fun _ => True) (prepareDelete source ref item) := by
  refine (checkOwned_spends source stores item).first fun _ _ => ?_
  refine (keyOf_spends stores ref item).first fun _ _ => ?_
  refine (store_spends ref stores).first fun store _ => ?_
  split
  · exact .pure trivial
  · exact .raise trivial

variable {scansAllowed : Bool}

theorem saveItem_eq (ref : SourceRef) (scansAllowed : Bool) (item : ItemRef) :
    (create .live ref scansAllowed).saveItem item =
      prepareSave (create .live ref scansAllowed) ref item >>= fun entry =>
        ref.modifyStore fun store =>
          { store with documents := store.documents.insert entry.1 entry.2 } := by
  simp only [saveItem, prepareSave, bind_assoc, pure_bind]
  rfl

theorem deleteItem_eq (ref : SourceRef) (scansAllowed : Bool) (item : ItemRef) :
    (create .live ref scansAllowed).deleteItem item =
      prepareDelete (create .live ref scansAllowed) ref item >>= fun key =>
        ref.modifyStore fun store =>
          { store with documents := store.documents.filter fun entry => entry.1 != key } := by
  simp only [deleteItem, prepareDelete, bind_assoc]
  congr 1
  funext _
  show delete .live ref item = _
  rw [delete]
  congr 1
  funext key
  congr 1
  funext store
  split
  · rfl
  · rfl

/-- What a save does to the documents. -/
theorem contents_saveItem (ref : SourceRef) (scansAllowed : Bool) (item : ItemRef) (w : World) :
    contents ref (((create .live ref scansAllowed).saveItem item).run w).2 = contents ref w ∨
      ∃ key document w₁, (prepareSave (create .live ref scansAllowed) ref item).run w =
          (.ok (key, document), w₁) ∧
        contents ref (((create .live ref scansAllowed).saveItem item).run w).2 =
          (contents ref w).insert key document := by
  rw [saveItem_eq]
  rcases change_cases _ (prepareSave_spends _ _ item) with
    ⟨stop, w₁, hrun, hstores⟩ | ⟨⟨key, document⟩, w₁, hprepared, hstores, hrun⟩
  · rw [hrun]
    exact .inl (contents_congr hstores)
  · rw [hrun, ← contents_congr hstores]
    exact (contents_change (fun documents => documents.insert key document) w₁).imp
      (fun h => h.2.trans h.1.symm) fun h => ⟨key, document, w₁, hprepared, h⟩

/-- What a deletion does to the documents. -/
theorem contents_deleteItem (ref : SourceRef) (scansAllowed : Bool) (item : ItemRef) (w : World) :
    contents ref (((create .live ref scansAllowed).deleteItem item).run w).2 = contents ref w ∨
      ∃ key, contents ref (((create .live ref scansAllowed).deleteItem item).run w).2 =
        (contents ref w).filter fun entry => entry.1 != key := by
  rw [deleteItem_eq]
  rcases change_cases _ (prepareDelete_spends _ _ item) with
    ⟨stop, w₁, hrun, hstores⟩ | ⟨key, w₁, -, hstores, hrun⟩
  · rw [hrun]
    exact .inl (contents_congr hstores)
  · rw [hrun, ← contents_congr hstores]
    exact (contents_change (fun documents => documents.filter fun entry => entry.1 != key) w₁).imp
      (fun h => h.2.trans h.1.symm) fun h => ⟨key, h⟩

end Reading

/-- The key that a save is going to use is what the document will say: the fields that are read
for the key are read again for the document, in the form in which they are stored. So no
integer stands in for a double, and no zero is negative. -/
def KeyInForm (ref : SourceRef) (item : ItemRef) (w : World) : Prop :=
  ∀ fields row w₁ w₂, (keyFields .live ref item).run w = (.ok fields, w₁) →
    (Item.entries ItemAccess.live.field item).run w₁ = (.ok row, w₂) →
    fields = Document.keyRow ref.schema row ∧
    (∀ property ∈ ref.schema.keyProperties,
      (Document.valueIn row property.name).isInForm property.type = true) ∧
    ∀ property ∈ ref.schema.properties, (Document.valueIn row property.name).timesExist = true

/-- The states to which saves and deletions lead from an empty store, whether or not they
succeed. Anything else that leaves the documents alone may happen in between. -/
inductive Reached (ref : SourceRef) (scansAllowed : Bool) : World → Prop
  | empty {w : World} (h : contents ref w = []) : Reached ref scansAllowed w
  | saved {w : World} {item : ItemRef} (h : Reached ref scansAllowed w) (hsource : item.source = ref)
      (hform : KeyInForm ref item w) :
      Reached ref scansAllowed (((create .live ref scansAllowed).saveItem item).run w).2
  | deleted {w : World} (h : Reached ref scansAllowed w) (item : ItemRef) :
      Reached ref scansAllowed (((create .live ref scansAllowed).deleteItem item).run w).2
  | aside {w w' : World} (h : Reached ref scansAllowed w) (hsame : contents ref w' = contents ref w) :
      Reached ref scansAllowed w'

/-- Every document is kept under the text of its identity. -/
structure Keeps (schema : Schema) (documents : Fields Json) : Prop where
  distinct : documents.names.Nodup
  kept : ∀ entry ∈ documents, ∃ row, Document.IsKeptAs schema entry.1 entry.2 row

namespace Keeps

variable {schema : Schema} {documents : Fields Json}

theorem nil (schema : Schema) : Keeps schema [] where
  distinct := List.nodup_nil
  kept := nofun

theorem filter (h : Keeps schema documents) (p : String × Json → Bool) :
    Keeps schema (documents.filter p) where
  distinct := (h.distinct.sublist (List.filter_sublist.map Prod.fst))
  kept entry hentry := h.kept entry (List.mem_filter.1 hentry).1

theorem insert (h : Keeps schema documents) {key : String} {document : Json} {row : Row}
    (hkept : Document.IsKeptAs schema key document row) :
    Keeps schema (Fields.insert key document documents) where
  distinct := Fields.nodup_names_insert h.distinct key document
  kept entry hentry := by
    have hget := Fields.get?_eq_some_of_mem (Fields.nodup_names_insert h.distinct key document) hentry
    rw [Fields.get?_insert] at hget
    split at hget
    · next hname =>
        cases hget
        rw [hname]
        exact ⟨row, hkept⟩
    · exact h.kept entry (Fields.mem_of_get? hget)

end Keeps

/-- The fields of a complete identity. -/
theorem keyFields_complete {fields : Fields Value} {w₁ : World}
    (h : (keyFields .live ref item).run w = (.ok fields, w₁))
    (hidentity : item.schema.hasIdentity = true) : ∀ field ∈ fields, field.2.isNull = false := by
  obtain ⟨found, w₂, hfound, hrest⟩ := EvalM.exists_of_run_bind h
  rw [Item.identity?, if_pos hidentity] at hfound
  obtain ⟨read, w₃, -, hread⟩ := EvalM.exists_of_run_bind hfound
  cases hread
  simp only at hrest
  cases hnull : read.find? fun field => field.2.isNull with
  | some field =>
      rw [hnull] at hrest
      cases hrest
  | none =>
      rw [hnull] at hrest
      cases hrest
      intro field hfield
      have hnot := List.find?_eq_none.1 hnull field hfield
      simpa using hnot

theorem prepareSave_ok {source : Source} {key : String} {document : Json} {w₁ : World}
    (h : (prepareSave source ref item).run w = (.ok (key, document), w₁)) :
    ∃ fields row w₂ w₃, (keyFields .live ref item).run w = (.ok fields, w₂) ∧
      (Item.entries ItemAccess.live.field item).run w₂ = (.ok row, w₃) ∧
      keyText fields = .ok key ∧ Document.ofRow ref.schema row = .ok document := by
  obtain ⟨_, w₂, howned, h⟩ := EvalM.exists_of_run_bind h
  obtain ⟨key', w₃, hkey, h⟩ := EvalM.exists_of_run_bind h
  obtain ⟨row, w₄, hrow, h⟩ := EvalM.exists_of_run_bind h
  obtain ⟨document', w₅, hdocument, h⟩ := EvalM.exists_of_run_bind h
  cases h
  rw [checkOwned_ok howned] at hkey
  obtain ⟨fields, w₆, hfields, hkey⟩ := EvalM.exists_of_run_bind hkey
  obtain ⟨htext, rfl⟩ := EvalM.of_run_lift_eq_ok hkey
  exact ⟨fields, row, _, _, hfields, hrow, htext, (EvalM.of_run_lift_eq_ok hdocument).1⟩

/-- Whatever was saved and deleted, every document is kept under the text of its identity. -/
theorem Reached.keeps {scansAllowed : Bool}
    (hplain : ∀ property ∈ ref.schema.properties, property.type ≠ .any)
    (h : Reached ref scansAllowed w) : Keeps ref.schema (contents ref w) := by
  induction h with
  | empty hempty =>
      rw [hempty]
      exact .nil _
  | @saved w item _ hsource hform ih =>
      rcases contents_saveItem ref scansAllowed item w with hkept | ⟨key, document, w₁, hprepared,
        hinserted⟩
      · rwa [hkept]
      · rw [hinserted]
        obtain ⟨fields, row, w₂, w₃, hfields, hrow, hkey, hdocument⟩ := prepareSave_ok hprepared
        obtain ⟨hsame, hinForm, htimes⟩ := hform fields row w₂ w₃ hfields hrow
        have hcomplete : ref.schema.hasIdentity = true →
            ∀ field ∈ Document.keyRow ref.schema row, field.2.isNull = false := by
          intro hidentity
          rw [← hsame]
          apply keyFields_complete hfields
          rw [ItemRef.schema, hsource]
          exact hidentity
        rw [hsame] at hkey
        exact ih.insert (Document.isKeptAs_of_ofRow hplain htimes hinForm hcomplete hkey hdocument)
  | @deleted w _ item ih =>
      rcases contents_deleteItem ref scansAllowed item w with hkept | ⟨key, hremoved⟩
      · rwa [hkept]
      · rw [hremoved]
        exact ih.filter _
  | aside _ hsame ih =>
      rw [hsame]
      exact ih

section Unmodified

variable {row : Row} {key : String} {document : Json} {scansAllowed : Bool}

theorem keyFields_run (hsource : item.source = ref) (hholds : HoldsRow item row w)
    (hkept : Document.IsKeptAs ref.schema key document row) :
    (keyFields .live ref item).run w = (.ok (Document.keyRow ref.schema row), w) := by
  have hschema : item.schema = ref.schema := by rw [ItemRef.schema, hsource]
  by_cases hidentity : ref.schema.hasIdentity = true
  · have hnames : ∀ name ∈ ref.schema.identityProperties.map Property.name,
        w.slot? item name = some (.resolved (Document.valueIn row name)) := by
      intro name hname
      apply hholds
      rw [hschema]
      obtain ⟨property, hproperty, rfl⟩ := List.mem_map.1 hname
      exact List.mem_map_of_mem (List.mem_filter.1 hproperty).1
    have hrow : Document.keyRow ref.schema row = (ref.schema.identityProperties.map Property.name).map
        fun name => (name, Document.valueIn row name) := by
      rw [Document.keyRow, Schema.keyProperties, if_pos hidentity, List.map_map]
      rfl
    have hnone : ((Document.keyRow ref.schema row).find? fun field => field.2.isNull) = none := by
      apply List.find?_eq_none.2
      intro field hfield
      simp [hkept.complete hidentity field hfield]
    have hfound : (Item.identity? ItemAccess.live.field item).run w =
        (.ok (some (Document.keyRow ref.schema row)), w) := by
      rw [Item.identity?, hschema, if_pos hidentity, EvalM.run_bind_ok (readAll_run (.inl rfl) hnames), hrow]
      rfl
    rw [keyFields, EvalM.run_bind_ok hfound]
    simp only [hnone]
    rfl
  · have hfound : (Item.identity? ItemAccess.live.field item).run w = (.ok none, w) := by
      rw [Item.identity?, hschema, if_neg hidentity]
      rfl
    have hrow : Document.keyRow ref.schema row = item.schema.names.map
        fun name => (name, Document.valueIn row name) := by
      rw [Document.keyRow, Schema.keyProperties, if_neg hidentity, hschema, Schema.names, List.map_map]
      rfl
    rw [keyFields, EvalM.run_bind_ok hfound, hrow]
    exact readAll_run (.inl rfl) hholds

theorem keyOf_run (hsource : item.source = ref) (hholds : HoldsRow item row w)
    (hkept : Document.IsKeptAs ref.schema key document row) :
    (keyOf .live ref item).run w = (.ok key, w) := by
  rw [keyOf, EvalM.run_bind_ok (keyFields_run hsource hholds hkept), hkept.key]
  rfl

theorem entries_run (hsource : item.source = ref) (hholds : HoldsRow item row w)
    (hkept : Document.IsKeptAs ref.schema key document row) :
    (Item.entries ItemAccess.live.field item).run w = (.ok row, w) := by
  rw [Item.entries, readAll_run (.inl rfl) hholds, ItemRef.schema, hsource, ← hkept.whole]

/-- Saving what a document says changes nothing. -/
theorem saveItem_run (scansAllowed : Bool) (hsource : item.source = ref) (hholds : HoldsRow item row w)
    (hkept : Document.IsKeptAs ref.schema key document row)
    (hstored : (contents ref w).get? key = some document) :
    ∃ w', ((create .live ref scansAllowed).saveItem item).run w = (.ok (), w') ∧
      contents ref w' = contents ref w := by
  have hprepare : (prepareSave (create .live ref scansAllowed) ref item).run w =
      (.ok (key, document), w) := by
    rw [prepareSave, EvalM.run_bind_ok (checkOwned_run hsource),
      EvalM.run_bind_ok (keyOf_run hsource hholds hkept),
      EvalM.run_bind_ok (entries_run hsource hholds hkept), hkept.stored]
    rfl
  refine ⟨_, by rw [saveItem_eq, EvalM.run_bind_ok hprepare]; rfl, ?_⟩
  rcases contents_change (fun documents => documents.insert key document) w with
    ⟨hnone, hnone'⟩ | hinserted
  · exact hnone'.trans hnone.symm
  · exact hinserted.trans (Fields.insert_of_get? hstored)

/-- Deleting what a document says removes the document. -/
theorem deleteItem_run (scansAllowed : Bool) (hsource : item.source = ref) (hholds : HoldsRow item row w)
    (hkept : Document.IsKeptAs ref.schema key document row)
    (hstored : (contents ref w).get? key = some document) :
    ∃ w', ((create .live ref scansAllowed).deleteItem item).run w = (.ok (), w') ∧
      contents ref w' = (contents ref w).filter fun entry => entry.1 != key := by
  have hcontains : (contents ref w).contains key = true := by
    rw [Fields.contains_eq_isSome_get?, hstored]
    rfl
  rw [contents] at hcontains
  have hprepare : (prepareDelete (create .live ref scansAllowed) ref item).run w = (.ok key, w) := by
    have hstore : ref.store.run w = (.ok (w.stores[ref.id]?.getD {}), w) := rfl
    rw [prepareDelete, EvalM.run_bind_ok (checkOwned_run hsource),
      EvalM.run_bind_ok (keyOf_run hsource hholds hkept), EvalM.run_bind_ok hstore, if_pos hcontains]
    rfl
  refine ⟨_, by rw [deleteItem_eq, EvalM.run_bind_ok hprepare]; rfl, ?_⟩
  rcases contents_change (fun documents => documents.filter fun entry => entry.1 != key) w with
    ⟨hnone, hnone'⟩ | hremoved
  · rw [hnone]
    exact hnone'
  · exact hremoved

end Unmodified

section Scanning

variable {scansAllowed : Bool} {rows : List Row}

/-- The state in which a scan has just been counted. -/
def countScan (ref : SourceRef) (w : World) : World :=
  { w with stores := w.stores.modify ref.id fun store => { store with scans := store.scans + 1 } }

theorem contents_countScan (ref : SourceRef) (w : World) :
    contents ref (countScan ref w) = contents ref w := by
  simp only [contents, countScan, Array.getElem?_modify, if_true]
  cases w.stores[ref.id]? with
  | none => rfl
  | some store => rfl

theorem scan_run (ref : SourceRef) (w : World) :
    (scan ref true).run w = (EvalM.lift (rowsOf ref ((contents ref w).map Prod.snd))).run (countScan ref w) := by
  rw [← contents_countScan]
  rfl

/-- A scan that succeeds leaves the documents alone and gives their rows in order. -/
theorem scan_ok (h : (scan ref scansAllowed).run w = (.ok rows, w')) :
    contents ref w' = contents ref w ∧
      (contents ref w).map (fun entry => Document.toRow ref.schema entry.2) = rows.map .ok := by
  cases scansAllowed with
  | false => cases h
  | true =>
      rw [scan_run] at h
      obtain ⟨hrows, rfl⟩ := EvalM.of_run_lift_eq_ok h
      have hmap := Document.map_eq_of_mapM_eq_ok hrows
      rw [List.map_map] at hmap
      exact ⟨contents_countScan ref w, hmap⟩

/-- What is kept can be scanned. -/
theorem exists_scan_run (h : Keeps ref.schema (contents ref w)) :
    ∃ rows w', (scan ref true).run w = (.ok rows, w') := by
  have hread : ∀ document ∈ (contents ref w).map Prod.snd, Document.toRow ref.schema document =
      .ok ((Document.toRow ref.schema document).toOption.getD []) := by
    intro document hdocument
    obtain ⟨entry, hentry, rfl⟩ := List.mem_map.1 hdocument
    obtain ⟨row, hkept⟩ := h.kept entry hentry
    rw [hkept.read]
    rfl
  rw [scan_run, rowsOf, Document.mapM_eq_ok hread]
  exact ⟨_, _, rfl⟩

end Scanning

section Lawful

variable {scansAllowed : Bool} {rows : List Row}
  (hplain : ∀ property ∈ ref.schema.properties, property.type ≠ .any)

/-- What fails leaves the documents as they are. -/
theorem contents_of_failed {stop : Stop}
    (h : ((create .live ref scansAllowed).saveItem item).run w = (.error stop, w') ∨
      ((create .live ref scansAllowed).deleteItem item).run w = (.error stop, w')) :
    contents ref w' = contents ref w := by
  apply contents_congr
  rcases h with hrun | hrun
  · rw [saveItem_eq] at hrun
    exact stores_of_change_error _ (prepareSave_spends _ _ item) hrun
  · rw [deleteItem_eq] at hrun
    exact stores_of_change_error _ (prepareDelete_spends _ _ item) hrun

include hplain in
/-- Documents that are kept under different keys have different identities. -/
theorem Keeps.pairwise (h : Keeps ref.schema (contents ref w)) :
    (contents ref w).Pairwise fun a b => ¬ Document.SameIdentity ref.schema a.2 b.2 := by
  have hkeys : (contents ref w).Pairwise fun a b => a.1 ≠ b.1 := List.pairwise_map.1 h.distinct
  apply hkeys.imp_of_mem
  intro a b ha hb hne hsame
  obtain ⟨left, hleft⟩ := h.kept a ha
  obtain ⟨right, hright⟩ := h.kept b hb
  exact hne (hleft.key_eq hplain hright hsame)

/-- A row that was scanned is that of the document in its place. -/
theorem Keeps.exists_entry (h : Keeps ref.schema (contents ref w))
    (hscan : (scan ref scansAllowed).run w = (.ok rows, w')) {i : Nat} {row : Row}
    (hrow : rows[i]? = some row) : ∃ key document,
      (contents ref w)[i]? = some (key, document) ∧ Document.IsKeptAs ref.schema key document row := by
  have hread : ((contents ref w).map fun entry => Document.toRow ref.schema entry.2)[i]? =
      some (.ok row) := by
    rw [(scan_ok hscan).2, List.getElem?_map, hrow]
    rfl
  rw [List.getElem?_map, Option.map_eq_some_iff] at hread
  obtain ⟨⟨key, document⟩, hentry, hread⟩ := hread
  obtain ⟨row', hkept⟩ := h.kept _ (List.mem_of_getElem? hentry)
  cases hkept.read.symm.trans hread
  exact ⟨key, document, hentry, hkept⟩

/-- An item that was read from a document and not changed since finds it again. -/
theorem Keeps.unmodified (h : Keeps ref.schema (contents ref w))
    (hscan : (scan ref scansAllowed).run w = (.ok rows, w')) {i : Nat} {row : Row}
    (hrow : rows[i]? = some row) (w₂ : World) :
    ∃ item w₃, ((create .live ref scansAllowed).wrap row).run w₂ = (.ok item, w₃) ∧
      ∀ w₄, w₄.cell? item = w₃.cell? item → contents ref w₄ = contents ref w →
        (∃ w₅, ((create .live ref scansAllowed).deleteItem item).run w₄ = (.ok (), w₅) ∧
          contents ref w₅ = (contents ref w).eraseIdx i) ∧
        ∃ w₅, ((create .live ref scansAllowed).saveItem item).run w₄ = (.ok (), w₅) ∧
          contents ref w₅ = contents ref w := by
  obtain ⟨key, document, hentry, hkept⟩ := h.exists_entry hscan hrow
  have hnames : ∀ name ∈ row.names, name ∈ ref.schema.names := by
    intro name hname
    rw [hkept.whole] at hname
    simpa [Fields.names, Function.comp_def] using hname
  have hdeferred : (create .live ref scansAllowed).deferred = [] := rfl
  obtain ⟨item, w₃, hwrap, hsource, hholds⟩ := exists_wrap_run hdeferred hnames w₂
  change item.source = ref at hsource
  refine ⟨item, w₃, hwrap, ?_⟩
  intro w₄ hcell hcontents
  have hholds' : HoldsRow item row w₄ := by
    intro name hname
    rw [World.slot?, hcell]
    exact hholds name hname
  have hstored : (contents ref w₄).get? key = some document := by
    rw [hcontents]
    exact Fields.get?_eq_some_of_mem h.distinct (List.mem_of_getElem? hentry)
  constructor
  · obtain ⟨w₅, hrun, hremoved⟩ := deleteItem_run scansAllowed hsource hholds' hkept hstored
    rw [hcontents, Fields.filter_ne_eq_eraseIdx h.distinct hentry] at hremoved
    exact ⟨w₅, hrun, hremoved⟩
  · obtain ⟨w₅, hrun, hsame⟩ := saveItem_run scansAllowed hsource hholds' hkept hstored
    exact ⟨w₅, hrun, hsame.trans hcontents⟩

end Lawful

/-- The documents of a store obey its keys, for a schema without properties of any type. What
fails leaves them as they are. If every save uses a key in the form in which the document will
give it, no two documents have the same identity, all of them can be read, and an item that
was read and not changed since deletes exactly its document and is saved without effect. -/
theorem contents_lawful (ref : SourceRef) (scansAllowed : Bool)
    (hplain : ∀ property ∈ ref.schema.properties, property.type ≠ .any) :
    let source := create .live ref scansAllowed
    (∀ item stop w w', (source.saveItem item).run w = (.error stop, w') ∨
        (source.deleteItem item).run w = (.error stop, w') → contents ref w' = contents ref w) ∧
    ∀ w, Reached ref scansAllowed w →
      ((contents ref w).Pairwise fun a b => ¬ Document.SameIdentity ref.schema a.2 b.2) ∧
      (scansAllowed = true → ∃ rows w', source.scan.run w = (.ok rows, w')) ∧
      ∀ rows w₁, source.scan.run w = (.ok rows, w₁) →
        contents ref w₁ = contents ref w ∧ rows.length = (contents ref w).length ∧
        ∀ (i : Nat) (row : Row), rows[i]? = some row →
          ∀ w₂, ∃ item w₃, (source.wrap row).run w₂ = (.ok item, w₃) ∧
            ∀ w₄, w₄.cell? item = w₃.cell? item → contents ref w₄ = contents ref w →
              (∃ w₅, (source.deleteItem item).run w₄ = (.ok (), w₅) ∧
                contents ref w₅ = (contents ref w).eraseIdx i) ∧
              ∃ w₅, (source.saveItem item).run w₄ = (.ok (), w₅) ∧
                contents ref w₅ = contents ref w := by
  intro source
  constructor
  · intro item stop w w' hfailed
    exact contents_of_failed hfailed
  · intro w hw
    have hkeeps := hw.keeps hplain
    refine ⟨hkeeps.pairwise hplain, ?_, ?_⟩
    · intro hallowed
      subst hallowed
      exact exists_scan_run hkeeps
    · intro rows w₁ hscan
      obtain ⟨hcontents, hrows⟩ := scan_ok hscan
      have hlength := congrArg List.length hrows
      rw [List.length_map, List.length_map] at hlength
      exact ⟨hcontents, hlength.symm, fun i row hrow => hkeeps.unmodified hscan hrow⟩

theorem contents_lawful_one :
    let schema : Schema :=
      { name := "prices", properties := [⟨"id", .int, true⟩, ⟨"note", .text, false⟩]
        distinct := by decide }
    let ref : SourceRef := { id := 0, name := "prices", schema }
    let source := create .live ref true
    let w : World :=
      { cells := #[{ source := ref, slots := [("id", .resolved (.int 1)), ("note", .resolved .null)] }]
        stores := #[{}] }
    ∃ w₁, (source.saveItem { cell := 0, source := ref }).run w = (.ok (), w₁) ∧
      contents ref w₁ = [("[1]", .object [("id", .int 1), ("note", .null)])] ∧
      ∃ row w₂ item w₃ w₄, source.scan.run w₁ = (.ok [row], w₂) ∧
        (source.wrap row).run w₁ = (.ok item, w₃) ∧
        (source.deleteItem item).run w₃ = (.ok (), w₄) ∧ contents ref w₄ = [] := by
  intro schema ref source w
  have hplain : ∀ property ∈ ref.schema.properties, property.type ≠ .any := by
    simp [ref, schema]
  have hform : KeyInForm ref { cell := 0, source := ref } w := by
    intro fields row w₁ w₂ hfields hrow
    have hfields' : (keyFields .live ref { cell := 0, source := ref }).run w =
        (.ok [("id", .int 1)], w) := rfl
    rw [hfields'] at hfields
    cases hfields
    have hrow' : (Item.entries ItemAccess.live.field { cell := 0, source := ref }).run w =
        (.ok [("id", .int 1), ("note", .null)], w) := rfl
    rw [hrow'] at hrow
    cases hrow
    refine ⟨rfl, ?_, ?_⟩
    · decide
    · decide
  let w₁ : World :=
    { w with stores := #[{ documents := [("[1]", .object [("id", .int 1), ("note", .null)])] }] }
  have hsaved : (source.saveItem { cell := 0, source := ref }).run w = (.ok (), w₁) := rfl
  have hempty : Reached ref true w := .empty rfl
  have hreached := hempty.saved rfl hform
  obtain ⟨-, hlaws⟩ := contents_lawful ref true hplain
  obtain ⟨-, -, hscanned⟩ := hlaws w₁ (by rwa [hsaved] at hreached)
  have hscan : source.scan.run w₁ =
      (.ok [[("id", .int 1), ("note", .null)]], countScan ref w₁) := rfl
  obtain ⟨-, -, hunmodified⟩ := hscanned _ _ hscan
  obtain ⟨item, w₃, hwrap, hlater⟩ := hunmodified 0 _ rfl w₁
  have hcontents : contents ref w₃ = contents ref w₁ := by
    cases hwrap
    rfl
  obtain ⟨⟨w₄, hdelete, hremoved⟩, -⟩ := hlater w₃ rfl hcontents
  exact ⟨w₁, hsaved, rfl, _, _, item, w₃, w₄, hscan, hwrap, hdelete, hremoved⟩

/-- A loader that runs while the document is read may assign the identity, after the key was
read. Then the document is kept under a key that it does not give, and deleting what was read
from it fails. -/
theorem deleteItem_misses_drifted :
    let schema : Schema :=
      { name := "prices", properties := [⟨"note", .int, false⟩, ⟨"id", .int, true⟩]
        distinct := by decide }
    let ref : SourceRef := { id := 0, name := "prices", schema }
    let source := create .live ref true
    let loader : Loader := { id := 0, assign := [("id", .int 2)], body := .literal (.int 7) }
    let w : World :=
      { cells := #[{ source := ref
                     slots := [("note", .deferred loader), ("id", .resolved (.int 1))] }]
        stores := #[{}] }
    ∃ w₁ row w₂ item w₃ e w₄, (source.saveItem { cell := 0, source := ref }).run w = (.ok (), w₁) ∧
      source.scan.run w₁ = (.ok [row], w₂) ∧ (source.wrap row).run w₂ = (.ok item, w₃) ∧
      (source.deleteItem item).run w₃ = (.error (.raised e), w₄) := by
  exact ⟨_, _, _, _, _, _, _, rfl, rfl, rfl, rfl⟩

end Source.Documents

end RecordAlgebra
