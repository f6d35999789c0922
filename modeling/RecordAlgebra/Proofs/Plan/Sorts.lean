import RecordAlgebra.Proofs.Pipeline.Sorting
import RecordAlgebra.Proofs.Plan.Steps

/-!
# Sorting as a stage

Documents are sorted by fields of single values that have an order among themselves, so no
comparison fails, neither one that the stage makes nor one between neighbours afterwards. A field
that is named again decides nothing, and what is left puts documents into the order into which
the keys put the elements.
-/

namespace RecordAlgebra

open Datum.Elements (ofData)

namespace Value

theorem comparable_of_admits {s : FieldType} (hs : s.isPlain = true) {v u : Value}
    (hv : s.admits v = true) (hu : s.admits u = true) : Comparable v u := by
  cases s <;> cases hs <;> cases v <;> cases hv <;> cases u <;> cases hu <;> exact ⟨_, rfl⟩

section Columns

/-- The order of two rows by named columns. -/
def orderColumns (columns : Fields Direction) (f g : String → Value) : Ordering :=
  totalOrderKeys (columns.map Prod.snd) (columns.names.map f) (columns.names.map g)

variable {f g : String → Value} {columns : Fields Direction}

theorem orderColumns_cons (name : String) (direction : Direction) :
    orderColumns ((name, direction) :: columns) f g =
      (direction.apply (totalOrder (f name) (g name))).then (orderColumns columns f g) := rfl

/-- A column decides nothing between rows that are the same there. -/
theorem orderColumns_without {name : String} (h : totalOrder (f name) (g name) = .eq) :
    orderColumns (columns.filter fun column => column.1 != name) f g =
      orderColumns columns f g := by
  induction columns with
  | nil => rfl
  | cons column columns ih =>
      obtain ⟨other, direction⟩ := column
      rw [List.filter_cons, orderColumns_cons]
      by_cases hname : other = name
      · subst hname
        rw [if_neg (by simp), ih, h]
        cases direction <;> rfl
      · rw [if_pos (by simpa using hname), orderColumns_cons, ih]

theorem keysComparable_columns
    (h : ∀ column ∈ columns, Comparable (f column.1) (g column.1)) :
    KeysComparable (columns.map Prod.snd) (columns.names.map f) (columns.names.map g) := by
  induction columns with
  | nil => exact ⟨_, rfl⟩
  | cons column columns ih =>
      obtain ⟨hfirst, hrest⟩ := List.forall_mem_cons.1 h
      exact keysComparable_cons.2 ⟨hfirst, fun _ => ih hrest⟩

end Columns

theorem orderedAlike_eq (directions : List Direction) : OrderedAlike directions Eq where
  total := by
    rintro a _ a' _ rfl rfl
    rfl
  order := by
    rintro a _ a' _ rfl rfl
    rfl

/-- Rows of which any two have an order are sorted by their total order. -/
theorem sortKeyed_eq {α : Type} {directions : List Direction} {rows : List (Keyed α)}
    (h : AllComparable directions rows) : sortKeyed directions rows = .ok
      ((insertionSort (fun a b => totalOrderKeys directions a.keys b.keys == .lt) rows).map
        Keyed.value) := by
  rw [sortKeyed, checkNeighbours_of_allComparable
    ((allComparable_of_perm (insertionSort_perm rows)).2 h)]
  rfl

end Value

namespace Pipeline

open Value (insertSorted insertionSort orderColumns totalOrderKeys KeysComparable)

section Rows

variable {directions : List Direction} {row : List Value × Json}
  {rows sorted : List (List Value × Json)}

theorem insertRow_eq (h : ∀ other ∈ sorted, KeysComparable directions row.1 other.1) :
    insertRow directions row sorted = .ok
      (insertSorted (fun a b => totalOrderKeys directions a.1 b.1 == .lt) row sorted) := by
  induction sorted with
  | nil => rfl
  | cons last rest ih =>
      obtain ⟨⟨o, ho⟩, hrest⟩ := List.forall_mem_cons.1 h
      rw [insertRow, insertSorted, ho, ih hrest, Value.totalOrderKeys_of_orderKeys ho]
      cases o <;> rfl

theorem foldlM_insertRow
    (h : ∀ row ∈ rows, ∀ other ∈ rows ++ sorted, KeysComparable directions row.1 other.1) :
    rows.foldlM (fun sorted row => insertRow directions row sorted) sorted = .ok
      (rows.foldl (fun sorted row => insertSorted
        (fun a b => totalOrderKeys directions a.1 b.1 == .lt) row sorted) sorted) := by
  induction rows generalizing sorted with
  | nil => rfl
  | cons row rest ih =>
      obtain ⟨hfirst, hrest⟩ := List.forall_mem_cons.1 h
      rw [List.foldlM_cons, insertRow_eq fun other hother => hfirst other (by simp [hother])]
      refine ih fun other hother last hlast => hrest other hother last ?_
      rcases List.mem_append.1 hlast with hlast | hlast
      · simp [hlast]
      · rcases Value.mem_insertSorted hlast with rfl | hlast
        · simp
        · simp [hlast]

end Rows

/-- If all documents are comparable by the columns, they are sorted by them. -/
theorem sortDocuments_eq {columns : Fields Direction} {documents : List Json}
    (h : ∀ column ∈ columns, ∀ a ∈ documents, ∀ b ∈ documents,
      Value.Comparable (Document.fieldValue a column.1) (Document.fieldValue b column.1)) :
    sortDocuments columns documents = .ok (insertionSort (fun a b =>
      orderColumns columns (Document.fieldValue a) (Document.fieldValue b) == .lt)
        documents) := by
  let row (document : Json) : List Value × Json :=
    (columns.names.map (Document.fieldValue document), document)
  have hcomparable : ∀ r ∈ documents.map row, ∀ other ∈ documents.map row ++ [],
      KeysComparable (columns.map Prod.snd) r.1 other.1 := by
    simp only [List.append_nil, List.forall_mem_map]
    exact fun a ha b hb =>
      Value.keysComparable_columns fun column hcolumn => h column hcolumn a ha b hb
  have hsorted := Value.insertionSort_map (fun a b : List Value × Json =>
    totalOrderKeys (columns.map Prod.snd) a.1 b.1 == .lt) row documents
  have hdocuments : (insertionSort (fun a b : List Value × Json =>
      totalOrderKeys (columns.map Prod.snd) a.1 b.1 == .lt) (documents.map row)).map Prod.snd =
        insertionSort (fun a b =>
          orderColumns columns (Document.fieldValue a) (Document.fieldValue b) == .lt)
            documents := by
    rw [← hsorted, List.map_map]
    exact List.map_id _
  rw [sortDocuments, foldlM_insertRow hcomparable, ← hdocuments, insertionSort, List.map_reverse]
  rfl

/-- Sorting documents as rows puts them into the same order. -/
theorem sortKeyed_rows {columns : Fields Direction} {documents : List Json}
    (h : ∀ column ∈ columns, ∀ a ∈ documents, ∀ b ∈ documents,
      Value.Comparable (Document.fieldValue a column.1) (Document.fieldValue b column.1)) :
    Value.sortKeyed (columns.map Prod.snd) (rows columns id documents) = .ok
      (insertionSort (fun a b =>
        orderColumns columns (Document.fieldValue a) (Document.fieldValue b) == .lt)
          documents) := by
  have hall : AllOrdered columns documents := by
    refine List.pairwise_of_forall_mem_list fun a ha b hb => ?_
    exact Value.keysComparable_columns fun column hcolumn => h column hcolumn a ha b hb
  have hsorted := Value.insertionSort_map (fun a b : Value.Keyed Json =>
    totalOrderKeys (columns.map Prod.snd) a.keys b.keys == .lt)
      (keyedBy columns.names id) documents
  rw [Value.sortKeyed_eq ((allComparable_rows id).2 hall)]
  show Except.ok (List.map _ (insertionSort _ (documents.map (keyedBy columns.names id)))) = _
  rw [← hsorted, List.map_map]
  exact congrArg Except.ok (List.map_id _)

end Pipeline

namespace Shape

variable {shape : Shape} {ref : SourceRef} {document : Json} {d : Datum} {lit : Value → Datum}
  {scope : List Meaning} {keys : List (Expr × Direction)} {columns : Fields Direction}

/-- The columns that the keys name, each of which holds single values. -/
def AreColumns (shape : Shape) (keys : List (Expr × Direction)) (columns : Fields Direction) :
    Prop :=
  List.Forall₂ (fun key column => key.1.elementField? = some column.1 ∧ key.2 = column.2 ∧
    ∃ type, shape.plainField? column.1 = some type) keys columns

theorem AreColumns.plain (h : shape.AreColumns keys columns) {column : String × Direction}
    (hcolumn : column ∈ columns) : ∃ type, shape.plainField? column.1 = some type := by
  obtain ⟨_, -, -, -, hplain⟩ := exists_mem_of_forall₂ h hcolumn
  exact hplain

/-- For an element, the keys are what the columns of its document hold. -/
theorem Stands.denoteKeys (h : shape.Stands ref document d)
    (hcolumns : shape.AreColumns keys columns) :
    ∃ parts, Expr.denoteKeys lit (.value d :: scope) keys = .ok parts ∧
      Datum.bares parts = columns.names.map (Document.fieldValue document) := by
  induction hcolumns with
  | nil => exact ⟨[], rfl, rfl⟩
  | @cons key column keys columns hfirst _ ih =>
      obtain ⟨hname, -, type, hplain⟩ := hfirst
      obtain ⟨parts, hparts, hbares⟩ := ih
      obtain ⟨_, part, -, -, hpart, htells⟩ := h.plainField hplain
      refine ⟨part :: parts, ?_, ?_⟩
      · obtain ⟨e, direction⟩ := key
        rw [Expr.denoteKeys, Expr.denote_elementField hname, hpart, hparts]
        rfl
      · rw [Datum.bares, hbares, htells.bare]
        rfl

/-- Values of the same column are comparable. -/
theorem Stands.comparable {name : String} {type : DataType}
    (hplain : shape.plainField? name = some type) {a b : Json} {d e : Datum}
    (ha : shape.Stands ref a d) (hb : shape.Stands ref b e) :
    Value.Comparable (Document.fieldValue a name) (Document.fieldValue b name) := by
  obtain ⟨s, part, rfl, hs, -, hpart⟩ := ha.plainField hplain
  obtain ⟨s', part', hsame, -, -, hpart'⟩ := hb.plainField hplain
  cases hsame
  exact Value.comparable_of_admits hs hpart.admits hpart'.admits

/-- The rows of the documents of a sequence, each with the keys of its element. -/
theorem exists_rows (hcolumns : shape.AreColumns keys columns) {documents : List Json}
    {ds : List Datum} (h : List.Forall₂ (shape.Determines ref) documents ds) :
    ∃ rows : List (List Datum × Datum), rows.map Prod.snd = ds ∧
      (∀ row ∈ rows, Expr.denoteKeys lit (.value row.2 :: scope) keys = .ok row.1) ∧
      List.Forall₂ (fun document row => shape.Determines ref document row.2 ∧
        Datum.bares row.1 = columns.names.map (Document.fieldValue document)) documents rows := by
  induction h with
  | nil => exact ⟨[], rfl, nofun, .nil⟩
  | @cons document d documents ds hfirst _ ih =>
      obtain ⟨rows, rfl, hkeys, hrows⟩ := ih
      obtain ⟨parts, hparts, hbares⟩ := hfirst.stands.denoteKeys hcolumns
      exact ⟨(parts, d) :: rows, rfl, List.forall_mem_cons.2 ⟨hparts, hkeys⟩,
        .cons ⟨hfirst, hbares⟩ hrows⟩

end Shape

namespace Expr

variable {lit : Value → Datum} {scope : List Meaning} {source : Expr}
  {keys : List (Expr × Direction)}

/-- Sorting puts the rows of all elements in order, if each element has keys. -/
theorem denote_sort {rows : List (List Datum × Datum)}
    (h : source.denote lit scope = .ok (.sequence (ofData (rows.map Prod.snd))))
    (hkeys : ∀ row ∈ rows, denoteKeys lit (.value row.2 :: scope) keys = .ok row.1) :
    (sort source keys).denote lit scope = .ok (.sequence
      (Datum.Elements.settle (Datum.sort (keys.map Prod.snd) rows))) := by
  have hfold (done : List (List Datum × Datum)) : Datum.Elements.fold (fun rows d => do
      let found ← denoteKeys lit (.value d :: scope) keys
      .ok ((found, d) :: rows)) done (ofData (rows.map Prod.snd)) =
        .ok (rows.reverse ++ done) := by
    clear h
    induction rows generalizing done with
    | nil => rfl
    | cons row rest ih =>
        obtain ⟨hfirst, hrest⟩ := List.forall_mem_cons.1 hkeys
        rw [List.map_cons, ofData, List.map_cons, Datum.Elements.fold, hfirst]
        refine (ih hrest _).trans ?_
        rw [List.reverse_cons, List.append_assoc]
        rfl
  rw [denote, h]
  show Except.ok (Result.sequence (Datum.Elements.settle _)) = _
  rw [hfold, List.append_nil]
  show Except.ok (Result.sequence (Datum.Elements.settle
    (Datum.sort _ rows.reverse.reverse))) = _
  rw [List.reverse_reverse]

end Expr

namespace Segment

open Value (orderColumns)

variable {segment next : Segment} {ref : SourceRef} {lit : Value → Datum} {scope : List Meaning}
  {source : Expr} {keys : List (Expr × Direction)} {fields : Fields Direction}

/-- The fields to sort by are those that the keys name, without repetitions. -/
theorem sortFields?_eq_some (h : segment.sortFields? keys = some fields) :
    ∃ columns, segment.shape.AreColumns keys columns ∧
      (∀ column ∈ fields, ∃ type, segment.shape.plainField? column.1 = some type) ∧
      ∀ f g, orderColumns fields f g = orderColumns columns f g := by
  induction keys generalizing fields with
  | nil =>
      cases h
      exact ⟨[], .nil, nofun, fun _ _ => rfl⟩
  | cons key rest ih =>
      obtain ⟨e, direction⟩ := key
      rw [sortFields?] at h
      obtain ⟨name, hname, h⟩ := Option.bind_eq_some_iff.1 h
      obtain ⟨type, htype, h⟩ := Option.bind_eq_some_iff.1 h
      obtain ⟨others, hothers, h⟩ := Option.bind_eq_some_iff.1 h
      cases h
      obtain ⟨columns, hcolumns, hplain, horder⟩ := ih hothers
      refine ⟨(name, direction) :: columns, .cons ⟨hname, rfl, type, htype⟩ hcolumns,
        List.forall_mem_cons.2 ⟨⟨type, htype⟩, fun column hcolumn => ?_⟩, fun f g => ?_⟩
      · exact hplain column (List.mem_filter.1 hcolumn).1
      · rw [Value.orderColumns_cons, Value.orderColumns_cons, ← horder]
        cases hdecided : Value.totalOrder (f name) (g name) with
        | eq => rw [Value.orderColumns_without hdecided]
        | lt | gt => cases direction <;> rfl

/-- Sorted documents determine sorted elements. -/
theorem sort_leads (h : segment.sort? keys = some next) :
    segment.Leads next ref lit scope source (.sort source keys) := by
  obtain ⟨fields, hfields, h⟩ := Option.bind_eq_some_iff.1 h
  cases h
  obtain ⟨columns, hcolumns, hplain, horder⟩ := sortFields?_eq_some hfields
  refine ⟨[.sort fields], rfl, fun documents outputs ⟨ds, hds, hdetermine⟩ hrun => ?_⟩
  rw [Plan.run_single] at hrun
  have comparable {name : String} (hname : ∃ type, segment.shape.plainField? name = some type)
      {a b : Json} (ha : a ∈ documents) (hb : b ∈ documents) :
      Value.Comparable (Document.fieldValue a name) (Document.fieldValue b name) := by
    obtain ⟨type, htype⟩ := hname
    obtain ⟨d, -, hd⟩ := exists_mem_of_forall₂ hdetermine.flip ha
    obtain ⟨e, -, he⟩ := exists_mem_of_forall₂ hdetermine.flip hb
    exact Shape.Stands.comparable htype (Shape.Determines.stands hd) (Shape.Determines.stands he)
  have hsorted := Pipeline.sortDocuments_eq fun column hcolumn a ha b hb =>
    comparable (hplain column hcolumn) ha hb
  cases hsorted.symm.trans hrun
  obtain ⟨rows, rfl, hkeys, hrows⟩ := Shape.exists_rows hcolumns hdetermine
  have hdirections : keys.map Prod.snd = columns.map Prod.snd :=
    map_eq_map_of_forall₂ (hcolumns.imp fun _ _ h => h.2.1)
  have hdocuments := Pipeline.sortKeyed_rows fun column hcolumn a ha b hb =>
    comparable (hcolumns.plain hcolumn) ha hb
  have hrelated : List.Forall₂
      (Value.RelatedRows Eq fun document d => segment.shape.Determines ref document d)
      (Pipeline.rows columns id documents)
      (rows.map fun row => { keys := Datum.bares row.1, value := row.2 }) :=
    List.forall₂_map_left_iff.2 (List.forall₂_map_right_iff.2
      (hrows.imp fun document row h => ⟨h.2.symm, h.1⟩))
  have hagrees := Value.sortKeyed_agrees (Value.orderedAlike_eq (columns.map Prod.snd)) hrelated
  rw [hdocuments, ← hdirections] at hagrees
  obtain ⟨sorted, hsorted', hdetermine'⟩ := Agrees.ok_left hagrees
  refine ⟨sorted, (Expr.denote_sort hds hkeys).trans ?_, ?_⟩
  · rw [Datum.sort, hsorted']
    rfl
  · simp only [horder]
    exact hdetermine'

end Segment

end RecordAlgebra
