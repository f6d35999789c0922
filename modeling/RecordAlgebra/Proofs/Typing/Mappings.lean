import RecordAlgebra.Proofs.Typing.Elements

/-!
# Mappings and rows of settled types

Merged and built records, sorted rows and groups have the types that are derived
for them.
-/

namespace RecordAlgebra.Datum

/-- The fields are those that the type lists. -/
structure FieldsFit (ds : Fields Datum) (fields : Fields DataType) : Prop where
  names : ds.names.Nodup
  distinct : fields.names.Nodup
  present : ∀ name t, fields.get? name = some t → ∃ d, ds.get? name = some d ∧ d.Fits t
  closed : ∀ name ∈ ds.names, name ∈ fields.names

section Fields

variable {ds es : Fields Datum} {fields others : Fields DataType}

theorem FieldsFit.record (h : FieldsFit ds fields) :
    (Datum.record ds).Fits (.record fields false) := by
  refine .record h.names h.distinct (fun name t ht => ?_) (fun name t d ht hd => ?_)
    fun _ => h.closed
  · obtain ⟨d, hd, -⟩ := h.present name t ht
    exact ⟨d, hd⟩
  · obtain ⟨d', hd', hfits⟩ := h.present name t ht
    rw [hd] at hd'
    cases hd'
    exact hfits

/-- What fits a settled mapping type has the fields that are known of the type. -/
theorem fieldsFit_of_fits {d : Datum} {l : DataType} {a : RecordType} (hl : l.isSettled = true)
    (hd : d.Fits l) (h : l.recordType? = some a) :
    a.isOpen = false ∧ ∃ ds, d.entries = .ok ds ∧ FieldsFit ds a.fields := by
  cases hd with
  | @scalar d s hadmits => cases s <;> cases hl <;> cases h
  | list => cases h
  | @record ds fields isOpen hnames hdistinct present fits closed =>
      cases h
      rw [DataType.isSettled, Bool.and_eq_true, Bool.not_eq_true'] at hl
      refine ⟨hl.1, ds, rfl, hnames, hdistinct, fun name t ht => ?_, closed hl.1⟩
      obtain ⟨d, hd⟩ := present name t ht
      exact ⟨d, hd, fits name t d ht hd⟩
  | @item source ds schema hsame hnames fits =>
      cases h
      refine ⟨rfl, ds, rfl, ?_, ?_, fun name t ht => ?_, fun name hname => ?_⟩
      · rw [hnames]
        exact source.schema.distinct
      · rw [DataType.names_properties]
        exact schema.distinct
      · obtain ⟨p, hp, rfl, rfl⟩ := DataType.get?_properties ht
        obtain ⟨d, hd, hadmits⟩ := fits p ((Schema.mem_properties_of_same hsame).2 hp)
        exact ⟨d, hd, .scalar hadmits⟩
      · rw [hnames] at hname
        obtain ⟨p, hp, rfl⟩ := List.mem_map.1 hname
        rw [DataType.names_properties]
        exact List.mem_map.2 ⟨p, (Schema.mem_properties_of_same hsame).1 hp, rfl⟩

theorem FieldsFit.insertAll (h : FieldsFit ds fields) (h' : FieldsFit es others) :
    FieldsFit (Fields.insertAll ds es) (Fields.insertAll fields others) where
  names := Fields.nodup_names_insertAll h.names es
  distinct := Fields.nodup_names_insertAll h.distinct others
  present name t ht := by
    rw [Fields.get?_insertAll h'.distinct] at ht
    rw [Fields.get?_insertAll h'.names]
    cases hothers : others.get? name with
    | some t' =>
        rw [hothers] at ht
        cases ht
        obtain ⟨d, hd, hfits⟩ := h'.present name t hothers
        exact ⟨d, by rw [hd]; rfl, hfits⟩
    | none =>
        rw [hothers] at ht
        obtain ⟨d, hd, hfits⟩ := h.present name t ht
        have hes : es.get? name = none := by
          refine Fields.get?_eq_none_of_not_mem fun hmem => ?_
          have hname := h'.closed name hmem
          obtain ⟨field, hfield, rfl⟩ := List.mem_map.1 hname
          rw [Fields.get?_eq_some_of_mem h'.distinct hfield] at hothers
          cases hothers
        exact ⟨d, by rw [hes]; exact hd, hfits⟩
  closed name hname := by
    rw [Fields.names_insertAll] at hname ⊢
    exact hname.imp (h.closed name) (h'.closed name)

theorem FieldsFit.ofList (h : FieldsFit ds fields) : FieldsFit (Fields.ofList ds) fields where
  names := Fields.nodup_names_ofList ds
  distinct := h.distinct
  present name t ht := by
    rw [Fields.get?_ofList h.names]
    exact h.present name t ht
  closed name hname := by
    rw [Fields.ofList, Fields.names_insertAll] at hname
    exact hname.elim (fun h => by cases h) (h.closed name)

theorem fieldsFit_of_forall₂ (hdistinct : fields.names.Nodup)
    (h : List.Forall₂ (fun d t => d.1 = t.1 ∧ d.2.Fits t.2) ds fields) : FieldsFit ds fields := by
  have hnames := Fields.names_eq_of_forall₂ h
  exact ⟨hnames ▸ hdistinct, hdistinct, fun name t ht => Fields.exists_get?_left h ht,
    fun name hname => hnames ▸ hname⟩

/-- Merging mappings of settled types gives the merged type. -/
theorem merge_progresses {d e : Datum} {l r : DataType} {a b : RecordType}
    (hl : l.isSettled = true) (hr : r.isSettled = true) (ha : l.recordType? = some a)
    (hb : r.recordType? = some b) (hd : d.Fits l) (he : e.Fits r) :
    Progresses (fun m => m.Fits (.ofRecordType (a.merge b))) (merge d e) := by
  obtain ⟨hopen, ds, hds, hfields⟩ := fieldsFit_of_fits hl hd ha
  obtain ⟨hopen', es, hes, hothers⟩ := fieldsFit_of_fits hr he hb
  have hclosed : (a.merge b).isOpen = false := by rw [RecordType.merge, hopen, hopen']; rfl
  rw [merge, hds, hes, DataType.ofRecordType, hclosed]
  exact (hfields.ofList.insertAll hothers).record

end Fields

section Rows

variable {types : List DataType}

/-- Keys of single or list types that have an order. -/
def KeysFit (types : List DataType) (keys : List Datum) : Prop :=
  List.Forall₂ (fun d t => d.Fits t ∧ t.isSettled = true ∧ t.isOrderable = true) keys types

theorem orderKeys_ok {directions : List Direction} {as bs : List Datum} (ha : KeysFit types as)
    (hb : KeysFit types bs) : ∃ o, Value.orderKeys directions (bares as) (bares bs) = .ok o := by
  induction ha generalizing bs directions with
  | nil => cases directions <;> exact ⟨_, rfl⟩
  | cons hkey _ ih =>
      cases hb with
      | cons hkey' hrest =>
          cases directions with
          | nil => exact ⟨_, rfl⟩
          | cons direction directions =>
              obtain ⟨o, ho⟩ := order_ok hkey.2.1 hkey.2.1 (isComparable_self hkey.2.2) hkey.1
                hkey'.1
              rw [bares, bares, Value.orderKeys, ho]
              cases o with
              | eq => exact ih hrest
              | lt => exact ⟨_, rfl⟩
              | gt => exact ⟨_, rfl⟩

/-- Rows with keys of these types. -/
def RowsFit (types : List DataType) (t : DataType) (rows : List (List Datum × Datum)) : Prop :=
  ∀ row ∈ rows, KeysFit types row.1 ∧ row.2.Fits t

theorem checkNeighbours_ok {directions : List Direction} {rows : List (Value.Keyed Datum)}
    (h : ∀ row ∈ rows, ∃ keys, row.keys = bares keys ∧ KeysFit types keys) :
    Value.checkNeighbours directions rows = .ok () := by
  induction rows with
  | nil => rfl
  | cons a rest ih =>
      cases rest with
      | nil => rfl
      | cons b rest =>
          obtain ⟨as, has, ha⟩ := h a (by simp)
          obtain ⟨bs, hbs, hb⟩ := h b (by simp)
          obtain ⟨o, ho⟩ : ∃ o, Value.orderKeys directions (bares as) (bares bs) = .ok o :=
            orderKeys_ok ha hb
          rw [Value.checkNeighbours, has, hbs, ho]
          exact ih fun row hrow => h row (List.mem_cons_of_mem _ hrow)

/-- Rows whose keys have an order are sorted. -/
theorem sort_progresses (directions : List Direction) {t : DataType}
    {rows : List (List Datum × Datum)} (h : RowsFit types t rows) :
    Progresses (fun ds => ∀ d ∈ ds, d.Fits t) (sort directions rows) := by
  have hmem {keyed : Value.Keyed Datum}
      (hkeyed : keyed ∈ Value.insertionSort
        (fun a b => Value.totalOrderKeys directions a.keys b.keys == .lt)
        (rows.map fun row => ({ keys := bares row.1, value := row.2 } : Value.Keyed Datum))) :
      ∃ row ∈ rows, keyed = { keys := bares row.1, value := row.2 } := by
    obtain ⟨row, hrow, rfl⟩ := List.mem_map.1 (Value.mem_insertionSort hkeyed)
    exact ⟨row, hrow, rfl⟩
  rw [sort, Value.sortKeyed, checkNeighbours_ok]
  · intro d hd
    obtain ⟨keyed, hkeyed, rfl⟩ := List.mem_map.1 hd
    obtain ⟨row, hrow, rfl⟩ := hmem hkeyed
    exact (h row hrow).2
  · intro keyed hkeyed
    obtain ⟨row, hrow, rfl⟩ := hmem hkeyed
    exact ⟨row.1, rfl, (h row hrow).1⟩

/-- Groups with keys and members of these types. -/
def GroupsFit (k t : DataType) (groups : Groups) : Prop :=
  ∀ group ∈ groups, group.1.Fits k ∧ ∀ d ∈ group.2, d.Fits t

theorem addToGroups_fit {k t : DataType} {key member : Datum} (hkey : key.Fits k)
    (hmember : member.Fits t) {groups : Groups} (h : GroupsFit k t groups) :
    GroupsFit k t (addToGroups key member groups) := by
  induction groups with
  | nil =>
      refine List.forall_mem_cons.2 ⟨⟨hkey, ?_⟩, by simp⟩
      simpa using hmember
  | cons group rest ih =>
      obtain ⟨hgroup, hrest⟩ := List.forall_mem_cons.1 h
      rw [addToGroups]
      split
      · exact List.forall_mem_cons.2 ⟨⟨hgroup.1, List.forall_mem_cons.2 ⟨hmember, hgroup.2⟩⟩, hrest⟩
      · exact List.forall_mem_cons.2 ⟨hgroup, ih hrest⟩

end Rows

end RecordAlgebra.Datum

namespace RecordAlgebra

theorem mapM_progresses {α β : Type} {P : α → Prop} {Q : β → Prop} {f : α → Except ErrorKind β}
    (step : ∀ a, P a → Progresses Q (f a)) {as : List α} (h : ∀ a ∈ as, P a) :
    Progresses (fun bs => ∀ b ∈ bs, Q b) (as.mapM f) := by
  induction as with
  | nil => exact fun b hb => by cases hb
  | cons a as ih =>
      obtain ⟨ha, has⟩ := List.forall_mem_cons.1 h
      rw [List.mapM_cons]
      refine (step a ha).bind fun b hb => (ih has).bind fun bs hbs => ?_
      exact List.forall_mem_cons.2 ⟨hb, hbs⟩

end RecordAlgebra
