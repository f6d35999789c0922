import RecordAlgebra.Proofs.Source.Memory
import RecordAlgebra.Proofs.Value.Transitivity

/-!
# What a save replaces

A save appends its row or puts it in the place of one row, and it leaves all others as they are.
The row that it replaces had an equal key. Items of one source are equal if their keys are, unless
their identity is not complete: then all of their fields count for equality, but still only the
identity for the key.
-/

namespace RecordAlgebra

theorem Value.IsData.isNull_eq_of_same {u v : Value} (hu : u.IsData) (hv : v.IsData)
    (h : u.same v = true) : u.isNull = v.isNull := by
  have hitem {ref : ItemRef} (hdata : (Value.item ref).IsData) : False := by
    cases hdata with
    | single hsingle => cases hsingle
  cases u <;> cases v <;> first | exact (hitem hu).elim | exact (hitem hv).elim | rfl | cases h

/-- Fields of the same names, of which the one list equals the other, are equal one by one. -/
theorem Value.equalEntries_of_same {m : Type → Type} [Monad m] [LawfulMonad m]
    (items : ItemRef → ItemRef → m Bool) {as bs : Fields Value} (hnames : as.names = bs.names)
    (has : (Value.list (as.map Prod.snd)).IsData) (hbs : (Value.list (bs.map Prod.snd)).IsData)
    (hsame : (Value.list (as.map Prod.snd)).same (.list (bs.map Prod.snd)) = true) :
    Value.equalEntries items as bs = pure true := by
  induction as generalizing bs with
  | nil =>
      cases bs with
      | nil => rfl
      | cons _ _ => cases hnames
  | cons a as ih =>
      cases bs with
      | nil => cases hnames
      | cons b bs =>
          obtain ⟨name, a⟩ := a
          obtain ⟨other, b⟩ := b
          obtain ⟨hname, hrestNames⟩ := List.cons.inj hnames
          obtain ⟨ha, has'⟩ := List.forall_mem_cons.1 (isData_list.1 has)
          obtain ⟨hb, hbs'⟩ := List.forall_mem_cons.1 (isData_list.1 hbs)
          obtain ⟨hfirst, hrest⟩ := Bool.and_eq_true_iff.1 hsame
          change name = other at hname
          change a.same b = true at hfirst
          rw [Value.equalEntries, hname, beq_self_eq_true, if_pos rfl, ha.equal_eq items hb,
            pure_bind, hfirst, if_pos rfl]
          exact ih hrestNames (isData_list.2 has') (isData_list.2 hbs') hrest

namespace Item

variable {read : ItemRef → String → EvalM Value} {ref : SourceRef} {a b : ItemRef}
  {left right : Fields Value} {w w₁ : World}

theorem isComplete_eq_of_same {as bs : Fields Value}
    (has : (Value.list (as.map Prod.snd)).IsData) (hbs : (Value.list (bs.map Prod.snd)).IsData)
    (h : (Value.list (as.map Prod.snd)).same (.list (bs.map Prod.snd)) = true) :
    isComplete as = isComplete bs := by
  induction as generalizing bs with
  | nil =>
      cases bs with
      | nil => rfl
      | cons _ _ => cases h
  | cons a as ih =>
      cases bs with
      | nil => cases h
      | cons b bs =>
          obtain ⟨ha, has'⟩ := List.forall_mem_cons.1 (Value.isData_list.1 has)
          obtain ⟨hb, hbs'⟩ := List.forall_mem_cons.1 (Value.isData_list.1 hbs)
          obtain ⟨hfirst, hrest⟩ := Bool.and_eq_true_iff.1 h
          have hnull : a.2.isNull = b.2.isNull := ha.isNull_eq_of_same hb hfirst
          have hlater := ih (Value.isData_list.2 has') (Value.isData_list.2 hbs') hrest
          simp only [isComplete, List.all_cons] at hlater ⊢
          rw [hnull, hlater]

/-- Two items of one source are equal if their keys are, if these are complete or if all fields
belong to them. -/
theorem equal_run_of_keys {equalValues : ItemRef → ItemRef → EvalM Bool} (ha : a.source = ref)
    (hb : b.source = ref) (hleft : (keyFields read a).run w = (.ok left, w))
    (hright : (keyFields read b).run w = (.ok right, w₁))
    (hcomplete : ref.schema.hasIdentity = true → isComplete left = true ∧ isComplete right = true)
    (hequal : Value.equalEntries equalValues left right = pure true) :
    ∃ w₂, (equal read equalValues a b).run w = (.ok true, w₂) := by
  rw [keyFields_eq, ItemRef.schema, ha, Schema.keyProperties] at hleft
  rw [keyFields_eq, ItemRef.schema, hb, Schema.keyProperties] at hright
  rw [equal]
  by_cases hcell : a.cell = b.cell
  · rw [if_pos hcell]
    exact ⟨w, rfl⟩
  rw [if_neg hcell, ItemRef.schema, ItemRef.schema, ha, hb, decide_eq_true rfl, Bool.true_and]
  by_cases hidentity : ref.schema.hasIdentity = true
  · rw [if_pos hidentity] at hleft hright
    obtain ⟨hleftComplete, hrightComplete⟩ := hcomplete hidentity
    rw [if_pos hidentity, EvalM.run_bind_ok (EvalM.run_attempt_ok hleft),
      EvalM.run_bind_ok (EvalM.run_attempt_ok hright)]
    simp only [hleftComplete, hrightComplete, Bool.and_self, if_true, hequal]
    exact ⟨w₁, rfl⟩
  · rw [if_neg hidentity] at hleft hright
    rw [if_neg hidentity, entries, entries, ItemRef.schema, ItemRef.schema, ha, hb, Schema.names,
      EvalM.run_bind_ok (EvalM.run_attempt_ok hleft),
      EvalM.run_bind_ok (EvalM.run_attempt_ok hright)]
    simp only [hequal]
    exact ⟨w₁, rfl⟩

end Item

namespace Source.Memory

variable {ref : SourceRef} {deferred : List (String × Loader)} {item : ItemRef} {key : Value.Key}
  {row : Row} {entries : List (Value.Key × Row)} {found : Option Nat} {w w' w₁ w₂ w₃ : World}

/-- The rows after a save, given the position at which the key was found. -/
def placed (key : Value.Key) (row : Row) (entries : List (Value.Key × Row)) :
    Option Nat → List (Value.Key × Row)
  | some position => entries.modify position fun (key, _) => (key, row)
  | none => entries ++ [(key, row)]

section Saving

/-- Everything of a save that comes before the rows change. -/
def newRows (ref : SourceRef) (deferred : List (String × Loader)) (item : ItemRef) :
    EvalM (List (Value.Key × Row)) := do
  (create .live ref deferred).checkOwned item
  let key ← keyOf .live item
  let row ← rowOf .live (deferred.map Prod.fst) item
  let entries := (← ref.store).rows
  return placed key row entries (← key.find? .live entries)

theorem saveItem_eq_newRows (ref : SourceRef) (deferred : List (String × Loader)) (item : ItemRef) :
    (create .live ref deferred).saveItem item =
      newRows ref deferred item >>= fun rows => ref.modifyStore fun store => { store with rows } := by
  have hput (entries : List (Value.Key × Row)) (key : Value.Key) (row : Row) :
      put .live entries key row = do
        return placed key row entries (← key.find? .live entries) := by
    rw [put]
    congr 1
    funext found
    cases found <;> rfl
  simp only [saveItem, newRows, bind_assoc]
  show (create .live ref deferred).checkOwned item >>= (fun _ =>
    save .live ref (deferred.map Prod.fst) item) = _
  simp only [save, hput, bind_assoc]

theorem newRows_spends (ref : SourceRef) (deferred : List (String × Loader)) (stores : Array Store)
    (item : ItemRef) :
    Spends (.storing stores) 0 (fun _ => True) (newRows ref deferred item) := by
  refine (checkOwned_spends _ stores item).first fun _ _ => ?_
  refine (keyOf_spends stores item).first fun key _ => ?_
  refine (rowOf_spends _ stores item).first fun row _ => ?_
  refine (store_spends ref stores).first fun store _ => ?_
  refine ((ItemAccess.live_stores stores).find? key store.rows).first fun found _ => ?_
  exact .pure trivial

/-- A save fails and stores nothing, or it puts the row that it reads where it finds the key. -/
theorem saveItem_cases (deferred : List (String × Loader)) (hrows : rows? ref w = some entries)
    (item : ItemRef) :
    (∃ stop w', ((create .live ref deferred).saveItem item).run w = (.error stop, w') ∧
      rows? ref w' = some entries) ∨
    ∃ key w₁ row w₂ found w₃ w', (keyOf .live item).run w = (.ok key, w₁) ∧
      (rowOf .live (deferred.map Prod.fst) item).run w₁ = (.ok row, w₂) ∧
      (key.find? .live entries).run w₂ = (.ok found, w₃) ∧
      ((create .live ref deferred).saveItem item).run w = (.ok (), w') ∧
      rows? ref w' = some (placed key row entries found) := by
  rw [saveItem_eq_newRows]
  rcases change_cases (fun rows store => { store with rows })
      (newRows_spends ref deferred w.stores item) with
    ⟨stop, w', hrun, hstores⟩ | ⟨rows, w', hnew, hstores, hrun⟩
  · exact .inl ⟨stop, w', hrun, (rows?_congr hstores).trans hrows⟩
  obtain ⟨_, w₀, howned, hnew⟩ := EvalM.exists_of_run_bind hnew
  cases checkOwned_ok howned
  obtain ⟨key, w₁, hkey, hnew⟩ := EvalM.exists_of_run_bind hnew
  obtain ⟨row, w₂, hrow, hnew⟩ := EvalM.exists_of_run_bind hnew
  obtain ⟨store, _, hstore, hnew⟩ := EvalM.exists_of_run_bind hnew
  have hkeyStores := (keyOf_spends w.stores item).stores_of_run hkey
  have hrowStores := (rowOf_spends (deferred.map Prod.fst) w₁.stores item).stores_of_run hrow
  obtain ⟨_, hfoundStore, rfl⟩ :=
    store_run ((rows?_congr (hrowStores.trans hkeyStores)).trans hrows)
  cases hstore.symm.trans hfoundStore
  obtain ⟨found, w₃, hfind, hnew⟩ := EvalM.exists_of_run_bind hnew
  cases hnew
  refine .inr ⟨key, w₁, row, w₂, found, w', _, hkey, hrow, hfind, hrun, ?_⟩
  refine (rows?_modify ref _ (fun _ => placed key row store.rows found) (fun _ => rfl) w').trans ?_
  rw [rows?_congr hstores, hrows, Option.map_some]

end Saving

section Finding

theorem lt_of_find? {i : Nat} (h : (key.find? .live entries).run w = (.ok (some i), w')) :
    i < entries.length := by
  induction entries generalizing i w with
  | nil => cases h
  | cons entry rest ih =>
      obtain ⟨same, w₁, -, h⟩ := EvalM.exists_of_run_bind h
      cases same with
      | true =>
          cases h
          exact Nat.zero_lt_succ _
      | false =>
          obtain ⟨found, w₂, hfound, h⟩ := EvalM.exists_of_run_bind h
          cases found with
          | none => cases h
          | some j =>
              cases h
              exact Nat.succ_lt_succ (ih hfound)

theorem keyEqual_of_data {other : Value.Key} (hkey : key.value.IsData) (hother : other.value.IsData)
    (h : (key.equal ItemAccess.live other).run w = (.ok true, w')) :
    key.value.same other.value = true := by
  rw [Value.Key.equal] at h
  split at h
  · rw [hkey.equal_eq ItemAccess.live.equal hother] at h
    cases hsame : key.value.same other.value with
    | true => rfl
    | false =>
        rw [hsame] at h
        cases h
  · cases h

/-- Of values without items, the one that is found equals the one that is looked for. -/
theorem same_of_find? {i : Nat} {entry : Value.Key × Row} (hkey : key.value.IsData)
    (hentries : ∀ entry ∈ entries, entry.1.value.IsData)
    (h : (key.find? .live entries).run w = (.ok (some i), w')) (hentry : entries[i]? = some entry) :
    key.value.same entry.1.value = true := by
  induction entries generalizing i w with
  | nil => cases h
  | cons first rest ih =>
      obtain ⟨hfirst, hrest⟩ := List.forall_mem_cons.1 hentries
      obtain ⟨same, w₁, hequal, h⟩ := EvalM.exists_of_run_bind h
      cases same with
      | true =>
          cases h
          cases hentry
          exact keyEqual_of_data hkey hfirst hequal
      | false =>
          obtain ⟨found, w₂, hfound, h⟩ := EvalM.exists_of_run_bind h
          cases found with
          | none => cases h
          | some j =>
              cases h
              exact ih hrest hfound hentry

end Finding

section Running

/-- Reading the item gives a key without items, and then a row that still says it. -/
def ReadsAlike (deferred : List (String × Loader)) (item : ItemRef) (w : World) : Prop :=
  ∀ fields w₁, (Item.keyFields ItemAccess.live.field item).run w = (.ok fields, w₁) →
    (keyValue fields).IsData ∧
      ∀ row w₂, (rowOf .live (deferred.map Prod.fst) item).run w₁ = (.ok row, w₂) → fields ⊆ row

/-- The states to which saves and deletions lead from an empty table, whether or not they fail,
with anything that leaves the table alone in between. -/
inductive Kept (ref : SourceRef) (deferred : List (String × Loader)) : World → Prop
  | empty {w : World} (h : rows? ref w = some []) : Kept ref deferred w
  | saved {w : World} {item : ItemRef} (h : Kept ref deferred w) (hsource : item.source = ref)
      (hreads : ReadsAlike deferred item w) :
      Kept ref deferred (((create .live ref deferred).saveItem item).run w).2
  | deleted {w : World} (h : Kept ref deferred w) (item : ItemRef) :
      Kept ref deferred (((create .live ref deferred).deleteItem item).run w).2
  | aside {w w' : World} (h : Kept ref deferred w) (hsame : rows? ref w' = rows? ref w) :
      Kept ref deferred w'

/-- The row says a key that is equal to the one under which it is kept. -/
structure IsKept (ref : SourceRef) (entry : Value.Key × Row) : Prop where
  key : entry.1.value.IsData
  said : (rowKey ref.schema entry.2).IsData
  same : entry.1.value.same (rowKey ref.schema entry.2) = true
  listed : ∀ name ∈ ref.schema.keyProperties.map Property.name, name ∈ entry.2.names

/-- What reads a key and keeps it in the row gives a row that says the key. -/
theorem keyRow_of_subset {fields : Fields Value} (hsource : item.source = ref)
    (hfields : (Item.keyFields ItemAccess.live.field item).run w = (.ok fields, w₁))
    (hrow : (rowOf .live (deferred.map Prod.fst) item).run w₁ = (.ok row, w₂)) (h : fields ⊆ row) :
    fields = Document.keyRow ref.schema row ∧
      ∀ name ∈ ref.schema.keyProperties.map Property.name, name ∈ row.names := by
  rw [Item.keyFields_eq, ItemRef.schema, hsource] at hfields
  have hnames := names_of_readAll hfields
  have hdistinct : row.names.Nodup := by
    rw [names_of_readAll hrow]
    exact item.schema.distinct.sublist List.filter_sublist
  constructor
  · have hvalues : fields = fields.names.map fun name => (name, Document.valueIn row name) := by
      rw [Fields.names, List.map_map]
      refine (List.map_id _).symm.trans (List.map_congr_left fun field hfield => ?_)
      have hget := Fields.get?_eq_some_of_mem hdistinct (h hfield)
      simp [Document.valueIn, hget]
    rw [hnames, List.map_map] at hvalues
    exact hvalues
  · intro name hname
    rw [← hnames] at hname
    obtain ⟨field, hfield, rfl⟩ := List.mem_map.1 hname
    exact List.mem_map_of_mem (h hfield)

theorem value_of_toKey {v : Value} (h : (v.toKey ItemAccess.live).run w = (.ok key, w')) :
    key.value = v := by
  obtain ⟨_, _, _, h⟩ := EvalM.exists_of_run_bind h
  cases h
  rfl

theorem keyOf_ok (h : (keyOf .live item).run w = (.ok key, w₁)) :
    ∃ fields w₀, (Item.keyFields ItemAccess.live.field item).run w = (.ok fields, w₀) ∧
      key.value = keyValue fields ∧ ((keyValue fields).IsData → w₀ = w₁) := by
  obtain ⟨fields, w₀, hfields, h⟩ := EvalM.exists_of_run_bind h
  refine ⟨fields, w₀, hfields, value_of_toKey h, fun hdata => ?_⟩
  change ((keyValue fields).toKey ItemAccess.live).run w₀ = _ at h
  rw [toKey_run hdata] at h
  cases h
  rfl

theorem IsKept.placed_all (hentries : ∀ entry ∈ entries, IsKept ref entry)
    (hkey : key.value = rowKey ref.schema row) (hdata : key.value.IsData)
    (hlisted : ∀ name ∈ ref.schema.keyProperties.map Property.name, name ∈ row.names)
    (hfind : (key.find? .live entries).run w = (.ok found, w')) :
    ∀ entry ∈ placed key row entries found, IsKept ref entry := by
  cases found with
  | none =>
      intro entry hentry
      rcases List.mem_append.1 hentry with hold | hnew
      · exact hentries entry hold
      · cases List.mem_singleton.1 hnew
        exact
          { key := hdata, said := hkey ▸ hdata, same := hkey ▸ hdata.same_self, listed := hlisted }
  | some i =>
      intro entry hentry
      obtain ⟨j, hj⟩ := List.getElem?_of_mem hentry
      rw [placed, List.getElem?_modify] at hj
      split at hj
      next hij =>
        subst hij
        obtain ⟨old, hold, rfl⟩ := Option.map_eq_some_iff.1 hj
        -- The old key stays with the new row, which says the key that was looked for.
        have hkept := hentries old (List.mem_of_getElem? hold)
        have hsame := Memory.same_of_find? hdata (fun entry h => (hentries entry h).key) hfind hold
        rw [hdata.same_comm hkept.key] at hsame
        exact { key := hkept.key, said := hkey ▸ hdata, same := hkey ▸ hsame, listed := hlisted }
      next => exact hentries entry (List.mem_of_getElem? (by simpa using hj))

/-- The row in whose place a save puts its own says an equal key. -/
theorem IsKept.same_of_find? {entry : Value.Key × Row} {i : Nat}
    (hentries : ∀ entry ∈ entries, IsKept ref entry) (hentry : entries[i]? = some entry)
    (hdata : key.value.IsData) (hfind : (key.find? .live entries).run w = (.ok (some i), w'))
    (hclash : Value.clash true key.value entry.1.value (rowKey ref.schema entry.2) = false) :
    (rowKey ref.schema entry.2).same key.value = true := by
  have hkept := hentries entry (List.mem_of_getElem? hentry)
  have hfound := Memory.same_of_find? hdata (fun entry h => (hentries entry h).key) hfind hentry
  rw [hkept.said.same_comm hdata]
  exact (hdata.same_trans_iff hkept.key hkept.said hfound hkept.same).2 hclash

theorem Kept.all (h : Kept ref deferred w) :
    ∃ entries, rows? ref w = some entries ∧ ∀ entry ∈ entries, IsKept ref entry := by
  induction h with
  | empty hempty => exact ⟨[], hempty, nofun⟩
  | @saved w item _ hsource hreads ih =>
      obtain ⟨entries, hrows, hentries⟩ := ih
      rcases saveItem_cases deferred hrows item with ⟨_, w', hrun, hrows'⟩ |
        ⟨key, w₁, row, w₂, found, w₃, w', hkey, hrow, hfind, hrun, hrows'⟩
      · rw [hrun]
        exact ⟨entries, hrows', hentries⟩
      obtain ⟨fields, w₀, hfields, hvalue, hpure⟩ := keyOf_ok hkey
      obtain ⟨hdata, hsubset⟩ := hreads fields w₀ hfields
      obtain rfl := hpure hdata
      obtain ⟨hsaid, hlisted⟩ := keyRow_of_subset hsource hfields hrow (hsubset row w₂ hrow)
      rw [hrun]
      refine ⟨_, hrows', IsKept.placed_all hentries ?_ (hvalue ▸ hdata) hlisted hfind⟩
      rw [hvalue, hsaid, rowKey]
  | @deleted w _ item ih =>
      obtain ⟨entries, hrows, hentries⟩ := ih
      have hsame : (create .live ref deferred).deleteItem item =
          (create .live ref []).deleteItem item := rfl
      rw [hsame, deleteItem_eq]
      rcases change_cases (fun position store => { store with rows := store.rows.eraseIdx position })
          (prepareDelete_spends (create .live ref []) w.stores item) with
        ⟨_, w', hrun, hstores⟩ | ⟨position, w', -, hstores, hrun⟩
      · rw [hrun]
        exact ⟨entries, (rows?_congr hstores).trans hrows, hentries⟩
      · rw [hrun]
        refine ⟨entries.eraseIdx position, ?_, fun entry hentry =>
          hentries entry ((List.eraseIdx_sublist entries position).subset hentry)⟩
        refine (rows?_modify ref _ (fun rows => rows.eraseIdx position) (fun _ => rfl) w').trans ?_
        rw [rows?_congr hstores, hrows, Option.map_some]
  | aside _ hsame ih =>
      rw [hsame]
      exact ih

end Running

section Wrapped

variable {wrapped : ItemRef} {w₀ : World}

/-- A new item for a row that lists a key holds it, whatever loaders the source has. -/
theorem keyFields_run_of_wrap {access : ItemAccess EvalM} (haccess : access.IsOpen)
    (hlisted : ∀ name ∈ ref.schema.keyProperties.map Property.name, name ∈ row.names)
    (hwrap : ((create .live ref deferred).wrap row).run w₀ = (.ok wrapped, w)) :
    wrapped.source = ref ∧
      (Item.keyFields access.field wrapped).run w = (.ok (Document.keyRow ref.schema row), w) := by
  have hcreated : (Item.create (create .live ref deferred).ref row
      ((create .live ref deferred).loadersFor row ++ [])).run w₀ = (.ok wrapped, w) := by
    rw [List.append_nil]
    exact hwrap
  obtain ⟨hsource, hcell⟩ := create_run hcreated
  refine ⟨hsource, keyFields_run_of_listed haccess hsource fun name hname => ?_⟩
  obtain ⟨v, hv⟩ := Fields.exists_get?_of_mem_names (hlisted name hname)
  have hfirst : (create .live ref deferred).firstSlot row [] name =
      .resolved (Document.valueIn row name) := by
    rw [firstSlot, Document.valueIn, hv]
    rfl
  rw [World.slot?, hcell, ← hfirst]
  apply Fields.get?_eq_some_of_mem
  · have hnodup : ref.schema.names.Nodup := ref.schema.distinct
    simpa [Fields.names, Function.comp_def, create] using hnodup
  · obtain ⟨property, hproperty, rfl⟩ := List.mem_map.1 hname
    exact List.mem_map_of_mem
      (f := fun name => (name, (create .live ref deferred).firstSlot row [] name))
      (List.mem_map_of_mem (Schema.mem_of_mem_keyProperties hproperty))

/-- An item for a row that is kept equals every item with a key that equals what the row says. -/
theorem IsKept.equal_run {access : ItemAccess EvalM} {entry : Value.Key × Row}
    {fields : Fields Value} (hkept : IsKept ref entry) (haccess : access.IsOpen)
    (equalValues : ItemRef → ItemRef → EvalM Bool) (hsource : item.source = ref)
    (hfields : (Item.keyFields access.field item).run w = (.ok fields, w₁))
    (hdata : (keyValue fields).IsData)
    (hsame : (rowKey ref.schema entry.2).same (keyValue fields) = true)
    (hcomplete : ref.schema.hasIdentity = true → Item.isComplete fields = true)
    (hwrap : ((create .live ref deferred).wrap entry.2).run w₀ = (.ok wrapped, w)) :
    ∃ w', (Item.equal access.field equalValues wrapped item).run w = (.ok true, w') := by
  obtain ⟨hwrapped, hwrappedFields⟩ := keyFields_run_of_wrap haccess hkept.listed hwrap
  have hnames : Fields.names (Document.keyRow ref.schema entry.2) = fields.names := by
    rw [Item.keyFields_eq, ItemRef.schema, hsource] at hfields
    rw [Item.keyFields_eq, ItemRef.schema, hwrapped] at hwrappedFields
    rw [names_of_readAll hfields, names_of_readAll hwrappedFields]
  have hboth := Item.isComplete_eq_of_same hkept.said hdata hsame
  exact Item.equal_run_of_keys hwrapped hsource hwrappedFields hfields
    (fun hidentity => ⟨hboth.trans (hcomplete hidentity), hcomplete hidentity⟩)
    (Value.equalEntries_of_same equalValues hnames hkept.said hdata hsame)

end Wrapped

/-- A save that succeeds puts the row that it reads where it finds the key that it reads, and
appends it if it finds none. Along any run of saves that keep their keys, the item for a row that
is replaced equals the saved one, unless the identity is not complete. Whether the items are equal
is asked before the save, with the same access to fields that the save has, and so with access at
any level that reads the same key. -/
theorem saveItem_replaces_equal (hsource : item.source = ref) (hrows : rows? ref w = some entries)
    (hrun : ((create .live ref deferred).saveItem item).run w = (.ok (), w')) :
    ∃ fields w₁ key w₂ row w₃ found,
      (Item.keyFields ItemAccess.live.field item).run w = (.ok fields, w₁) ∧
      ((keyValue fields).toKey ItemAccess.live).run w₁ = (.ok key, w₂) ∧
      (rowOf .live (deferred.map Prod.fst) item).run w₂ = (.ok row, w₃) ∧
      rows? ref w' = some (placed key row entries found) ∧
      ∀ i, found = some i → ∃ old, entries[i]? = some old ∧
        (Kept ref deferred w → (keyValue fields).IsData →
          (ref.schema.hasIdentity = true → Item.isComplete fields = true) →
          Value.clash true (keyValue fields) old.1.value (rowKey ref.schema old.2) = false →
          ∀ w₀ wrapped, ((create .live ref deferred).wrap old.2).run w₀ = (.ok wrapped, w) →
            (∃ w₄, (Item.equal ItemAccess.live.field ItemAccess.live.equal wrapped item).run w =
              (.ok true, w₄)) ∧
            ((Item.keyFields (ItemAccess.atLevel (ItemAccess.levelFor w)).field item).run w =
                (.ok fields, w₁) →
              ∃ w₄, (ItemAccess.live.equal wrapped item).run w = (.ok true, w₄))) := by
  rcases saveItem_cases deferred hrows item with ⟨_, _, hrun', -⟩ |
    ⟨key, w₂, row, w₃, found, w₄, _, hkey, hrow, hfind, hrun', hrows'⟩
  · cases hrun.symm.trans hrun'
  cases hrun.symm.trans hrun'
  obtain ⟨fields, w₁, hfields, htoKey⟩ := EvalM.exists_of_run_bind hkey
  have hvalue : key.value = keyValue fields := value_of_toKey htoKey
  refine ⟨fields, w₁, key, w₂, row, w₃, found, hfields, htoKey, hrow, hrows', ?_⟩
  rintro i rfl
  have hold := List.getElem?_eq_getElem (lt_of_find? hfind)
  refine ⟨_, hold, ?_⟩
  intro hkept hdata hcomplete hclash w₀ wrapped hwrap
  obtain ⟨_, hrows₀, hentries⟩ := hkept.all
  cases hrows.symm.trans hrows₀
  have hsame := IsKept.same_of_find? hentries hold (hvalue ▸ hdata) hfind (hvalue ▸ hclash)
  rw [hvalue] at hsame
  have hequal {access : ItemAccess EvalM} (haccess : access.IsOpen)
      (h : (Item.keyFields access.field item).run w = (.ok fields, w₁))
      (equalValues : ItemRef → ItemRef → EvalM Bool) :=
    (hentries _ (List.mem_of_getElem? hold)).equal_run haccess equalValues hsource h hdata hsame
      hcomplete hwrap
  refine ⟨hequal (.inl rfl) hfields _, fun hlevel => ?_⟩
  -- At the level that the state allows for, items are compared by access of the level below.
  obtain ⟨w₄, hrun₄⟩ := hequal (.inr ⟨_, rfl⟩) hlevel
    (ItemAccess.atLevel ((w.deferredCount + 1) * (w.cells.size + 1))).equal
  exact ⟨w₄, (ItemAccess.run_atLevelFor (fun access => access.equal wrapped item) w).trans hrun₄⟩

theorem saveItem_replaces_equal_grown :
    let schema : Schema :=
      { name := "people", properties := [⟨"id", .boolean, true⟩, ⟨"adult", .boolean, false⟩]
        distinct := by decide }
    let ref : SourceRef := { id := 0, name := "people", schema }
    let source := create .live ref []
    let key : Value.Key := .ofData (.list [.bool true])
    let minor : Row := [("id", .bool true), ("adult", .bool false)]
    let adult : Row := [("id", .bool true), ("adult", .bool true)]
    let second : ItemRef := { cell := 1, source := ref }
    ∃ w₀ wrapped w w' w₁, Kept ref [] w ∧ rows? ref w = some [(key, minor)] ∧
      (source.wrap minor).run w₀ = (.ok wrapped, w) ∧
      (source.saveItem second).run w = (.ok (), w') ∧ rows? ref w' = some [(key, adult)] ∧
      (ItemAccess.live.equal wrapped second).run w = (.ok true, w₁) := by
  intro schema ref source key minor adult second
  let first : ItemRef := { cell := 0, source := ref }
  let wrapped : ItemRef := { cell := 2, source := ref }
  let empty : World :=
    { cells := #[{ source := ref, slots := World.loadedSlots minor },
        { source := ref, slots := World.loadedSlots adult }]
      stores := #[{}] }
  let w₀ : World := { empty with stores := #[{ rows := [(key, minor)] }] }
  let w : World :=
    { w₀ with cells := empty.cells.push { source := ref, slots := World.loadedSlots minor } }
  have hempty : rows? ref empty = some [] := rfl
  have hfields : (Item.keyFields ItemAccess.live.field first).run empty =
      (.ok [("id", .bool true)], empty) := rfl
  have hrow : (rowOf .live [] first).run empty = (.ok minor, empty) := rfl
  have hsaved : (source.saveItem first).run empty = (.ok (), w₀) := by
    rw [saveItem_eq, EvalM.run_bind_ok (prepareSave_run areKeys_bool (by rintro _ ⟨⟩) hempty rfl
      hfields ⟨true, rfl⟩ hrow)]
    rfl
  have hreads : ReadsAlike [] first empty := by
    intro fields _ hread
    cases hfields.symm.trans hread
    refine ⟨areKeys_bool.data ⟨true, rfl⟩, fun row _ hread => ?_⟩
    cases hrow.symm.trans hread
    exact List.cons_subset_cons _ (List.nil_subset _)
  have hkept : Kept ref [] ((source.saveItem first).run empty).2 :=
    (Kept.empty hempty).saved rfl hreads
  rw [hsaved] at hkept
  have hkept' : Kept ref [] w := hkept.aside rfl
  have hrows : rows? ref w = some [(key, minor)] := rfl
  have hfields' : (Item.keyFields ItemAccess.live.field second).run w =
      (.ok [("id", .bool true)], w) := rfl
  have hrow' : (rowOf .live [] second).run w = (.ok adult, w) := rfl
  have hentries : ∀ entry ∈ [(key, minor)], (∃ b, entry.1.value = .list [.bool b]) ∧
      entry.1 = .ofData entry.1.value := by
    intro entry hentry
    cases List.mem_singleton.1 hentry
    exact ⟨⟨true, rfl⟩, rfl⟩
  obtain ⟨w', hrun, hrows'⟩ := saveItem_run areKeys_bool hentries hrows
    (show second.source = ref from rfl) hfields' ⟨true, rfl⟩ hrow'
  have hadult : rows? ref w' = some [(key, adult)] := hrows'
  have hwrap : (source.wrap minor).run w₀ = (.ok wrapped, w) := rfl
  obtain ⟨fields, w₁, key', w₂, row, w₃, found, hread, -, -, hplaced, hequal⟩ :=
    saveItem_replaces_equal (show second.source = ref from rfl) hrows hrun
  cases hfields'.symm.trans hread
  have hfound : found = some 0 := by
    cases found with
    | none =>
        have hlength := congrArg (Option.map List.length) (hplaced.symm.trans hadult)
        cases hlength
    | some i =>
        obtain ⟨_, hold, -⟩ := hequal i rfl
        obtain ⟨hi, -⟩ := List.getElem?_eq_some_iff.1 hold
        rw [Nat.lt_one_iff.1 hi]
  obtain ⟨old, hold, hequal⟩ := hequal 0 hfound
  cases hold
  obtain ⟨-, hlevel⟩ :=
    hequal hkept' (areKeys_bool.data ⟨true, rfl⟩) (fun _ => rfl) rfl w₀ wrapped hwrap
  obtain ⟨w₄, hequal⟩ := hlevel rfl
  exact ⟨w₀, wrapped, w, w', w₄, hkept', hrows, hwrap, hrun, hadult, hequal⟩

/-- A record whose identity is null is replaced by a different one. -/
theorem saveItem_replaces_different :
    let schema : Schema :=
      { name := "people", properties := [⟨"id", .boolean, true⟩, ⟨"adult", .boolean, false⟩]
        distinct := by decide }
    let ref : SourceRef := { id := 0, name := "people", schema }
    let source := create .live ref []
    let key : Value.Key := .ofData (.list [.null])
    let minor : Row := [("id", .null), ("adult", .bool false)]
    let adult : Row := [("id", .null), ("adult", .bool true)]
    let first : ItemRef := { cell := 0, source := ref }
    let second : ItemRef := { cell := 1, source := ref }
    let wrapped : ItemRef := { cell := 2, source := ref }
    let w : World :=
      { cells := #[{ source := ref, slots := World.loadedSlots minor },
          { source := ref, slots := World.loadedSlots adult }]
        stores := #[{}] }
    let w₁ := ((source.saveItem first).run w).2
    let w₂ := ((source.wrap minor).run w₁).2
    let w₃ := ((source.saveItem second).run w₂).2
    (source.saveItem first).run w = (.ok (), w₁) ∧ rows? ref w₁ = some [(key, minor)] ∧
      (source.wrap minor).run w₁ = (.ok wrapped, w₂) ∧
      (ItemAccess.live.equal wrapped second).run w₂ = (.ok false, w₂) ∧
      (source.saveItem second).run w₂ = (.ok (), w₃) ∧ rows? ref w₃ = some [(key, adult)] :=
  ⟨rfl, rfl, rfl, rfl, rfl, rfl⟩

end Source.Memory

end RecordAlgebra
