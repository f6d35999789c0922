import RecordAlgebra.Proofs.Document.Identity
import RecordAlgebra.Proofs.Source.Changes
import RecordAlgebra.Proofs.Source.Table
import RecordAlgebra.Source.Memory

/-!
# What a table in memory holds

Over any run of saves and deletions a table holds the rows that their history leads to. The
history tells keys as they were read when an item was saved or deleted. What fails is not part
of it, and neither is what happens to other sources and to items.
-/

namespace RecordAlgebra

/-- The fields by which an item is told apart are read in the order of the schema. -/
theorem Item.keyFields_eq (read : ItemRef → String → EvalM Value) (item : ItemRef) :
    keyFields read item = readAll read item (item.schema.keyProperties.map Property.name) := by
  rw [keyFields, identity?, Schema.keyProperties]
  by_cases hidentity : item.schema.hasIdentity = true
  · rw [if_pos hidentity, if_pos hidentity]
    simp only [bind_assoc, pure_bind, bind_pure]
  · rw [if_neg hidentity, if_neg hidentity, pure_bind]
    rfl

namespace Source.Memory

variable {ref : SourceRef} {item : ItemRef} {w w' : World} {keys : Value → Prop}

/-- The rows of a table, each with its key, if there is such a table. -/
def rows? (ref : SourceRef) (w : World) : Option (List (Value.Key × Row)) :=
  w.stores[ref.id]?.map Store.rows

theorem rows?_congr (h : w'.stores = w.stores) : rows? ref w' = rows? ref w := by
  rw [rows?, h, rows?]

theorem rows?_modify (ref : SourceRef) (f : Store → Store)
    (g : List (Value.Key × Row) → List (Value.Key × Row))
    (h : ∀ store, (f store).rows = g store.rows) (w : World) :
    rows? ref { w with stores := w.stores.modify ref.id f } = (rows? ref w).map g := by
  simp only [rows?, Array.getElem?_modify, if_true, Option.map_map]
  congr 1
  funext store
  exact h store

/-- What the fields of an identity make a key of. -/
def keyValue (fields : Fields Value) : Value := .list (fields.map Prod.snd)

section Preparation

theorem keyOf_spends (stores : Array Store) (item : ItemRef) :
    Spends (.storing stores) 0 (fun _ => True) (keyOf .live item) := by
  have hlive := ItemAccess.live_stores stores
  exact (Item.keyFields_spends hlive.field item).first fun _ _ => hlive.toKey _

theorem rowOf_spends (deferred : List String) (stores : Array Store) (item : ItemRef) :
    Spends (.storing stores) 0 (fun _ => True) (rowOf .live deferred item) :=
  Item.readAll_spends (ItemAccess.live_stores stores).field item _

/-- Everything of a save that comes before the rows change. -/
def prepareSave (source : Source) (ref : SourceRef) (item : ItemRef) :
    EvalM (List (Value.Key × Row)) := do
  source.checkOwned item
  let key ← keyOf .live item
  let row ← rowOf .live [] item
  put .live (← ref.store).rows key row

/-- Everything of a deletion that comes before the rows change. -/
def prepareDelete (source : Source) (ref : SourceRef) (item : ItemRef) : EvalM Nat := do
  source.checkOwned item
  let key ← keyOf .live item
  match ← key.find? .live (← ref.store).rows with
  | some position => pure position
  | none => EvalM.raise ((Error.ofCause .itemNotStored).attach "source" ref.name)

theorem saveItem_eq (ref : SourceRef) (item : ItemRef) :
    (create .live ref []).saveItem item =
      prepareSave (create .live ref []) ref item >>= fun rows =>
        ref.modifyStore fun store => { store with rows } := by
  simp only [saveItem, prepareSave, bind_assoc]
  rfl

theorem deleteItem_eq (ref : SourceRef) (item : ItemRef) :
    (create .live ref []).deleteItem item =
      prepareDelete (create .live ref []) ref item >>= fun position =>
        ref.modifyStore fun store => { store with rows := store.rows.eraseIdx position } := by
  simp only [deleteItem, prepareDelete, bind_assoc]
  congr 1
  funext _
  show delete .live ref item = _
  rw [delete]
  congr 1
  funext key
  congr 1
  funext store
  congr 1
  funext found
  cases found with
  | none => rfl
  | some position => rfl

theorem prepareSave_spends (source : Source) (stores : Array Store) (item : ItemRef) :
    Spends (.storing stores) 0 (fun _ => True) (prepareSave source ref item) := by
  have hlive := ItemAccess.live_stores stores
  refine (checkOwned_spends source stores item).first fun _ _ => ?_
  refine (keyOf_spends stores item).first fun key _ => ?_
  refine (rowOf_spends [] stores item).first fun row _ => ?_
  refine (store_spends ref stores).first fun store _ => ?_
  refine (hlive.find? key store.rows).first fun found _ => ?_
  split <;> exact .pure trivial

theorem prepareDelete_spends (source : Source) (stores : Array Store) (item : ItemRef) :
    Spends (.storing stores) 0 (fun _ => True) (prepareDelete source ref item) := by
  refine (checkOwned_spends source stores item).first fun _ _ => ?_
  refine (keyOf_spends stores item).first fun key _ => ?_
  refine (store_spends ref stores).first fun store _ => ?_
  refine ((ItemAccess.live_stores stores).find? key store.rows).first fun found _ => ?_
  split
  · exact .pure trivial
  · exact .raise trivial

end Preparation

/-- What fails leaves the rows as they are. -/
theorem rows?_of_failed {stop : Stop}
    (h : ((create .live ref []).saveItem item).run w = (.error stop, w') ∨
      ((create .live ref []).deleteItem item).run w = (.error stop, w')) :
    rows? ref w' = rows? ref w := by
  apply rows?_congr
  rcases h with hrun | hrun
  · rw [saveItem_eq] at hrun
    exact stores_of_change_error _ (prepareSave_spends _ _ item) hrun
  · rw [deleteItem_eq] at hrun
    exact stores_of_change_error _ (prepareDelete_spends _ _ item) hrun

section Finding

variable {key : Value.Key} {entries : List (Value.Key × Row)} {v : Value}

theorem toKey_run (h : v.IsData) (w : World) :
    (v.toKey ItemAccess.live).run w = (.ok (.ofData v), w) := by
  rw [Value.toKey, EvalM.run_bind_ok (Value.digest_reads ItemAccess.live_readsLoaded (h.shows w))]
  rfl

theorem find?_run (hkeys : Value.AreKeys keys) (hv : keys v)
    (h : ∀ entry ∈ entries, keys entry.1.value ∧ entry.1 = .ofData entry.1.value) (w : World) :
    ((Value.Key.ofData v).find? .live entries).run w =
      (.ok (entries.findIdx? fun entry => v.same entry.1.value), w) := by
  induction entries with
  | nil => rfl
  | cons entry rest ih =>
      obtain ⟨other, row⟩ := entry
      obtain ⟨⟨hother, hdigest⟩, hrest⟩ := List.forall_mem_cons.1 h
      have hv' := hkeys.data hv
      have hother' := hkeys.data hother
      have hequal := World.keyEqual_run ItemAccess.live_readsLoaded (a := .ofData v) (b := other)
        ⟨hv'.shows w, rfl⟩ ⟨hother'.shows w, congrArg Value.Key.digest hdigest⟩
      rw [hv'.isItemFree.sameKey_eq hother'.isItemFree] at hequal
      rw [Value.Key.find?, EvalM.run_bind_ok hequal, List.findIdx?_cons, Value.same]
      cases (Datum.ofValue v).equal (Datum.ofValue other.value) with
      | true => rfl
      | false =>
          simp only [Bool.false_eq_true, if_false]
          rw [EvalM.run_bind_ok (ih hrest)]
          rfl

theorem put_run (hkeys : Value.AreKeys keys) (hv : keys v)
    (h : ∀ entry ∈ entries, keys entry.1.value ∧ entry.1 = .ofData entry.1.value) (row : Row)
    (w : World) :
    (put .live entries (.ofData v) row).run w = (.ok (place (.ofData v) row entries), w) := by
  rw [put, EvalM.run_bind_ok (find?_run hkeys hv h w)]
  cases hfound : entries.findIdx? fun entry => v.same entry.1.value with
  | some position =>
      rw [place_of_findIdx?_eq_some (.ofData v) hfound]
      rfl
  | none =>
      rw [place_of_findIdx?_eq_none (.ofData v) hfound]
      rfl

end Finding

section Running

variable {entries : List (Value.Key × Row)} {fields : Fields Value} {row : Row} {w₁ w₂ : World}
  (hkeys : Value.AreKeys keys)
  (hentries : ∀ entry ∈ entries, keys entry.1.value ∧ entry.1 = .ofData entry.1.value)
  (hrows : rows? ref w = some entries) (hsource : item.source = ref)
  (hfields : (Item.keyFields ItemAccess.live.field item).run w = (.ok fields, w₁))
  (hv : keys (keyValue fields))

theorem stores_of_keyFields
    (hfields : (Item.keyFields ItemAccess.live.field item).run w = (.ok fields, w₁)) :
    w₁.stores = w.stores :=
  (Item.keyFields_spends (ItemAccess.live_stores w.stores).field item).stores_of_run hfields

theorem stores_of_rowOf (hrow : (rowOf .live [] item).run w = (.ok row, w₁)) :
    w₁.stores = w.stores :=
  (rowOf_spends [] w.stores item).stores_of_run hrow

theorem store_run (hrows : rows? ref w = some entries) :
    ∃ store : Store, ref.store.run w = (.ok store, w) ∧ store.rows = entries := by
  obtain ⟨store, hstore, rfl⟩ := Option.map_eq_some_iff.1 hrows
  refine ⟨store, ?_, rfl⟩
  show (Except.ok (w.stores[ref.id]?.getD {}), w) = _
  rw [hstore]
  rfl

include hkeys hentries hrows hsource hfields hv

theorem prepareSave_run (hrow : (rowOf .live [] item).run w₁ = (.ok row, w₂)) :
    (prepareSave (create .live ref []) ref item).run w =
      (.ok (place (.ofData (keyValue fields)) row entries), w₂) := by
  have hstores := (stores_of_rowOf hrow).trans (stores_of_keyFields hfields)
  obtain ⟨store, hstore, rfl⟩ := store_run ((rows?_congr hstores).trans hrows)
  have hkey : (keyOf .live item).run w = (.ok (.ofData (keyValue fields)), w₁) := by
    rw [keyOf, EvalM.run_bind_ok hfields]
    exact toKey_run (hkeys.data hv) w₁
  rw [prepareSave, EvalM.run_bind_ok (checkOwned_run hsource), EvalM.run_bind_ok hkey,
    EvalM.run_bind_ok hrow, EvalM.run_bind_ok hstore]
  exact put_run hkeys hv hentries row w₂

/-- A save whose fields can be read puts the row in its place. -/
theorem saveItem_run (hrow : (rowOf .live [] item).run w₁ = (.ok row, w₂)) :
    ∃ w', ((create .live ref []).saveItem item).run w = (.ok (), w') ∧
      rows? ref w' = some (place (.ofData (keyValue fields)) row entries) := by
  have hprepare := prepareSave_run hkeys hentries hrows hsource hfields hv hrow
  have hstores := (stores_of_rowOf hrow).trans (stores_of_keyFields hfields)
  refine ⟨_, by rw [saveItem_eq, EvalM.run_bind_ok hprepare]; rfl, ?_⟩
  refine (rows?_modify ref _ (fun _ => place (.ofData (keyValue fields)) row entries)
    (fun _ => rfl) w₂).trans ?_
  rw [rows?_congr hstores, hrows]
  rfl

/-- A deletion whose key can be read finds the row or fails. -/
theorem deleteItem_run :
    (∃ position, (entries.findIdx? fun entry => (keyValue fields).same entry.1.value) = some position ∧
      ((create .live ref []).deleteItem item).run w = (.ok (),
        { w₁ with stores := w₁.stores.modify ref.id fun store =>
            { store with rows := store.rows.eraseIdx position } })) ∨
    (entries.findIdx? fun entry => (keyValue fields).same entry.1.value) = none ∧
      ∃ e, ((create .live ref []).deleteItem item).run w = (.error (.raised e), w₁) ∧
        e.kind = .dataSource := by
  have hstores := stores_of_keyFields hfields
  obtain ⟨store, hstore, rfl⟩ := store_run ((rows?_congr hstores).trans hrows)
  have hkey : (keyOf .live item).run w = (.ok (.ofData (keyValue fields)), w₁) := by
    rw [keyOf, EvalM.run_bind_ok hfields]
    exact toKey_run (hkeys.data hv) w₁
  have hfind := find?_run hkeys hv hentries w₁
  rw [deleteItem, EvalM.run_bind_ok (checkOwned_run hsource)]
  simp only [create]
  rw [delete, EvalM.run_bind_ok hkey, EvalM.run_bind_ok hstore, EvalM.run_bind_ok hfind]
  cases store.rows.findIdx? fun entry => (keyValue fields).same entry.1.value with
  | some position => exact .inl ⟨position, rfl, rfl⟩
  | none => exact .inr ⟨rfl, _, rfl, rfl⟩

end Running

/-- The states to which saves and deletions lead from an empty table, with the history of those
that found keys among the given ones. What fails changes nothing, whatever its key, and anything
else that leaves the table alone may happen in between. -/
inductive Reached (ref : SourceRef) (keys : Value → Prop) : List Change → World → Prop
  | empty {w : World} (h : rows? ref w = some []) : Reached ref keys [] w
  | saved {history : List Change} {w w₁ w₂ : World} {item : ItemRef} {fields : Fields Value}
      {row : Row} (h : Reached ref keys history w) (hsource : item.source = ref)
      (hfields : (Item.keyFields ItemAccess.live.field item).run w = (.ok fields, w₁))
      (hkey : keys (keyValue fields)) (hrow : (rowOf .live [] item).run w₁ = (.ok row, w₂)) :
      Reached ref keys (.saved (keyValue fields) row :: history)
        (((create .live ref []).saveItem item).run w).2
  | deleted {history : List Change} {w w₁ : World} {item : ItemRef} {fields : Fields Value}
      (h : Reached ref keys history w) (hsource : item.source = ref)
      (hfields : (Item.keyFields ItemAccess.live.field item).run w = (.ok fields, w₁))
      (hkey : keys (keyValue fields)) :
      Reached ref keys (.deleted (keyValue fields) :: history)
        (((create .live ref []).deleteItem item).run w).2
  | failed {history : List Change} {w w' : World} {item : ItemRef} {stop : Stop}
      (h : Reached ref keys history w)
      (hrun : ((create .live ref []).saveItem item).run w = (.error stop, w') ∨
        ((create .live ref []).deleteItem item).run w = (.error stop, w')) :
      Reached ref keys history w'
  | aside {history : List Change} {w w' : World} (h : Reached ref keys history w)
      (hsame : rows? ref w' = rows? ref w) : Reached ref keys history w'

/-- The rows list all fields of the schema, and the keys of the history are among the given
ones. -/
structure Tells (ref : SourceRef) (keys : Value → Prop) (history : List Change)
    (entries : List (Value.Key × Row)) : Prop extends Lists keys history entries where
  whole : ∀ entry ∈ entries,
    entry.2 = ref.schema.names.map fun name => (name, Document.valueIn entry.2 name)
  keysOf : ∀ change ∈ history, keys change.key

theorem names_of_readAll {read : ItemRef → String → EvalM Value} {names : List String}
    {fields : Fields Value} (h : (Item.readAll read item names).run w = (.ok fields, w')) :
    fields.names = names := by
  induction names generalizing fields w with
  | nil =>
      cases h
      rfl
  | cons name rest ih =>
      obtain ⟨v, w₁, -, h⟩ := EvalM.exists_of_run_bind h
      obtain ⟨others, w₂, hothers, h⟩ := EvalM.exists_of_run_bind h
      cases h
      rw [Fields.names, List.map_cons]
      exact congrArg (name :: ·) (ih hothers)

theorem rowOf_whole {row : Row} (h : (rowOf .live [] item).run w = (.ok row, w')) :
    row = item.schema.names.map fun name => (name, Document.valueIn row name) := by
  have hnames : row.names = item.schema.names := by
    rw [names_of_readAll h]
    exact List.filter_eq_self.2 fun _ _ => rfl
  have hdistinct : row.names.Nodup := by
    rw [hnames]
    exact item.schema.distinct
  rw [← hnames, Fields.names, List.map_map]
  refine (List.map_id _).symm.trans (List.map_congr_left fun field hfield => ?_)
  have hget := Fields.get?_eq_some_of_mem hdistinct hfield
  simp [Document.valueIn, hget]

/-- A table holds what its history tells. -/
theorem Reached.tells (hkeys : Value.AreKeys keys) {history : List Change}
    (h : Reached ref keys history w) :
    ∃ entries, rows? ref w = some entries ∧ Tells ref keys history entries := by
  induction h with
  | empty hempty => exact ⟨[], hempty, .nil keys, nofun, nofun⟩
  | @saved history w w₁ w₂ item fields row _ hsource hfields hkey hrow ih =>
      obtain ⟨entries, hrows, htells⟩ := ih
      obtain ⟨w', hrun, hrows'⟩ :=
        saveItem_run hkeys htells.keyed hrows hsource hfields hkey hrow
      rw [hrun]
      refine ⟨_, hrows', htells.toLists.saved hkeys (.ofData _) hkey rfl row, ?_,
        List.forall_mem_cons.2 ⟨hkey, htells.keysOf⟩⟩
      intro entry hentry
      rcases mem_place hentry with hold | hnew
      · exact htells.whole entry hold
      · have hwhole := rowOf_whole hrow
        rw [ItemRef.schema, hsource] at hwhole
        rw [hnew]
        exact hwhole
  | @deleted history w w₁ item fields _ hsource hfields hkey ih =>
      obtain ⟨entries, hrows, htells⟩ := ih
      have hstores := stores_of_keyFields hfields
      have hrows₁ : rows? ref w₁ = some entries := (rows?_congr hstores).trans hrows
      have hdeleted := htells.toLists.deleted hkeys (.ofData _) hkey
      have hrowsLeft : rows? ref (((create .live ref []).deleteItem item).run w).2 =
          some (without (keyValue fields) entries) := by
        rcases deleteItem_run hkeys htells.keyed hrows hsource hfields hkey with
          ⟨position, hfound, hrun⟩ | ⟨hnone, e, hrun, -⟩
        · rw [hrun]
          refine (rows?_modify ref _ (fun rows => rows.eraseIdx position) (fun _ => rfl) w₁).trans ?_
          rw [hrows₁, Option.map_some, eraseIdx_of_findIdx? hfound]
        · rw [hrun, hrows₁, without_of_findIdx?_eq_none hnone]
      refine ⟨_, hrowsLeft, hdeleted, fun entry hentry => ?_,
        List.forall_mem_cons.2 ⟨hkey, htells.keysOf⟩⟩
      exact htells.whole entry ((without_sublist _ _).subset hentry)
  | failed _ hrun ih =>
      rw [rows?_of_failed hrun]
      exact ih
  | aside _ hsame ih =>
      rw [hsame]
      exact ih

/-- The key that a row gives. -/
def rowKey (schema : Schema) (row : Row) : Value := keyValue (Document.keyRow schema row)

section Unmodified

variable {row : Row}

theorem keyFields_run_of_listed {access : ItemAccess EvalM} (haccess : access.IsOpen)
    (hsource : item.source = ref)
    (hlisted : ∀ name ∈ ref.schema.keyProperties.map Property.name,
      w.slot? item name = some (.resolved (Document.valueIn row name))) :
    (Item.keyFields access.field item).run w = (.ok (Document.keyRow ref.schema row), w) := by
  rw [Item.keyFields_eq, ItemRef.schema, hsource, readAll_run haccess hlisted, List.map_map]
  rfl

theorem keyFields_run (hsource : item.source = ref) (hholds : HoldsRow item row w) :
    (Item.keyFields ItemAccess.live.field item).run w = (.ok (Document.keyRow ref.schema row), w) := by
  refine keyFields_run_of_listed (.inl rfl) hsource fun name hname => ?_
  obtain ⟨property, hproperty, rfl⟩ := List.mem_map.1 hname
  apply hholds
  rw [ItemRef.schema, hsource]
  exact List.mem_map_of_mem (Schema.mem_of_mem_keyProperties hproperty)

theorem rowOf_run (hsource : item.source = ref) (hholds : HoldsRow item row w)
    (hwhole : row = ref.schema.names.map fun name => (name, Document.valueIn row name)) :
    (rowOf .live [] item).run w = (.ok row, w) := by
  have hschema : item.schema = ref.schema := by rw [ItemRef.schema, hsource]
  have hall : (item.schema.names.filter fun name => !([] : List String).contains name) =
      item.schema.names := List.filter_eq_self.2 fun _ _ => rfl
  rw [rowOf, hall, readAll_run (.inl rfl) hholds, hschema, ← hwhole]

end Unmodified

section Lawful

variable {history : List Change} {entries : List (Value.Key × Row)} {i : Nat} {key : Value.Key}
  {row : Row}

/-- A row is found by any key that is equal to its own. -/
theorem Lists.findIdx?_eq (hkeys : Value.AreKeys keys) (h : Lists keys history entries)
    (hentry : entries[i]? = some (key, row)) {v : Value} (hv : keys v) (hsame : key.value.same v = true) :
    (entries.findIdx? fun entry => v.same entry.1.value) = some i := by
  obtain ⟨hi, hget⟩ := List.getElem?_eq_some_iff.1 hentry
  have hkey : keys key.value := h.mem_keys _ (List.mem_of_getElem? hentry)
  refine List.findIdx?_eq_some_iff_getElem.2 ⟨hi, ?_, fun j hj => ?_⟩
  · rw [hget, hkeys.same_comm hv hkey]
    exact hsame
  · have hearlier := List.pairwise_iff_getElem.1 h.distinct j i (Nat.lt_trans hj hi) hi hj
    have hother := h.mem_keys _ (List.getElem_mem (Nat.lt_trans hj hi))
    rw [hget] at hearlier
    rw [← hkeys.same_congr hkey hv hother hsame, hkeys.same_comm hkey hother, hearlier]
    exact Bool.false_ne_true

/-- What a table does with all that it can be asked for. -/
structure Behaves (ref : SourceRef) (keys : Value → Prop) (history : List Change) (w : World)
    (entries : List (Value.Key × Row)) : Prop where
  rows : rows? ref w = some entries
  keyed : ∀ entry ∈ entries, keys entry.1.value
  /-- There is one row for every key that was saved and not deleted since, that of the latest
  save. -/
  latest : ∀ key, keys key → (entries.filter fun entry => key.same entry.1.value).map Prod.snd =
    ((latest? key history).map Prod.snd).toList
  /-- The rows come in the order of the first saves since then. -/
  ordered : entries.Pairwise fun a b => ∃ m n, opened? a.1.value history = some m ∧
    opened? b.1.value history = some n ∧ m < n
  /-- All items can be had, which hold the rows. -/
  items : ∃ items w', (do (← (create .live ref []).all).collect).run w =
      (.ok (items.map .item), w') ∧ rows? ref w' = some entries ∧
    List.Forall₂ (fun item entry => item.source = ref ∧ HoldsRow item entry.2 w') items entries
  /-- To delete what is not stored is an error, and only that. -/
  delete : ∀ item fields w₁, item.source = ref →
    (Item.keyFields ItemAccess.live.field item).run w = (.ok fields, w₁) → keys (keyValue fields) →
    ((latest? (keyValue fields) history).isSome →
      ∃ w₂, ((create .live ref []).deleteItem item).run w = (.ok (), w₂)) ∧
    (latest? (keyValue fields) history = none →
      ∃ e w₂, ((create .live ref []).deleteItem item).run w = (.error (.raised e), w₂) ∧
        e.kind = .dataSource)
  /-- An item that holds a row finds it, if the row says what it was saved under: it is saved
  without effect, deleted, and then saved as the last one. -/
  unmodified : ∀ (i : Nat) (key : Value.Key) (row : Row), entries[i]? = some (key, row) →
    latest? key.value history = some (rowKey ref.schema row, row) →
    ∀ item w₁, item.source = ref → HoldsRow item row w₁ → rows? ref w₁ = some entries →
      (∃ w₂, ((create .live ref []).saveItem item).run w₁ = (.ok (), w₂) ∧
        rows? ref w₂ = some entries) ∧
      ∃ w₂, ((create .live ref []).deleteItem item).run w₁ = (.ok (), w₂) ∧
        rows? ref w₂ = some (entries.eraseIdx i) ∧
        ∃ w₃, ((create .live ref []).saveItem item).run w₂ = (.ok (), w₃) ∧
          rows? ref w₃ = some (entries.eraseIdx i ++ [(.ofData (rowKey ref.schema row), row)])

theorem Tells.unmodified (hkeys : Value.AreKeys keys) (h : Tells ref keys history entries)
    (hentry : entries[i]? = some (key, row))
    (hlatest : latest? key.value history = some (rowKey ref.schema row, row))
    (hsource : item.source = ref) (hholds : HoldsRow item row w) (hrows : rows? ref w = some entries) :
    (∃ w₁, ((create .live ref []).saveItem item).run w = (.ok (), w₁) ∧ rows? ref w₁ = some entries) ∧
    ∃ w₁, ((create .live ref []).deleteItem item).run w = (.ok (), w₁) ∧
      rows? ref w₁ = some (entries.eraseIdx i) ∧
      ∃ w₂, ((create .live ref []).saveItem item).run w₁ = (.ok (), w₂) ∧
        rows? ref w₂ = some (entries.eraseIdx i ++ [(.ofData (rowKey ref.schema row), row)]) := by
  obtain ⟨hsaved, hsame⟩ := mem_of_latest? hlatest
  have hv : keys (keyValue (Document.keyRow ref.schema row)) := h.keysOf _ hsaved
  have hfound := h.findIdx?_eq hkeys hentry hv hsame
  have hfields := keyFields_run hsource hholds
  have hrow := rowOf_run hsource hholds (h.whole _ (List.mem_of_getElem? hentry))
  constructor
  · obtain ⟨w₁, hrun, hrows₁⟩ := saveItem_run hkeys h.keyed hrows hsource hfields hv hrow
    refine ⟨w₁, hrun, hrows₁.trans ?_⟩
    rw [place_of_findIdx?_eq_some (.ofData (keyValue (Document.keyRow ref.schema row))) hfound]
    congr 1
    refine List.ext_getElem? fun j => ?_
    rw [List.getElem?_modify]
    by_cases hij : i = j
    · subst hij
      simp [hentry]
    · simp [hij]
  · rcases deleteItem_run hkeys h.keyed hrows hsource hfields hv with
      ⟨position, hposition, hrun⟩ | ⟨hnone, -⟩
    · cases hfound.symm.trans hposition
      have hrows₁ := rows?_modify ref
        (fun store => { store with rows := store.rows.eraseIdx i }) (fun rows => rows.eraseIdx i)
        (fun _ => rfl) w
      rw [hrows, Option.map_some] at hrows₁
      refine ⟨_, hrun, hrows₁, ?_⟩
      have hholds' : HoldsRow item row { w with stores := w.stores.modify ref.id fun store =>
          { store with rows := store.rows.eraseIdx i } } := hholds
      have hfields' := keyFields_run hsource hholds'
      have hrow' := rowOf_run hsource hholds' (h.whole _ (List.mem_of_getElem? hentry))
      have hkeyed : ∀ entry ∈ entries.eraseIdx i, keys entry.1.value ∧
          entry.1 = .ofData entry.1.value := fun entry hentry =>
        h.keyed entry ((List.eraseIdx_sublist entries i).subset hentry)
      obtain ⟨w₂, hrun₂, hrows₂⟩ := saveItem_run hkeys hkeyed hrows₁ hsource hfields' hv hrow'
      refine ⟨w₂, hrun₂, hrows₂.trans (congrArg some ?_)⟩
      refine place_of_findIdx?_eq_none _ (List.findIdx?_eq_none_iff.2 fun entry hleft => ?_)
      rw [eraseIdx_of_findIdx? hfound] at hleft
      exact not_same_of_mem_without hkeys hv h.mem_keys h.distinct hleft
    · rw [hnone] at hfound
      cases hfound

theorem Tells.delete (hkeys : Value.AreKeys keys) (h : Tells ref keys history entries)
    (hrows : rows? ref w = some entries) {fields : Fields Value} {w₁ : World}
    (hsource : item.source = ref)
    (hfields : (Item.keyFields ItemAccess.live.field item).run w = (.ok fields, w₁))
    (hv : keys (keyValue fields)) :
    ((latest? (keyValue fields) history).isSome →
      ∃ w₂, ((create .live ref []).deleteItem item).run w = (.ok (), w₂)) ∧
    (latest? (keyValue fields) history = none →
      ∃ e w₂, ((create .live ref []).deleteItem item).run w = (.error (.raised e), w₂) ∧
        e.kind = .dataSource) := by
  have hfound := h.found _ hv
  rcases deleteItem_run hkeys h.keyed hrows hsource hfields hv with
    ⟨position, hposition, hrun⟩ | ⟨hnone, e, hrun, hkind⟩
  · refine ⟨fun _ => ⟨_, hrun⟩, fun hlatest => ?_⟩
    rw [hlatest, Option.map_none, Option.map_eq_none_iff, List.find?_eq_none] at hfound
    obtain ⟨hlt, hsame, -⟩ := List.findIdx?_eq_some_iff_getElem.1 hposition
    exact absurd hsame (hfound _ (List.getElem_mem hlt))
  · refine ⟨fun hlatest => ?_, fun _ => ⟨e, _, hrun, hkind⟩⟩
    have hnot : (entries.find? fun entry => (keyValue fields).same entry.1.value) = none :=
      List.find?_eq_none.2 fun entry hentry => by simp [List.findIdx?_eq_none_iff.1 hnone entry hentry]
    rw [hnot, Option.map_none] at hfound
    rw [Option.map_eq_none_iff.1 hfound.symm] at hlatest
    cases hlatest

theorem Lists.latest (hkeys : Value.AreKeys keys) (h : Lists keys history entries) {v : Value}
    (hv : keys v) : (entries.filter fun entry => v.same entry.1.value).map Prod.snd =
      ((latest? v history).map Prod.snd).toList := by
  rw [← h.found v hv]
  have hone : (entries.filter fun entry => v.same entry.1.value) =
      (entries.find? fun entry => v.same entry.1.value).toList := by
    have hdistinct := h.distinct
    have hmem := h.mem_keys
    clear h
    induction entries with
    | nil => rfl
    | cons entry rest ih =>
        obtain ⟨hentry, hrest⟩ := List.forall_mem_cons.1 hmem
        obtain ⟨hfirst, hdistinct⟩ := List.pairwise_cons.1 hdistinct
        cases hsame : v.same entry.1.value with
        | false => simpa [hsame] using ih hdistinct hrest
        | true =>
            have hnone : (rest.filter fun entry => v.same entry.1.value) = [] := by
              refine List.filter_eq_nil_iff.2 fun other hother => ?_
              rw [hkeys.same_congr hv hentry (hrest other hother) hsame, hfirst other hother]
              exact Bool.false_ne_true
            simp [hsame, hnone]
  rw [hone]
  cases entries.find? fun entry => v.same entry.1.value <;> rfl

theorem Tells.items (h : Tells ref keys history entries) (hrows : rows? ref w = some entries) :
    ∃ items w', (do (← (create .live ref []).all).collect).run w =
      (.ok (items.map .item), w') ∧ rows? ref w' = some entries ∧
    List.Forall₂ (fun item entry => item.source = ref ∧ HoldsRow item entry.2 w') items entries := by
  have hnames : ∀ row ∈ entries.map Prod.snd, ∀ name ∈ row.names, name ∈ ref.schema.names := by
    intro row hrow name hname
    obtain ⟨entry, hentry, rfl⟩ := List.mem_map.1 hrow
    rw [h.whole entry hentry, Fields.names, List.map_map] at hname
    simpa [Function.comp_def] using hname
  let w₀ : World := { w with stores := w.stores.modify ref.id fun store =>
    { store with scans := store.scans + 1 } }
  have hrows₀ := rows?_modify ref (fun store => { store with scans := store.scans + 1 }) id
    (fun _ => rfl) w
  rw [hrows] at hrows₀
  obtain ⟨store, hstore, rfl⟩ := store_run hrows₀
  have hall : (create .live ref []).all.run w =
      (.ok ((create .live ref []).itemsOf (store.rows.map Prod.snd)), w₀) := by
    have hscan : (scan ref).run w = (.ok (store.rows.map Prod.snd), w₀) := by
      rw [scan]
      refine (EvalM.run_bind_ok rfl _).trans ((EvalM.run_bind_ok hstore _).trans rfl)
    exact EvalM.run_bind_ok hscan _
  obtain ⟨items, w', hrun, hstores, hitems⟩ :=
    collect_itemsOf (show (create .live ref []).deferred = [] from rfl) hnames w₀
  refine ⟨items, w', ?_, (rows?_congr hstores).trans hrows₀, ?_⟩
  · rw [EvalM.run_bind_ok hall]
    exact hrun
  · exact List.forall₂_map_right_iff.1 hitems

end Lawful

/-- A table in memory is a map that keeps the order of its keys, over any run of saves and deletions
with keys that have no items and do not mix integers with doubles. What fails leaves the rows and
their order as they are. -/
theorem table_behaves (ref : SourceRef) (keys : Value → Prop) (hkeys : Value.AreKeys keys) :
    (∀ item stop w w', ((create .live ref []).saveItem item).run w = (.error stop, w') ∨
      ((create .live ref []).deleteItem item).run w = (.error stop, w') → rows? ref w' = rows? ref w) ∧
    ∀ history w, Reached ref keys history w → ∃ entries, Behaves ref keys history w entries := by
  constructor
  · intro item stop w w' hfailed
    exact rows?_of_failed hfailed
  · intro history w hreached
    obtain ⟨entries, hrows, htells⟩ := hreached.tells hkeys
    exact ⟨entries, {
      rows := hrows
      keyed := htells.mem_keys
      latest := fun key hkey => htells.latest hkeys hkey
      ordered := htells.ordered
      items := htells.items hrows
      delete := fun item fields w₁ hsource hfields hv => htells.delete hkeys hrows hsource hfields hv
      unmodified := fun i key row hentry hlatest item w₁ hsource hholds hrows₁ =>
        htells.unmodified hkeys hentry hlatest hsource hholds hrows₁ }⟩

theorem areKeys_bool : Value.AreKeys fun v => ∃ b, v = .list [.bool b] where
  data := by
    rintro v ⟨b, rfl⟩
    exact .list fun u hu => by
      cases List.mem_singleton.1 hu
      exact .single rfl
  unmixed := by
    rintro u v ⟨b, rfl⟩ ⟨c, rfl⟩
    rfl

theorem table_behaves_one :
    let schema : Schema :=
      { name := "people", properties := [⟨"id", .boolean, true⟩, ⟨"age", .int, false⟩]
        distinct := by decide }
    let ref : SourceRef := { id := 0, name := "people", schema }
    let source := create .live ref []
    let row : Row := [("id", .bool true), ("age", .int 7)]
    let item : ItemRef := { cell := 0, source := ref }
    let w : World :=
      { cells := #[{ source := ref, slots := World.loadedSlots row }], stores := #[{}] }
    ∃ w₁ w₂, (source.saveItem item).run w = (.ok (), w₁) ∧
      rows? ref w₁ = some [(.ofData (.list [.bool true]), row)] ∧
      (source.deleteItem item).run w₁ = (.ok (), w₂) ∧ rows? ref w₂ = some [] := by
  intro schema ref source row item w
  let w₁ : World := { w with stores := #[{ rows := [(.ofData (.list [.bool true]), row)] }] }
  have hfields : (Item.keyFields ItemAccess.live.field item).run w =
      (.ok [("id", .bool true)], w) := rfl
  have hrow : (rowOf .live [] item).run w = (.ok row, w) := rfl
  have hempty : rows? ref w = some [] := rfl
  have hprepared := prepareSave_run areKeys_bool (by rintro _ ⟨⟩) hempty rfl hfields
    ⟨true, rfl⟩ hrow
  have hsaved : (source.saveItem item).run w = (.ok (), w₁) := by
    rw [saveItem_eq, EvalM.run_bind_ok hprepared]
    rfl
  have hstart : Reached ref (fun v => ∃ b, v = .list [.bool b]) [] w := .empty hempty
  have hreached := hstart.saved (show item.source = ref from rfl) hfields ⟨true, rfl⟩ hrow
  change Reached _ _ _ ((source.saveItem item).run w).2 at hreached
  rw [hsaved] at hreached
  obtain ⟨-, hbehaves⟩ := table_behaves ref _ areKeys_bool
  obtain ⟨entries, hentries⟩ := hbehaves _ w₁ hreached
  cases hentries.rows
  have hholds : HoldsRow item row w₁ := by
    intro name hname
    rcases List.mem_cons.1 hname with rfl | hname
    · rfl
    · cases List.mem_singleton.1 hname
      rfl
  obtain ⟨-, w₂, hdeleted, hrows, -⟩ := hentries.unmodified 0 _ _ rfl rfl item w₁ rfl hholds rfl
  exact ⟨w₁, w₂, hsaved, rfl, hdeleted, hrows⟩

/-- A loader that runs while the row is read may assign the identity, after the key was read.
Then the row is kept under a key that it does not give, and deleting what was read from it
fails. -/
theorem deleteItem_misses_moved :
    let schema : Schema :=
      { name := "people", properties := [⟨"age", .int, false⟩, ⟨"id", .boolean, true⟩]
        distinct := by decide }
    let ref : SourceRef := { id := 0, name := "people", schema }
    let source := create .live ref []
    let loader : Loader := { id := 0, assign := [("id", .bool false)], body := .literal (.int 7) }
    let w : World :=
      { cells := #[{ source := ref
                     slots := [("age", .deferred loader), ("id", .resolved (.bool true))] }]
        stores := #[{}] }
    ∃ w₁ row w₂ item w₃ e w₄, (source.saveItem { cell := 0, source := ref }).run w = (.ok (), w₁) ∧
      source.scan.run w₁ = (.ok [row], w₂) ∧ (source.wrap row).run w₂ = (.ok item, w₃) ∧
      (source.deleteItem item).run w₃ = (.error (.raised e), w₄) :=
  ⟨_, _, _, _, _, _, _, rfl, rfl, rfl, rfl⟩

end Source.Memory

end RecordAlgebra
