import Mathlib.Data.List.Nodup
import Mathlib.Data.List.Perm.Subperm
import Mathlib.Data.String.Basic
import RecordAlgebra.Proofs.Datum.Shown

/-!
# Equality of data

Records are equal if they have equal fields in whatever order, and their digests forget the
order as well. Equality is reflexive as long as the fields of every record and item have
distinct names. Among data without items it is symmetric, and it is transitive as long as no
integer is compared with a double: two integers may be next to the same double.
-/

namespace RecordAlgebra

namespace Digest

mutual

theorem same_self : ∀ d : Digest, d.same d = true
  | .null => rfl
  | .bool _ | .number _ | .text _ | .bytes _ | .timestamp _ => by simp [same]
  | .list elements => by
      rw [same]
      exact sameAll_self elements
  | .mapping entries => by
      rw [same]
      exact sameEntries_self entries

theorem sameAll_self : ∀ elements : List Digest, sameAll elements elements = true
  | [] => rfl
  | d :: rest => by rw [sameAll, same_self d, sameAll_self rest, Bool.and_self]

theorem sameEntries_self : ∀ entries : List (String × Digest), sameEntries entries entries = true
  | [] => rfl
  | (name, d) :: rest => by
      rw [sameEntries, same_self d, sameEntries_self rest, beq_self_eq_true, Bool.and_self,
        Bool.and_self]

end

theorem insertEntry_perm (entry : String × Digest) (entries : List (String × Digest)) :
    (insertEntry entry entries).Perm (entry :: entries) := by
  induction entries with
  | nil => exact .refl _
  | cons first rest ih =>
      rw [insertEntry]
      split
      · exact .refl _
      · exact (ih.cons first).trans (.swap entry first rest)

theorem sorted_perm (entries : List (String × Digest)) :
    (entries.foldr insertEntry []).Perm entries := by
  induction entries with
  | nil => exact .refl _
  | cons entry rest ih => exact (insertEntry_perm entry _).trans (ih.cons entry)

theorem insertEntry_pairwise {entry : String × Digest} {entries : List (String × Digest)}
    (h : entries.Pairwise fun a b => a.1 ≤ b.1) :
    (insertEntry entry entries).Pairwise fun a b => a.1 ≤ b.1 := by
  induction entries with
  | nil => exact List.pairwise_singleton _ _
  | cons first rest ih =>
      obtain ⟨hfirst, hrest⟩ := List.pairwise_cons.1 h
      rw [insertEntry]
      split
      next hlt =>
        refine List.pairwise_cons.2 ⟨fun other hother => ?_, h⟩
        rcases List.mem_cons.1 hother with rfl | hother
        · exact le_of_lt hlt
        · exact (le_of_lt hlt).trans (hfirst other hother)
      next hnot =>
        refine List.pairwise_cons.2 ⟨fun other hother => ?_, ih hrest⟩
        rcases List.mem_cons.1 ((insertEntry_perm entry rest).mem_iff.1 hother) with rfl | hother
        · exact not_lt.1 hnot
        · exact hfirst other hother

theorem sorted_pairwise (entries : List (String × Digest)) :
    (entries.foldr insertEntry []).Pairwise fun a b => a.1 ≤ b.1 := by
  induction entries with
  | nil => exact List.Pairwise.nil
  | cons entry rest ih => exact insertEntry_pairwise ih

/-- Entries of distinct names make the same digest in whatever order. -/
theorem ofEntries_eq_of_perm {as bs : List (String × Digest)} (hdistinct : (Fields.names as).Nodup)
    (h : as.Perm bs) : ofEntries as = ofEntries bs := by
  have hsorted : (as.foldr insertEntry []).Perm (bs.foldr insertEntry []) :=
    (sorted_perm as).trans (h.trans (sorted_perm bs).symm)
  have hone : ∀ a b : String × Digest, a ∈ as.foldr insertEntry [] → b ∈ bs.foldr insertEntry [] →
      a.1 ≤ b.1 → b.1 ≤ a.1 → a = b := by
    intro a b ha hb hab hba
    have ha' := (sorted_perm as).mem_iff.1 ha
    have hb' := h.mem_iff.2 ((sorted_perm bs).mem_iff.1 hb)
    exact List.inj_on_of_nodup_map hdistinct ha' hb' (le_antisymm hab hba)
  rw [ofEntries, ofEntries,
    hsorted.eq_of_pairwise hone (sorted_pairwise as) (sorted_pairwise bs)]

end Digest

namespace Datum

/-- The datum has no items, and the fields of its records have distinct names. -/
inductive IsItemFree : Datum → Prop
  | single {d : Datum} : d.bare.isSingle = true → IsItemFree d
  | list {ds : List Datum} : (∀ d ∈ ds, IsItemFree d) → IsItemFree (.list ds)
  | record {ds : Fields Datum} : ds.names.Nodup → (∀ field ∈ ds, IsItemFree field.2) →
      IsItemFree (.record ds)

/-- Records and items in the datum have fields of distinct names. -/
inductive IsFormed : Datum → Prop
  | single {d : Datum} : d.bare.isSingle = true → IsFormed d
  | list {ds : List Datum} : (∀ d ∈ ds, IsFormed d) → IsFormed (.list ds)
  | record {ds : Fields Datum} : ds.names.Nodup → (∀ field ∈ ds, IsFormed field.2) →
      IsFormed (.record ds)
  | item {source : SourceRef} {ds : Fields Datum} : ds.names.Nodup →
      (∀ field ∈ ds, IsFormed field.2) → IsFormed (.item source ds)

mutual

/-- Whether to compare the two data is to compare an integer with a double. -/
def mixes : Datum → Datum → Bool
  | .int _, .float _ | .float _, .int _ => true
  | .list as, .list bs => elementsMix as bs
  | .record as, .record bs => fieldsMix as bs
  | _, _ => false
termination_by structural d => d

def elementsMix : List Datum → List Datum → Bool
  | a :: as, b :: bs => mixes a b || elementsMix as bs
  | _, _ => false

def fieldsMix : List (String × Datum) → List (String × Datum) → Bool
  | [], _ => false
  | (name, a) :: as, bs =>
      (match Fields.get? bs name with
        | none => false
        | some b => mixes a b) || fieldsMix as bs

end

theorem fieldsMix_eq_false_iff {as bs : Fields Datum} : fieldsMix as bs = false ↔
    ∀ field ∈ as, ∀ b, bs.get? field.1 = some b → field.2.mixes b = false := by
  induction as with
  | nil => simp [fieldsMix]
  | cons field as ih =>
      obtain ⟨name, a⟩ := field
      rw [fieldsMix, List.forall_mem_cons, Bool.or_eq_false_iff, ih]
      cases Fields.get? bs name <;> simp

theorem mixes_eq_false_of_elementsMix {as bs : List Datum} (h : elementsMix as bs = false) {i : Nat}
    (hi : i < as.length) (hi' : i < bs.length) : as[i].mixes bs[i] = false := by
  induction as generalizing bs i with
  | nil => cases hi
  | cons a as ih =>
      cases bs with
      | nil => cases hi'
      | cons b bs =>
          rw [elementsMix, Bool.or_eq_false_iff] at h
          cases i with
          | zero => exact h.1
          | succ i => exact ih h.2 (Nat.lt_of_succ_lt_succ hi) (Nat.lt_of_succ_lt_succ hi')

theorem digests_eq_map (ds : List Datum) : digests ds = ds.map digest := by
  induction ds with
  | nil => rfl
  | cons d rest ih => rw [digests, ih, List.map_cons]

theorem digestEntries_eq_map (fields : Fields Datum) :
    digestEntries (fun _ => true) fields = fields.map fun field => (field.1, field.2.digest) := by
  induction fields with
  | nil => rfl
  | cons field rest ih => rw [digestEntries, if_pos rfl, ih, List.map_cons]

/-- Equal records have the same names. -/
theorem names_perm_of_equal {as bs : Fields Datum} (hdistinct : as.names.Nodup)
    (hlength : as.length = bs.length) (h : equalFields as bs = true) :
    as.names.Perm bs.names := by
  have hnames : as.names ⊆ bs.names := by
    intro name hname
    obtain ⟨field, hfield, rfl⟩ := List.mem_map.1 hname
    obtain ⟨b, hb, -⟩ := equalFields_iff.1 h field hfield
    exact Fields.mem_names_of_get? hb
  refine (hdistinct.subperm hnames).perm_of_length_le ?_
  simp [Fields.names, hlength]

/-- In a record the field that is equal to one of another record is found by its name. -/
theorem exists_field_of_equal {as bs : Fields Datum} (hdistinct : as.names.Nodup)
    (hdistinct' : bs.names.Nodup) (hlength : as.length = bs.length)
    (h : equalFields as bs = true) {field : String × Datum} (hfield : field ∈ bs) :
    ∃ a, as.get? field.1 = some a ∧ (field.1, a) ∈ as ∧ a.equal field.2 = true := by
  have hname : field.1 ∈ as.names :=
    (names_perm_of_equal hdistinct hlength h).mem_iff.2 (List.mem_map_of_mem hfield)
  obtain ⟨a, ha⟩ := Fields.exists_get?_of_mem_names hname
  obtain ⟨b, hb, hab⟩ := equalFields_iff.1 h _ (Fields.mem_of_get? ha)
  cases hb.symm.trans (Fields.get?_eq_some_of_mem hdistinct' hfield)
  exact ⟨a, ha, Fields.mem_of_get? ha, hab⟩

theorem equalEntries_self (keep : String → Bool) {ds : Fields Datum}
    (h : ∀ d ∈ ds.map Prod.snd, d.equal d = true) :
    equalEntries keep ds (ds.filter fun field => keep field.1) = true := by
  induction ds with
  | nil => rfl
  | cons field ds ih =>
      obtain ⟨name, d⟩ := field
      have later := ih fun d hd => h d (List.mem_cons_of_mem _ hd)
      rw [equalEntries.eq_def, List.filter_cons]
      by_cases hkeep : keep name = true
      · simp only [hkeep, if_true, beq_self_eq_true, Bool.true_and, h d (by simp), later]
      · simp only [hkeep]
        exact later

section Laws

variable {d e f : Datum} {as : List Datum} {fields : Fields Datum} {source : SourceRef}

theorem isItemFree_list : (Datum.list as).IsItemFree ↔ ∀ d ∈ as, d.IsItemFree := by
  constructor
  · intro h
    cases h with
    | single h => cases h
    | list h => exact h
  · exact .list

theorem isItemFree_record : (Datum.record fields).IsItemFree ↔
    fields.names.Nodup ∧ ∀ field ∈ fields, field.2.IsItemFree := by
  constructor
  · intro h
    cases h with
    | single h => cases h
    | record hdistinct h => exact ⟨hdistinct, h⟩
  · rintro ⟨hdistinct, h⟩
    exact .record hdistinct h

theorem isFormed_list : (Datum.list as).IsFormed ↔ ∀ d ∈ as, d.IsFormed := by
  constructor
  · intro h
    cases h with
    | single h => cases h
    | list h => exact h
  · exact .list

theorem isFormed_record : (Datum.record fields).IsFormed ↔
    fields.names.Nodup ∧ ∀ field ∈ fields, field.2.IsFormed := by
  constructor
  · intro h
    cases h with
    | single h => cases h
    | record hdistinct h => exact ⟨hdistinct, h⟩
  · rintro ⟨hdistinct, h⟩
    exact .record hdistinct h

theorem isFormed_item : (Datum.item source fields).IsFormed ↔
    fields.names.Nodup ∧ ∀ field ∈ fields, field.2.IsFormed := by
  constructor
  · intro h
    cases h with
    | single h => cases h
    | item hdistinct h => exact ⟨hdistinct, h⟩
  · rintro ⟨hdistinct, h⟩
    exact .item hdistinct h

/-- A single value equals only single values. -/
theorem isSingle_of_equal (hd : d.bare.isSingle = true) (h : d.equal e = true) :
    e.bare.isSingle = true := by
  cases d <;> cases hd <;> cases e <;> first | rfl | cases h

theorem equal_self_single (hd : d.bare.isSingle = true) : d.equal d = true := by
  cases d <;> cases hd <;> simp [equal, Binary64.order]

theorem equal_symm_single (hd : d.bare.isSingle = true) (h : d.equal e = true) :
    e.equal d = true := by
  cases d <;> cases hd <;> cases e <;> simp_all [equal, Binary64.order]

theorem equal_trans_single (hd : d.bare.isSingle = true) (hde : d.mixes e = false)
    (hef : e.mixes f = false) (h : d.equal e = true) (h' : e.equal f = true) :
    d.equal f = true := by
  have he := isSingle_of_equal hd h
  have hf := isSingle_of_equal he h'
  cases d <;> cases hd <;> cases e <;> cases he <;> try (simp [equal] at h; done)
  all_goals cases f <;> cases hf <;> simp_all [equal, Binary64.order, mixes]

theorem digest_eq_single (hd : d.bare.isSingle = true) (h : d.equal e = true) :
    d.digest = e.digest := by
  cases d <;> cases hd <;> cases e <;> simp_all [equal, Binary64.order, digest]

/-- What is formed equals itself. -/
theorem IsFormed.equal_self (h : d.IsFormed) : d.equal d = true := by
  induction h with
  | single hsingle => exact equal_self_single hsingle
  | list _ ih =>
      exact equal_list_iff.2 ⟨_, rfl, rfl, fun i hi _ => ih _ (List.getElem_mem hi)⟩
  | record hdistinct _ ih =>
      refine equal_record_iff.2 ⟨_, rfl, rfl, equalFields_iff.2 fun field hfield => ?_⟩
      exact ⟨field.2, Fields.get?_eq_some_of_mem hdistinct hfield, ih field hfield⟩
  | @item source ds _ _ ih =>
      have hparts : ∀ d ∈ ds.map Prod.snd, d.equal d = true := List.forall_mem_map.2 ih
      rw [equal]
      split
      · exact equalEntries_self (isIdentity source) hparts
      · simpa using equalEntries_self (fun _ => true) hparts

namespace IsItemFree

theorem isFormed (h : d.IsItemFree) : d.IsFormed := by
  induction h with
  | single hsingle => exact .single hsingle
  | list _ ih => exact .list ih
  | record hdistinct _ ih => exact .record hdistinct ih

theorem equal_self (h : d.IsItemFree) : d.equal d = true := h.isFormed.equal_self

theorem equal_symm (hd : d.IsItemFree) (he : e.IsItemFree) (h : d.equal e = true) :
    e.equal d = true := by
  induction hd generalizing e with
  | single hsingle => exact equal_symm_single hsingle h
  | @list as _ ih =>
      obtain ⟨bs, rfl, hlength, hall⟩ := equal_list_iff.1 h
      rw [isItemFree_list] at he
      refine equal_list_iff.2 ⟨as, rfl, hlength.symm, fun i hi hi' => ?_⟩
      exact ih _ (List.getElem_mem hi') (he _ (List.getElem_mem hi)) (hall i hi' hi)
  | @record as hdistinct _ ih =>
      obtain ⟨bs, rfl, hlength, hfields⟩ := equal_record_iff.1 h
      obtain ⟨hdistinct', hbs⟩ := isItemFree_record.1 he
      refine equal_record_iff.2 ⟨as, rfl, hlength.symm, equalFields_iff.2 fun field hfield => ?_⟩
      obtain ⟨a, ha, hmem, hab⟩ := exists_field_of_equal hdistinct hdistinct' hlength hfields hfield
      exact ⟨a, ha, ih _ hmem (hbs field hfield) hab⟩

/-- Equality is transitive where only numbers of one kind meet. -/
theorem equal_trans (hd : d.IsItemFree) (hde : d.mixes e = false) (hef : e.mixes f = false)
    (h : d.equal e = true) (h' : e.equal f = true) : d.equal f = true := by
  induction hd generalizing e f with
  | single hsingle => exact equal_trans_single hsingle hde hef h h'
  | @list as _ ih =>
      obtain ⟨bs, rfl, hlength, hall⟩ := equal_list_iff.1 h
      obtain ⟨cs, rfl, hlength', hall'⟩ := equal_list_iff.1 h'
      rw [mixes] at hde hef
      refine equal_list_iff.2 ⟨cs, rfl, hlength.trans hlength', fun i hi hi' => ?_⟩
      have hmid : i < bs.length := hlength ▸ hi
      exact ih _ (List.getElem_mem hi) (mixes_eq_false_of_elementsMix hde hi hmid)
        (mixes_eq_false_of_elementsMix hef hmid hi') (hall i hi hmid) (hall' i hmid hi')
  | @record as _ _ ih =>
      obtain ⟨bs, rfl, hlength, hfields⟩ := equal_record_iff.1 h
      obtain ⟨cs, rfl, hlength', hfields'⟩ := equal_record_iff.1 h'
      rw [mixes, fieldsMix_eq_false_iff] at hde hef
      refine equal_record_iff.2 ⟨cs, rfl, hlength.trans hlength', equalFields_iff.2 ?_⟩
      intro field hfield
      obtain ⟨b, hb, hab⟩ := equalFields_iff.1 hfields field hfield
      obtain ⟨c, hc, hbc⟩ := equalFields_iff.1 hfields' _ (Fields.mem_of_get? hb)
      exact ⟨c, hc, ih field hfield (hde field hfield b hb)
        (hef _ (Fields.mem_of_get? hb) c hc) hab hbc⟩

end IsItemFree

end Laws

end Datum

namespace Value

/-- The value has no items, and the fields of its records have distinct names. -/
inductive IsData : Value → Prop
  | single {v : Value} : v.isSingle = true → IsData v
  | list {vs : List Value} : (∀ v ∈ vs, IsData v) → IsData (.list vs)
  | record {fields : Fields Value} : fields.names.Nodup → (∀ field ∈ fields, IsData field.2) →
      IsData (.record fields)

namespace IsData

variable {v : Value}

theorem isItemFree (h : v.IsData) : (Datum.ofValue v).IsItemFree := by
  induction h with
  | @single v hsingle =>
      refine .single ?_
      cases v <;> first | rfl | cases hsingle
  | list _ ih =>
      rw [Datum.ofValue, Datum.ofValues_eq_map]
      exact .list (List.forall_mem_map.2 ih)
  | record hdistinct _ ih =>
      rw [Datum.ofValue, Datum.ofFields_eq_map]
      refine .record ?_ (List.forall_mem_map.2 ih)
      simpa [Fields.names, Function.comp_def] using hdistinct

theorem bare_ofValue (h : v.IsData) : (Datum.ofValue v).bare = v := by
  induction h with
  | @single v hsingle => cases v <;> first | rfl | cases hsingle
  | @list vs _ ih =>
      rw [Datum.ofValue, Datum.ofValues_eq_map, Datum.bare, Datum.bares_eq_map, List.map_map]
      have helements : vs.map (Datum.bare ∘ Datum.ofValue) = vs.map id := List.map_congr_left ih
      rw [List.map_id] at helements
      exact congrArg Value.list helements
  | @record fields _ _ ih =>
      rw [Datum.ofValue, Datum.ofFields_eq_map, Datum.bare, Datum.bareFields_eq_map, List.map_map]
      have hfields : fields.map (fun field => (field.1, (Datum.ofValue field.2).bare)) =
          fields.map id := List.map_congr_left fun field hfield => Prod.ext rfl (ih field hfield)
      rw [List.map_id] at hfields
      exact congrArg Value.record hfields

/-- In every state it shows the same datum. -/
theorem shows (h : v.IsData) (w : World) : w.Shows v (.ofValue v) := by
  induction h with
  | single hsingle => exact World.shows_ofValue w hsingle
  | list _ ih =>
      rw [Datum.ofValue, Datum.ofValues_eq_map, World.shows_list, List.forall₂_map_right_iff,
        List.forall₂_same]
      exact ih
  | record hdistinct _ ih =>
      rw [Datum.ofValue, Datum.ofFields_eq_map, World.shows_record, List.forall₂_map_right_iff,
        List.forall₂_same]
      exact ⟨hdistinct, fun field hfield => ⟨rfl, ih field hfield⟩⟩

end IsData

end Value

end RecordAlgebra
