import RecordAlgebra.Proofs.Datum.Equality

/-!
# Digests of equal data

Equal data have the same digest as long as the items in them are told apart by the same
fields. Items of different sources are compared by all of their fields, but the digest of an
item has only the fields of the identity that its own source declares. So equal items have
different digests exactly if their sources disagree about which fields count.
-/

namespace RecordAlgebra

theorem Digest.ofEntries_eq_iff_perm {as bs : List (String × Digest)}
    (hdistinct : (Fields.names as).Nodup) : ofEntries as = ofEntries bs ↔ as.Perm bs := by
  constructor
  · intro h
    rw [ofEntries, ofEntries, Digest.mapping.injEq] at h
    exact (sorted_perm as).symm.trans (h ▸ sorted_perm bs)
  · exact ofEntries_eq_of_perm hdistinct

mutual

theorem Digest.eq_of_same : ∀ {a b : Digest}, a.same b = true → a = b
  | .null, b, h => by cases b <;> simp_all [same]
  | .bool _, b, h => by cases b <;> simp_all [same]
  | .number _, b, h => by cases b <;> simp_all [same]
  | .text _, b, h => by cases b <;> simp_all [same]
  | .bytes _, b, h => by cases b <;> simp_all [same]
  | .timestamp _, b, h => by cases b <;> simp_all [same]
  | .list as, b, h => by
      cases b with
      | list bs =>
          rw [same] at h
          rw [Digest.eq_of_sameAll h]
      | _ => simp [same] at h
  | .mapping as, b, h => by
      cases b with
      | mapping bs =>
          rw [same] at h
          rw [Digest.eq_of_sameEntries h]
      | _ => simp [same] at h

theorem Digest.eq_of_sameAll : ∀ {as bs : List Digest}, sameAll as bs = true → as = bs
  | [], [], _ => rfl
  | [], _ :: _, h => by simp [sameAll] at h
  | _ :: _, [], h => by simp [sameAll] at h
  | a :: as, b :: bs, h => by
      rw [sameAll, Bool.and_eq_true] at h
      rw [Digest.eq_of_same h.1, Digest.eq_of_sameAll h.2]

theorem Digest.eq_of_sameEntries :
    ∀ {as bs : List (String × Digest)}, sameEntries as bs = true → as = bs
  | [], [], _ => rfl
  | [], _ :: _, h => by simp [sameEntries] at h
  | _ :: _, [], h => by simp [sameEntries] at h
  | (name, a) :: as, (other, b) :: bs, h => by
      rw [sameEntries, Bool.and_eq_true, Bool.and_eq_true, beq_iff_eq] at h
      rw [h.1.1, Digest.eq_of_same h.1.2, Digest.eq_of_sameEntries h.2]

end

theorem Digest.same_iff_eq {a b : Digest} : a.same b = true ↔ a = b :=
  ⟨Digest.eq_of_same, fun h => h ▸ Digest.same_self a⟩

namespace Datum

/-- Whether a field counts for the digests of the items of a source. -/
def counts (source : SourceRef) (name : String) : Bool :=
  !source.schema.hasIdentity || isIdentity source name

/-- The fields of an item that count for its digest. -/
def counted (source : SourceRef) (ds : Fields Datum) : Fields Datum :=
  ds.filter fun field => counts source field.1

mutual

/-- Whether the same fields count for the digests of the items that are at the same place of
the two data. Places inside of fields that do not count make no difference. -/
def alike : Datum → Datum → Bool
  | .list as, .list bs => elementsAlike as bs
  | .record as, .record bs => fieldsAlike (fun _ => true) as bs
  | .item a as, .item b bs =>
      decide ((counted a as).names.Perm (counted b bs).names) &&
        fieldsAlike (counts a) as (counted b bs)
  | _, _ => true
termination_by structural d => d

def elementsAlike : List Datum → List Datum → Bool
  | a :: as, b :: bs => alike a b && elementsAlike as bs
  | _, _ => true

def fieldsAlike (keep : String → Bool) :
    List (String × Datum) → List (String × Datum) → Bool
  | [], _ => true
  | (name, a) :: as, bs =>
      (if keep name then
        match Fields.get? bs name with
        | none => true
        | some b => alike a b
      else true) && fieldsAlike keep as bs

end

theorem elementsAlike_iff {as bs : List Datum} : elementsAlike as bs = true ↔
    ∀ (i : Nat) (h : i < as.length) (h' : i < bs.length), as[i].alike bs[i] = true := by
  induction as generalizing bs with
  | nil => simp [elementsAlike]
  | cons a as ih =>
      cases bs with
      | nil => simp [elementsAlike]
      | cons b bs =>
          rw [elementsAlike, Bool.and_eq_true, ih]
          constructor
          · rintro ⟨hab, hrest⟩ i h h'
            cases i with
            | zero => exact hab
            | succ i => exact hrest i (Nat.lt_of_succ_lt_succ h) (Nat.lt_of_succ_lt_succ h')
          · intro hall
            refine ⟨hall 0 (by simp) (by simp), fun i h h' => ?_⟩
            exact hall (i + 1) (Nat.succ_lt_succ h) (Nat.succ_lt_succ h')

theorem fieldsAlike_iff {keep : String → Bool} {as bs : Fields Datum} :
    fieldsAlike keep as bs = true ↔ ∀ field ∈ as.filter (fun field => keep field.1), ∀ b,
      bs.get? field.1 = some b → field.2.alike b = true := by
  induction as with
  | nil => simp [fieldsAlike]
  | cons field as ih =>
      obtain ⟨name, a⟩ := field
      rw [fieldsAlike, Bool.and_eq_true, ih, List.filter_cons]
      by_cases hkeep : keep name = true
      · simp only [hkeep, if_true, List.forall_mem_cons]
        cases Fields.get? bs name <;> simp
      · simp [hkeep]

theorem digestEntries_eq (keep : String → Bool) (ds : Fields Datum) :
    digestEntries keep ds =
      (ds.filter fun field => keep field.1).map fun field => (field.1, field.2.digest) := by
  induction ds with
  | nil => rfl
  | cons field rest ih =>
      rw [digestEntries, List.filter_cons, ih]
      split <;> rfl

theorem digestEntries_filter (keep : String → Bool) (ds : Fields Datum) :
    digestEntries (fun _ => true) (ds.filter fun field => keep field.1) =
      digestEntries keep ds := by
  rw [digestEntries_eq_map, digestEntries_eq]

section Entries

variable {as bs : Fields Datum}

theorem names_digests (as : Fields Datum) :
    Fields.names (as.map fun field => (field.1, field.2.digest)) = as.names := by
  simp [Fields.names, Function.comp_def]

/-- Two mappings have the same digest if they have the same names and their fields have the
same digests. -/
theorem digests_perm_iff (hdistinct : as.names.Nodup) (hdistinct' : bs.names.Nodup) :
    (as.map fun field => (field.1, field.2.digest)).Perm
        (bs.map fun field => (field.1, field.2.digest)) ↔
      as.names.Perm bs.names ∧ ∀ field ∈ as, ∀ b, bs.get? field.1 = some b →
        field.2.digest = b.digest := by
  constructor
  · intro h
    have hnames := h.map Prod.fst
    refine ⟨by simpa [Fields.names, Function.comp_def] using hnames, fun field hfield b hb => ?_⟩
    have hentry : (field.1, field.2.digest) ∈ as.map fun field => (field.1, field.2.digest) :=
      List.mem_map.2 ⟨field, hfield, rfl⟩
    obtain ⟨other, hother, heq⟩ := List.mem_map.1 (h.mem_iff.1 hentry)
    rw [Prod.mk.injEq] at heq
    have hget := Fields.get?_eq_some_of_mem hdistinct' hother
    rw [heq.1, hb, Option.some.injEq] at hget
    rw [hget, heq.2]
  · rintro ⟨hnames, hfields⟩
    have hdigests : (as.map fun field => (field.1, field.2.digest)).Nodup :=
      List.Nodup.of_map Prod.fst (by simpa [Fields.names, Function.comp_def] using hdistinct)
    refine (hdigests.subperm fun entry hentry => ?_).perm_of_length_le ?_
    · obtain ⟨field, hfield, rfl⟩ := List.mem_map.1 hentry
      obtain ⟨b, hb⟩ := Fields.exists_get?_of_mem_names
        (hnames.mem_iff.1 (List.mem_map_of_mem hfield))
      refine List.mem_map.2 ⟨_, Fields.mem_of_get? hb, ?_⟩
      rw [hfields field hfield b hb]
    · simpa [Fields.names] using hnames.length_eq.ge

/-- Entries that are equal in the same order are found by their names. -/
theorem equal_of_equalEntries {keep : String → Bool} (hdistinct : as.names.Nodup)
    (h : equalEntries keep as bs = true) :
    ∀ field ∈ as.filter (fun field => keep field.1), ∀ b, bs.get? field.1 = some b →
      field.2.equal b = true := by
  induction as generalizing bs with
  | nil => simp
  | cons first as ih =>
      obtain ⟨name, a⟩ := first
      obtain ⟨hfirst, hrest⟩ := List.nodup_cons.1 hdistinct
      rw [equalEntries.eq_def] at h
      rw [List.filter_cons]
      by_cases hkeep : keep name = true
      · simp only [hkeep, if_true] at h ⊢
        cases bs with
        | nil => cases h
        | cons other bs =>
            obtain ⟨other, c⟩ := other
            simp only [Bool.and_eq_true, beq_iff_eq] at h
            obtain ⟨rfl, hac, h⟩ := h
            refine List.forall_mem_cons.2 ⟨fun b hb => ?_, fun field hfield b hb => ?_⟩
            · simp only [Fields.get?, List.lookup_cons, beq_self_eq_true, Option.some.injEq] at hb
              exact hb ▸ hac
            · have hne : (field.1 == name) = false := by
                have hmem := List.mem_map_of_mem (f := Prod.fst) (List.mem_of_mem_filter hfield)
                exact beq_eq_false_iff_ne.2 fun heq => hfirst (heq ▸ hmem)
              simp only [Fields.get?, List.lookup_cons, hne] at hb
              exact ih hrest h field hfield b hb
      · simp only [hkeep] at h ⊢
        exact ih hrest h

theorem names_eq_of_equalEntries {keep : String → Bool} (h : equalEntries keep as bs = true) :
    Fields.names (as.filter fun field => keep field.1) = bs.names := by
  induction as generalizing bs with
  | nil =>
      rw [equalEntries, List.isEmpty_iff] at h
      rw [h, List.filter_nil]
  | cons first as ih =>
      obtain ⟨name, a⟩ := first
      rw [equalEntries.eq_def] at h
      rw [List.filter_cons]
      by_cases hkeep : keep name = true
      · simp only [hkeep, if_true] at h ⊢
        cases bs with
        | nil => cases h
        | cons other bs =>
            obtain ⟨other, c⟩ := other
            simp only [Bool.and_eq_true, beq_iff_eq] at h
            have hrest := ih h.2.2
            rw [Fields.names] at hrest ⊢
            rw [Fields.names, List.map_cons, List.map_cons, h.1, hrest]
            rfl
      · simp only [hkeep] at h ⊢
        exact ih h

theorem nodup_names_counted (source : SourceRef) (hdistinct : as.names.Nodup) :
    (counted source as).names.Nodup :=
  hdistinct.sublist (List.Sublist.map Prod.fst List.filter_sublist)

theorem get?_of_get?_filter {keep : String × Datum → Bool} (hdistinct : as.names.Nodup)
    {name : String} {d : Datum} (h : Fields.get? (as.filter keep) name = some d) :
    as.get? name = some d :=
  Fields.get?_eq_some_of_mem hdistinct (List.mem_of_mem_filter (Fields.mem_of_get? h))

/-- Fields that count for the digests of two equal items are equal. -/
theorem equal_of_equal_item {a b : SourceRef} (hdistinct : as.names.Nodup)
    (hdistinct' : bs.names.Nodup) (h : (item a as).equal (item b bs) = true) :
    ∀ field ∈ counted a as, ∀ d, Fields.get? (counted b bs) field.1 = some d →
      field.2.equal d = true := by
  intro field hfield d hd
  obtain ⟨hmem, hcounts⟩ := List.mem_filter.1 hfield
  rw [equal] at h
  split at h
  · next hboth =>
    simp only [Bool.and_eq_true, decide_eq_true_eq] at hboth
    have hidentity : isIdentity a field.1 = true := by
      simpa [counts, hboth.1.2] using hcounts
    have hkept : field ∈ as.filter fun field => isIdentity a field.1 :=
      List.mem_filter.2 ⟨hmem, hidentity⟩
    have hname := List.mem_map_of_mem (f := Prod.fst) hkept
    rw [← Fields.names, names_eq_of_equalEntries h] at hname
    obtain ⟨c, hc⟩ := Fields.exists_get?_of_mem_names hname
    have hcd := get?_of_get?_filter hdistinct' hc
    rw [get?_of_get?_filter hdistinct' hd, Option.some.injEq] at hcd
    exact equal_of_equalEntries hdistinct h field hkept d (hcd ▸ hc)
  · refine equal_of_equalEntries hdistinct h field (List.mem_filter.2 ⟨hmem, rfl⟩) d ?_
    exact get?_of_get?_filter hdistinct' hd

end Entries

theorem equalEntries_filter (keep : String → Bool) (as bs : Fields Datum) :
    equalEntries (fun _ => true) (as.filter fun field => keep field.1) bs =
      equalEntries keep as bs := by
  induction as generalizing bs with
  | nil => rfl
  | cons field as ih =>
      obtain ⟨name, a⟩ := field
      rw [List.filter_cons]
      conv_rhs => rw [equalEntries.eq_def]
      by_cases hkeep : keep name = true
      · simp only [hkeep, if_true]
        rw [equalEntries.eq_def]
        cases bs with
        | nil => rfl
        | cons other bs => simp only [if_true, ih]
      · simp only [hkeep]
        exact ih bs

/-- Mappings whose fields have the same digests if they are alike are told apart alike. -/
theorem ofEntries_digests_eq_iff {as bs : Fields Datum} (hdistinct : as.names.Nodup)
    (hdistinct' : bs.names.Nodup)
    (h : ∀ field ∈ as, ∀ b, bs.get? field.1 = some b →
      (field.2.digest = b.digest ↔ field.2.alike b = true)) :
    Digest.ofEntries (as.map fun field => (field.1, field.2.digest)) =
        Digest.ofEntries (bs.map fun field => (field.1, field.2.digest)) ↔
      as.names.Perm bs.names ∧ ∀ field ∈ as, ∀ b, bs.get? field.1 = some b →
        field.2.alike b = true := by
  rw [Digest.ofEntries_eq_iff_perm (by rwa [names_digests]), digests_perm_iff hdistinct hdistinct']
  exact and_congr_right fun _ => forall₂_congr fun field hfield => forall₂_congr fun b hb =>
    h field hfield b hb

/-- Equal data have the same digest exactly if the same fields count in both of them. -/
theorem IsFormed.digest_eq_iff_alike {d e : Datum} (hd : d.IsFormed) (he : e.IsFormed)
    (h : d.equal e = true) : d.digest = e.digest ↔ d.alike e = true := by
  induction hd generalizing e with
  | @single d hsingle =>
      refine iff_of_true (digest_eq_single hsingle h) ?_
      cases d <;> first | rfl | cases hsingle
  | @list as _ ih =>
      obtain ⟨bs, rfl, hlength, hall⟩ := equal_list_iff.1 h
      rw [isFormed_list] at he
      rw [digest, digest, Digest.list.injEq, digests_eq_map, digests_eq_map, alike,
        elementsAlike_iff]
      constructor
      · intro hdigests i hi hi'
        refine (ih _ (List.getElem_mem hi) (he _ (List.getElem_mem hi')) (hall i hi hi')).1 ?_
        have hget := congrArg (fun digests => digests[i]?) hdigests
        simpa [hi, hi'] using hget
      · intro halike
        refine List.ext_getElem (by simpa using hlength) fun i hi hi' => ?_
        rw [List.length_map] at hi hi'
        rw [List.getElem_map, List.getElem_map]
        exact (ih _ (List.getElem_mem hi) (he _ (List.getElem_mem hi')) (hall i hi hi')).2
          (halike i hi hi')
  | @record as hdistinct _ ih =>
      obtain ⟨bs, rfl, hlength, hfields⟩ := equal_record_iff.1 h
      obtain ⟨hdistinct', hbs⟩ := isFormed_record.1 he
      have hnames := names_perm_of_equal hdistinct hlength hfields
      rw [digest, digest, digestEntries_eq_map, digestEntries_eq_map, alike, fieldsAlike_iff,
        List.filter_true, ofEntries_digests_eq_iff hdistinct hdistinct', and_iff_right hnames]
      intro field hfield b hb
      obtain ⟨c, hc, hequal⟩ := equalFields_iff.1 hfields field hfield
      rw [hb, Option.some.injEq] at hc
      exact ih field hfield (hbs _ (Fields.mem_of_get? hb)) (hc ▸ hequal)
  | @item a as hdistinct _ ih =>
      cases e with
      | item b bs =>
          obtain ⟨hdistinct', hbs⟩ := isFormed_item.1 he
          rw [alike, Bool.and_eq_true, decide_eq_true_eq, fieldsAlike_iff, digest, digest,
            digestEntries_eq, digestEntries_eq]
          refine ofEntries_digests_eq_iff (nodup_names_counted a hdistinct)
            (nodup_names_counted b hdistinct') fun field hfield d hd => ?_
          have hmem := List.mem_of_mem_filter (Fields.mem_of_get? hd)
          exact ih field (List.mem_of_mem_filter hfield) (hbs _ hmem)
            (equal_of_equal_item hdistinct hdistinct' h field hfield d hd)
      | _ => cases h

namespace IsItemFree

variable {d e : Datum}

/-- Without items no field is left out. -/
theorem alike (hd : d.IsItemFree) : d.alike e = true := by
  induction hd generalizing e with
  | @single d hsingle => cases d <;> first | rfl | cases hsingle
  | list _ ih =>
      cases e with
      | list bs => exact elementsAlike_iff.2 fun i hi hi' => ih _ (List.getElem_mem hi)
      | _ => rfl
  | record _ _ ih =>
      cases e with
      | record bs =>
          exact fieldsAlike_iff.2 fun field hfield b _ => ih field (List.mem_of_mem_filter hfield)
      | _ => rfl

theorem digest_eq (hd : d.IsItemFree) (he : e.IsItemFree) (h : d.equal e = true) :
    d.digest = e.digest :=
  (hd.isFormed.digest_eq_iff_alike he.isFormed h).2 hd.alike

/-- Two data without items are one key if they are equal. -/
theorem sameKey_eq (hd : d.IsItemFree) (he : e.IsItemFree) : sameKey d e = d.equal e := by
  rw [sameKey]
  cases h : d.equal e with
  | false => rw [Bool.and_false]
  | true => rw [hd.digest_eq he h, Digest.same_self, Bool.and_true]

end IsItemFree

end Datum

end RecordAlgebra
