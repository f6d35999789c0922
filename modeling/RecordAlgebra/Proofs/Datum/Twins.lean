import RecordAlgebra.Proofs.Item.Holdings
import RecordAlgebra.Proofs.Value.Outline

/-!
# Twins

Twins are equal data that no operation tells apart: they have the same numbers but for the sign
of a zero, the same fields but for their order in records, and items of one source. An integer
and a double are never twins, though they may be equal.
-/

namespace RecordAlgebra.Datum

open Binary64 (orderKey)

inductive Twin : Datum → Datum → Prop
  | single {d : Datum} : d.bare.isSingle = true → Twin d d
  | float {x y : Float} : orderKey x = orderKey y → Twin (.float x) (.float y)
  | list {as bs : List Datum} : as.length = bs.length →
      (∀ (i : Nat) (h : i < as.length) (h' : i < bs.length), Twin as[i] bs[i]) →
      Twin (.list as) (.list bs)
  | record {as bs : Fields Datum} : as.names.Nodup → as.names.Perm bs.names →
      (∀ name a b, as.get? name = some a → bs.get? name = some b → Twin a b) →
      Twin (.record as) (.record bs)
  | item {source : SourceRef} {as bs : Fields Datum} : as.names.Nodup → as.names = bs.names →
      (∀ (i : Nat) (h : i < as.length) (h' : i < bs.length), Twin as[i].2 bs[i].2) →
      Twin (.item source as) (.item source bs)

/-- Fields of one name whose data are related. -/
def Namesake (R : Datum → Datum → Prop) (a b : String × Datum) : Prop := a.1 = b.1 ∧ R a.2 b.2

/-- Mappings with the same names whose fields are twins. -/
structure TwinFields (as bs : Fields Datum) : Prop where
  distinct : as.names.Nodup
  names : as.names.Perm bs.names
  twins : ∀ name a b, as.get? name = some a → bs.get? name = some b → a.Twin b

section Forms

variable {as bs : List Datum} {fields others : Fields Datum} {source : SourceRef} {d e : Datum}

theorem twin_list : (Datum.list as).Twin (.list bs) ↔ List.Forall₂ Twin as bs := by
  rw [List.forall₂_iff_get]
  constructor
  · intro h
    cases h with
    | single h => cases h
    | list hlength h => exact ⟨hlength, h⟩
  · rintro ⟨hlength, h⟩
    exact .list hlength h

theorem twin_record : (Datum.record fields).Twin (.record others) ↔ TwinFields fields others := by
  constructor
  · intro h
    cases h with
    | single h => cases h
    | record hdistinct hnames h => exact ⟨hdistinct, hnames, h⟩
  · rintro ⟨hdistinct, hnames, h⟩
    exact .record hdistinct hnames h

/-- Fields of the same names are related part by part. -/
theorem forall₂_field_iff {R : Datum → Datum → Prop} {as bs : Fields Datum} :
    List.Forall₂ (Namesake R) as bs ↔
      as.names = bs.names ∧
        ∀ (i : Nat) (h : i < as.length) (h' : i < bs.length), R as[i].2 bs[i].2 := by
  rw [List.forall₂_iff_get]
  constructor
  · rintro ⟨hlength, h⟩
    refine ⟨List.ext_getElem (by simpa [Fields.names] using hlength) fun i hi hi' => ?_,
      fun i hi hi' => (h i hi hi').2⟩
    simp only [Fields.names, List.length_map] at hi hi'
    simpa [Fields.names] using (h i hi hi').1
  · rintro ⟨hnames, h⟩
    refine ⟨by simpa [Fields.names] using congrArg List.length hnames,
      fun i hi hi' => ⟨?_, h i hi hi'⟩⟩
    have hname := congrArg (fun names => names[i]?) hnames
    simpa [Fields.names, hi, hi'] using hname

theorem twin_item {other : SourceRef} : (Datum.item source fields).Twin (.item other others) ↔
    source = other ∧ fields.names.Nodup ∧ List.Forall₂ (Namesake Twin) fields others := by
  rw [forall₂_field_iff]
  constructor
  · intro h
    cases h with
    | single h => cases h
    | item hdistinct hnames h => exact ⟨rfl, hdistinct, hnames, h⟩
  · rintro ⟨rfl, hdistinct, hnames, h⟩
    exact .item hdistinct hnames h

theorem twin_list_iff : (Datum.list as).Twin e ↔ ∃ bs, e = .list bs ∧ List.Forall₂ Twin as bs := by
  constructor
  · intro h
    cases e with
    | list bs => exact ⟨bs, rfl, twin_list.1 h⟩
    | _ => cases h
  · rintro ⟨bs, rfl, h⟩
    exact twin_list.2 h

theorem twin_record_iff :
    (Datum.record fields).Twin e ↔ ∃ others, e = .record others ∧ TwinFields fields others := by
  constructor
  · intro h
    cases e with
    | record others => exact ⟨others, rfl, twin_record.1 h⟩
    | _ => cases h
  · rintro ⟨others, rfl, h⟩
    exact twin_record.2 h

theorem twin_item_iff : (Datum.item source fields).Twin e ↔
    ∃ others, e = .item source others ∧ fields.names.Nodup ∧
      List.Forall₂ (Namesake Twin) fields others := by
  constructor
  · intro h
    cases e with
    | item other others =>
        obtain ⟨rfl, hdistinct, h⟩ := twin_item.1 h
        exact ⟨others, rfl, hdistinct, h⟩
    | _ => cases h
  · rintro ⟨others, rfl, hdistinct, h⟩
    exact twin_item.2 ⟨rfl, hdistinct, h⟩

end Forms

section Fields

variable {as bs : Fields Datum} {name : String}

theorem twinFields_of_forall₂ (hdistinct : as.names.Nodup) (h : List.Forall₂ (Namesake Twin) as bs) :
    TwinFields as bs := by
  refine ⟨hdistinct, .of_eq (Fields.names_eq_of_forall₂ h), fun name a b ha hb => ?_⟩
  obtain ⟨c, hc, hac⟩ := Fields.exists_get?_right h ha
  rw [hb, Option.some.injEq] at hc
  exact hc ▸ hac

namespace TwinFields

variable (h : TwinFields as bs)

include h

theorem distinct' : bs.names.Nodup := h.names.nodup_iff.1 h.distinct

theorem length_eq : as.length = bs.length := by
  simpa [Fields.names] using h.names.length_eq

theorem get? (name : String) : Option.Rel Twin (as.get? name) (bs.get? name) := by
  by_cases hname : name ∈ as.names
  · obtain ⟨a, ha⟩ := Fields.exists_get?_of_mem_names hname
    obtain ⟨b, hb⟩ := Fields.exists_get?_of_mem_names (h.names.mem_iff.1 hname)
    rw [ha, hb]
    exact .some (h.twins name a b ha hb)
  · rw [Fields.get?_eq_none_of_not_mem hname,
      Fields.get?_eq_none_of_not_mem fun hmem => hname (h.names.mem_iff.2 hmem)]
    exact .none

end TwinFields

end Fields

namespace Twin

variable {d d' e e' : Datum}

theorem symm (h : d.Twin e) : e.Twin d := by
  induction h with
  | single h => exact .single h
  | float h => exact .float h.symm
  | list hlength _ ih => exact .list hlength.symm fun i h h' => ih i h' h
  | record hdistinct hnames _ ih =>
      exact .record (hnames.nodup_iff.1 hdistinct) hnames.symm fun name a b ha hb => ih name b a hb ha
  | item hdistinct hnames _ ih =>
      exact .item (hnames ▸ hdistinct) hnames.symm fun i h h' => ih i h' h

theorem refl (h : d.IsFormed) : d.Twin d := by
  induction h with
  | single h => exact .single h
  | list _ ih => exact .list rfl fun i h _ => ih _ (List.getElem_mem h)
  | record hdistinct _ ih =>
      refine .record hdistinct (.refl _) fun name a b ha hb => ?_
      rw [ha, Option.some.injEq] at hb
      exact hb ▸ ih _ (Fields.mem_of_get? ha)
  | item hdistinct _ ih => exact .item hdistinct rfl fun i h _ => ih _ (List.getElem_mem h)

theorem isFormed (h : d.Twin e) : d.IsFormed := by
  induction h with
  | single h => exact .single h
  | float => exact .single rfl
  | @list as bs hlength _ ih =>
      refine .list fun d hd => ?_
      obtain ⟨i, hi, rfl⟩ := List.getElem_of_mem hd
      exact ih i hi (hlength ▸ hi)
  | @record as bs hdistinct hnames _ ih =>
      refine .record hdistinct fun field hfield => ?_
      obtain ⟨b, hb⟩ := Fields.exists_get?_of_mem_names
        (hnames.mem_iff.1 (List.mem_map_of_mem hfield))
      exact ih _ _ b (Fields.get?_eq_some_of_mem hdistinct hfield) hb
  | @item source as bs hdistinct hnames _ ih =>
      refine .item hdistinct fun field hfield => ?_
      obtain ⟨i, hi, rfl⟩ := List.getElem_of_mem hfield
      have hlength := congrArg List.length hnames
      simp only [Fields.names, List.length_map] at hlength
      exact ih i hi (hlength ▸ hi)

/-- Twins have the same outline. -/
theorem outline_eq (h : d.Twin e) : d.bare.outline = e.bare.outline := by
  induction h with
  | single => rfl
  | float h => exact congrArg Value.float (Binary64.oneZero_eq_iff.2 h)
  | list hlength _ ih =>
      simp only [bare, Value.outline, bares_eq_map, Value.outlines_eq_map, List.map_map]
      congr 1
      refine List.ext_getElem (by simpa using hlength) fun i hi hi' => ?_
      rw [List.length_map] at hi hi'
      simpa using ih i hi hi'
  | record => rfl
  | item => rfl

theorem isNull_eq (h : d.Twin e) : d.isNull = e.isNull := by
  rw [isNull, isNull, ← Value.isNull_outline, h.outline_eq, Value.isNull_outline]

end Twin

section Comparing

variable {d d' e e' : Datum} {as as' bs bs' : Fields Datum}

theorem equal_single_of_twin (hd : d.bare.isSingle = true) (h : e.Twin e')
    (hequal : d.equal e = true) : d.equal e' = true := by
  cases h with
  | single => exact hequal
  | float h => cases d <;> simp_all [equal, Binary64.order]
  | _ => cases isSingle_of_equal hd hequal

/-- The twins of what equals the first datum equal the second one. -/
def PassesOn (a a' : Datum) : Prop := ∀ b b', b.Twin b' → a.equal b = true → a'.equal b' = true

theorem equalEntries_of_twins {keep : String → Bool} (h : List.Forall₂ (Namesake PassesOn) as as')
    (h' : List.Forall₂ (Namesake Twin) bs bs') (hequal : equalEntries keep as bs = true) :
    equalEntries keep as' bs' = true := by
  induction h generalizing bs bs' with
  | nil =>
      rw [equalEntries, List.isEmpty_iff] at hequal
      subst hequal
      cases h'
      rfl
  | @cons a a' as as' hfield _ ih =>
      obtain ⟨name, a⟩ := a
      obtain ⟨_, a'⟩ := a'
      obtain ⟨rfl, ha⟩ := hfield
      rw [equalEntries.eq_def] at hequal ⊢
      by_cases hkeep : keep name = true
      · simp only [hkeep, if_true] at hequal ⊢
        cases h' with
        | nil => cases hequal
        | @cons b b' bs bs' hfield' hrest' =>
            obtain ⟨other, b⟩ := b
            obtain ⟨_, b'⟩ := b'
            obtain ⟨rfl, hb⟩ := hfield'
            simp only [Bool.and_eq_true, beq_iff_eq] at hequal ⊢
            exact ⟨hequal.1, ha b b' hb hequal.2.1, ih hrest' hequal.2.2⟩
      · simp only [hkeep] at hequal ⊢
        exact ih h' hequal

theorem isComplete_twins (h : List.Forall₂ (Namesake Twin) as bs) : isComplete as = isComplete bs := by
  induction h with
  | nil => rfl
  | cons hab _ ih =>
      rw [isComplete, isComplete, List.all_cons, List.all_cons, hab.2.isNull_eq]
      exact congrArg _ ih

/-- Items that are equal by what counts for them stay equal among twins. -/
theorem equal_item_of_twins {source other : SourceRef} (h : List.Forall₂ (Namesake Twin) as as')
    (passes : List.Forall₂ (Namesake PassesOn) as as') (h' : List.Forall₂ (Namesake Twin) bs bs')
    (hequal : (item source as).equal (item other bs) = true) :
    (item source as').equal (item other bs') = true := by
  have hcomplete : isComplete (identity source as) = isComplete (identity source as') :=
    isComplete_twins (Fields.forall₂_filter h _)
  have hidentity : List.Forall₂ (Namesake Twin) (identity other bs) (identity other bs') :=
    Fields.forall₂_filter h' _
  rw [equal] at hequal ⊢
  rw [← hcomplete, ← isComplete_twins hidentity]
  split at hequal
  · next hcond =>
    rw [if_pos hcond]
    exact equalEntries_of_twins passes hidentity hequal
  · next hcond =>
    rw [if_neg hcond]
    exact equalEntries_of_twins passes h' hequal

theorem equal_of_twins (hd : d.Twin d') (he : e.Twin e') (h : d.equal e = true) :
    d'.equal e' = true := by
  induction hd generalizing e e' with
  | single hsingle => exact equal_single_of_twin hsingle he h
  | @float x y hxy =>
      refine equal_single_of_twin rfl he ?_
      cases e <;> simp_all [equal, Binary64.order]
  | @list as as' hlength _ ih =>
      obtain ⟨bs, rfl, hlength', hall⟩ := equal_list_iff.1 h
      obtain ⟨bs', rfl, hbs⟩ := twin_list_iff.1 he
      obtain ⟨hlength'', hbs⟩ := List.forall₂_iff_get.1 hbs
      refine equal_list_iff.2 ⟨bs', rfl, by omega, fun i hi hi' => ?_⟩
      have hi₁ : i < as.length := by omega
      have hi₂ : i < bs.length := by omega
      exact ih i hi₁ hi (hbs i hi₂ hi') (hall i hi₁ hi₂)
  | @record as as' hdistinct hnames htwins ih =>
      obtain ⟨bs, rfl, hlength, hfields⟩ := equal_record_iff.1 h
      obtain ⟨bs', rfl, hbs⟩ := twin_record_iff.1 he
      have has : TwinFields as as' := ⟨hdistinct, hnames, htwins⟩
      refine equal_record_iff.2 ⟨bs', rfl, ?_, equalFields_iff.2 fun field hfield => ?_⟩
      · rw [← has.length_eq, hlength, hbs.length_eq]
      · obtain ⟨a, ha⟩ := Fields.exists_get?_of_mem_names
          (hnames.mem_iff.2 (List.mem_map_of_mem hfield))
        have hfield' := Fields.get?_eq_some_of_mem has.distinct' hfield
        obtain ⟨b, hb, hab⟩ := equalFields_iff.1 hfields _ (Fields.mem_of_get? ha)
        have hget := hbs.get? field.1
        rw [hb] at hget
        generalize Fields.get? bs' field.1 = found at hget ⊢
        cases hget with
        | some htwin => exact ⟨_, rfl, ih _ a _ ha hfield' htwin hab⟩
  | @item source as as' hdistinct hnames htwins ih =>
      cases e with
      | item other bs =>
          obtain ⟨bs', rfl, -, hbs⟩ := twin_item_iff.1 he
          refine equal_item_of_twins (forall₂_field_iff.2 ⟨hnames, htwins⟩)
            (forall₂_field_iff.2 ⟨hnames, fun i hi hi' b b' hb => ?_⟩) hbs h
          exact ih i hi hi' hb
      | _ => simp [equal] at h

namespace Twin

/-- Twins equal the same data. -/
theorem equal_congr (hd : d.Twin d') (he : e.Twin e') : d.equal e = d'.equal e' :=
  Bool.eq_iff_iff.2 ⟨equal_of_twins hd he, equal_of_twins hd.symm he.symm⟩

theorem digestEntries_of_forall₂ {keep : String → Bool}
    (h : List.Forall₂ (Namesake fun a b => a.digest = b.digest) as bs) :
    digestEntries keep as = digestEntries keep bs := by
  induction h with
  | nil => rfl
  | @cons a b as bs hab _ ih =>
      obtain ⟨name, a⟩ := a
      obtain ⟨_, b⟩ := b
      obtain ⟨rfl, hab⟩ := hab
      rw [digestEntries, digestEntries, ih, hab]

theorem digest_eq (h : d.Twin d') : d.digest = d'.digest := by
  induction h with
  | single => rfl
  | float h => rw [digest, digest, h]
  | list hlength _ ih =>
      rw [digest, digest, digests_eq_map, digests_eq_map]
      congr 1
      refine List.ext_getElem (by simpa using hlength) fun i hi hi' => ?_
      rw [List.length_map] at hi hi'
      rw [List.getElem_map, List.getElem_map]
      exact ih i hi hi'
  | @record as bs hdistinct hnames _ ih =>
      rw [digest, digest, digestEntries_eq_map, digestEntries_eq_map]
      refine Digest.ofEntries_eq_of_perm (by rwa [names_digests]) ?_
      refine (digests_perm_iff hdistinct (hnames.nodup_iff.1 hdistinct)).2
        ⟨hnames, fun field hfield b hb => ?_⟩
      exact ih _ _ b (Fields.get?_eq_some_of_mem hdistinct hfield) hb
  | @item source as bs hdistinct hnames _ ih =>
      rw [digest, digest, digestEntries_of_forall₂ (forall₂_field_iff.2 ⟨hnames, ih⟩)]

theorem sameKey_congr (hd : d.Twin d') (he : e.Twin e') : sameKey d e = sameKey d' e' := by
  rw [sameKey, sameKey, hd.digest_eq, he.digest_eq, hd.equal_congr he]

theorem equal (h : d.Twin e) : d.equal e = true :=
  (equal_congr (refl h.isFormed) h.symm).trans h.isFormed.equal_self

end Twin

end Comparing

/-- Data in which no integer has a double for its counterpart, and in which the counterparts of
items are twins. Equality tells such data apart as far as they are no twins. -/
inductive Kin : Datum → Datum → Prop
  | single {d e : Datum} : d.bare.isSingle = true → d.mixes e = false → Kin d e
  | list {as bs : List Datum} :
      (∀ (i : Nat) (h : i < as.length) (h' : i < bs.length), Kin as[i] bs[i]) →
      Kin (.list as) (.list bs)
  | record {as bs : Fields Datum} : as.names.Nodup →
      (∀ name a b, as.get? name = some a → bs.get? name = some b → Kin a b) →
      Kin (.record as) (.record bs)
  | item {d e : Datum} : d.Twin e → Kin d e

theorem twin_of_single {d e : Datum} (hd : d.bare.isSingle = true) (hmixes : d.mixes e = false)
    (h : d.equal e = true) : d.Twin e := by
  cases d <;> cases hd <;> cases e <;> simp_all [equal, Binary64.order, mixes] <;>
    first | exact .single rfl | exact .float h

/-- Kin that are equal are twins. -/
theorem Kin.twin {d e : Datum} (hkin : d.Kin e) (h : d.equal e = true) : d.Twin e := by
  induction hkin with
  | single hsingle hmixes => exact twin_of_single hsingle hmixes h
  | list _ ih =>
      obtain ⟨bs, hbs, hlength, hall⟩ := equal_list_iff.1 h
      cases hbs
      exact .list hlength fun i hi hi' => ih i hi hi' (hall i hi hi')
  | record hdistinct _ ih =>
      obtain ⟨bs, hbs, hlength, hfields⟩ := equal_record_iff.1 h
      cases hbs
      refine .record hdistinct (names_perm_of_equal hdistinct hlength hfields) ?_
      intro name a b ha hb
      obtain ⟨c, hc, hac⟩ := equalFields_iff.1 hfields _ (Fields.mem_of_get? ha)
      rw [hb, Option.some.injEq] at hc
      exact ih name a b ha hb (hc ▸ hac)
  | item htwin => exact htwin

end RecordAlgebra.Datum
