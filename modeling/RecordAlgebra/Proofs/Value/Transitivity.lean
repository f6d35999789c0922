import RecordAlgebra.Proofs.Source.Table
import RecordAlgebra.Proofs.Value.Clash

/-!
# Where equality is transitive

Two different integers may both be equal to the double that is next to them, and then equality
is not transitive. Nothing else goes wrong: without such a clash it is transitive for all values
without items.
-/

namespace RecordAlgebra

namespace Value

section Equality

variable {a b c : Value}

theorem same_list {as bs : List Value} : (Value.list as).same (.list bs) =
    Datum.equalElements (Datum.ofValues as) (Datum.ofValues bs) := rfl

theorem same_record {as bs : Fields Value} : (Value.record as).same (.record bs) =
    (decide (as.length = bs.length) &&
      Datum.equalFields (Datum.ofFields as) (Datum.ofFields bs)) := by
  rw [same, Datum.ofValue, Datum.ofValue, Datum.equal, Datum.ofFields_eq_map,
    Datum.ofFields_eq_map, List.length_map, List.length_map]

theorem get?_ofFields (fields : Fields Value) (name : String) :
    Fields.get? (Datum.ofFields fields) name = (fields.get? name).map Datum.ofValue := by
  rw [Datum.ofFields_eq_map]
  exact Fields.get?_map_snd Datum.ofValue fields name

theorem isData_list {vs : List Value} : (Value.list vs).IsData ↔ ∀ v ∈ vs, v.IsData := by
  constructor
  · intro h
    cases h with
    | single h => cases h
    | list h => exact h
  · exact .list

theorem isData_record {fields : Fields Value} : (Value.record fields).IsData ↔
    fields.names.Nodup ∧ ∀ field ∈ fields, field.2.IsData := by
  constructor
  · intro h
    cases h with
    | single h => cases h
    | record hdistinct h => exact ⟨hdistinct, h⟩
  · rintro ⟨hdistinct, h⟩
    exact .record hdistinct h

/-- Equal records have equal fields of the same names. -/
theorem exists_field_of_same {as bs : Fields Value}
    (h : Datum.equalFields (Datum.ofFields as) (Datum.ofFields bs) = true)
    {field : String × Value} (hfield : field ∈ as) :
    ∃ b, bs.get? field.1 = some b ∧ field.2.same b = true := by
  have hmem : (field.1, Datum.ofValue field.2) ∈ Datum.ofFields as := by
    rw [Datum.ofFields_eq_map]
    exact List.mem_map_of_mem (f := fun field => (field.1, Datum.ofValue field.2)) hfield
  obtain ⟨e, he, hequal⟩ := Datum.equalFields_iff.1 h _ hmem
  rw [get?_ofFields, Option.map_eq_some_iff] at he
  obtain ⟨b, hb, rfl⟩ := he
  exact ⟨b, hb, hequal⟩

section Access

variable {m : Type → Type} [Monad m] [LawfulMonad m] (items : ItemRef → ItemRef → m Bool)

theorem equalElements_eq {as bs : List Value}
    (step : ∀ a ∈ as, ∀ b ∈ bs, equal items a b = pure (a.same b)) :
    equalElements items as bs =
      pure (Datum.equalElements (Datum.ofValues as) (Datum.ofValues bs)) := by
  induction as generalizing bs with
  | nil => cases bs <;> rfl
  | cons a as ih =>
      cases bs with
      | nil => rfl
      | cons b bs =>
          have hrest := @ih bs fun a ha b hb => step a (by simp [ha]) b (by simp [hb])
          rw [equalElements, step a (by simp) b (by simp), pure_bind, hrest, same, Datum.ofValues,
            Datum.ofValues, Datum.equalElements]
          cases (Datum.ofValue a).equal (Datum.ofValue b) <;> rfl

theorem equalFields_eq {as bs : Fields Value}
    (step : ∀ field ∈ as, ∀ other ∈ bs, equal items field.2 other.2 = pure (field.2.same other.2)) :
    equalFields items as bs =
      pure (Datum.equalFields (Datum.ofFields as) (Datum.ofFields bs)) := by
  induction as with
  | nil => rfl
  | cons field as ih =>
      obtain ⟨name, a⟩ := field
      rw [equalFields, Datum.ofFields, Datum.equalFields, get?_ofFields]
      cases hb : Fields.get? bs name with
      | none => rfl
      | some b =>
          simp only [Option.map_some]
          rw [step (name, a) (by simp) _ (Fields.mem_of_get? hb), pure_bind,
            ih fun field hfield => step field (by simp [hfield]), same]
          cases (Datum.ofValue a).equal (Datum.ofValue b) <;> rfl

/-- Values without items are compared without a look at any item. -/
theorem IsData.equal_eq (ha : a.IsData) (hb : b.IsData) :
    equal items a b = pure (a.same b) := by
  induction ha generalizing b with
  | @single a hsingle =>
      cases hb with
      | @single b hsingle' =>
          cases a <;> cases hsingle <;> cases b <;> first | rfl | cases hsingle'
      | _ => cases a <;> first | rfl | cases hsingle
  | @list as has ih =>
      cases hb with
      | @single b hsingle => cases b <;> first | rfl | cases hsingle
      | @list bs hbs =>
          have helements := equalElements_eq items fun a ha b hb => ih a ha (hbs b hb)
          rw [equal, helements, same_list]
          split
          · rfl
          · next hlength =>
            rw [Datum.equalElements_of_length_ne (by simpa [Datum.ofValues_eq_map] using hlength)]
      | record => rfl
  | @record as _ has ih =>
      cases hb with
      | @single b hsingle => cases b <;> first | rfl | cases hsingle
      | list => rfl
      | @record bs _ hbs =>
          have hfields := equalFields_eq items fun field hfield other hother =>
            ih field hfield (hbs other hother)
          rw [equal, hfields, same_record]
          split
          · next hlength => rw [decide_eq_true hlength, Bool.true_and]
          · next hlength => rw [decide_eq_false hlength, Bool.false_and]

end Access

/-- Equality of values in which no item is met. -/
def Equals (a b : Value) : Prop := equal ItemAccess.detached.equal a b = .ok true

theorem IsData.equals_iff (ha : a.IsData) (hb : b.IsData) : a.Equals b ↔ a.same b = true := by
  rw [Equals, ha.equal_eq _ hb]
  exact ⟨Except.ok.inj, congrArg Except.ok⟩

/-- Values without items are equal only to values of their kind. -/
theorem IsData.kind_of_same (ha : a.IsData) (hb : b.IsData) (h : a.same b = true) :
    (a.isSingle = true ∧ b.isSingle = true) ∨ (∃ as bs, a = .list as ∧ b = .list bs) ∨
      ∃ as bs, a = .record as ∧ b = .record bs := by
  cases ha with
  | @single a hsingle =>
      cases hb with
      | single hsingle' => exact .inl ⟨hsingle, hsingle'⟩
      | _ => cases a <;> first | cases hsingle; done | cases h
  | list =>
      cases hb with
      | @single b hsingle' => cases b <;> first | cases hsingle'; done | cases h
      | list => exact .inr (.inl ⟨_, _, rfl, rfl⟩)
      | record => cases h
  | record =>
      cases hb with
      | @single b hsingle' => cases b <;> first | cases hsingle'; done | cases h
      | list => cases h
      | record => exact .inr (.inr ⟨_, _, rfl, rfl⟩)

theorem totalOrderLists_of_same {as bs : List Value}
    (step : ∀ a ∈ as, ∀ b ∈ bs, a.same b = true → totalOrder a b = .eq)
    (h : Datum.equalElements (Datum.ofValues as) (Datum.ofValues bs) = true) :
    totalOrderLists as bs = .eq := by
  induction as generalizing bs with
  | nil =>
      cases bs with
      | nil => rfl
      | cons b bs => cases h
  | cons a as ih =>
      cases bs with
      | nil => cases h
      | cons b bs =>
          rw [Datum.ofValues, Datum.ofValues, Datum.equalElements, Bool.and_eq_true] at h
          rw [totalOrderLists, step a (by simp) b (by simp) h.1, Ordering.eq_then]
          exact ih (fun a ha b hb => step a (by simp [ha]) b (by simp [hb])) h.2

/-- Equal values are equal in the order. -/
theorem IsData.totalOrder_of_same (ha : a.IsData) (hb : b.IsData) (h : a.same b = true) :
    totalOrder a b = .eq := by
  induction ha generalizing b with
  | @single a hsingle =>
      rcases (IsData.single hsingle).kind_of_same hb h with ⟨-, hsingle'⟩ | ⟨_, _, rfl, rfl⟩ |
        ⟨_, _, rfl, rfl⟩
      · cases a <;> cases hsingle <;> cases b <;> cases hsingle' <;>
          simp_all [same, Datum.ofValue, Datum.equal, totalOrder, order,
            Std.ReflCmp.compare_self, Binary64.order]
      · cases hsingle
      · cases hsingle
  | @list as has ih =>
      rcases (IsData.list has).kind_of_same hb h with ⟨hsingle, -⟩ | ⟨_, bs, ⟨⟩, rfl⟩ |
        ⟨_, _, ⟨⟩, -⟩
      · cases hsingle
      · cases hb with
        | single hsingle => cases hsingle
        | list hbs =>
            rw [totalOrder]
            exact totalOrderLists_of_same (fun a ha b hb => ih a ha (hbs b hb)) h
  | @record as hdistinct has ih =>
      rcases (IsData.record hdistinct has).kind_of_same hb h with ⟨hsingle, -⟩ | ⟨_, _, ⟨⟩, -⟩ |
        ⟨_, bs, ⟨⟩, rfl⟩
      · cases hsingle
      · rfl

/-- Of three single values, the first two and the last two of which are equal, the first equals
the last unless they clash. -/
theorem same_trans_iff_of_single (ha : a.isSingle = true) (hb : b.isSingle = true)
    (hc : c.isSingle = true) (hab : a.same b = true) (hbc : b.same c = true) (inRecords : Bool) :
    a.same c = true ↔ clash inRecords a b c = false := by
  cases a <;> cases ha <;> cases b <;> cases hb <;>
    try (simp [same, Datum.ofValue, Datum.equal] at hab; done)
  all_goals
    cases c <;> cases hc <;> try (simp [same, Datum.ofValue, Datum.equal] at hbc; done)
  all_goals simp_all [same, Datum.ofValue, Datum.equal, clash, splits, Binary64.order]

theorem elements_trans_iff {as bs cs : List Value}
    (step : ∀ a ∈ as, ∀ b ∈ bs, ∀ c ∈ cs, a.same b = true → b.same c = true →
      totalOrder a b = .eq ∧ totalOrder b c = .eq ∧
        (a.same c = true ↔ clash true a b c = false))
    (hab : Datum.equalElements (Datum.ofValues as) (Datum.ofValues bs) = true)
    (hbc : Datum.equalElements (Datum.ofValues bs) (Datum.ofValues cs) = true) :
    Datum.equalElements (Datum.ofValues as) (Datum.ofValues cs) = true ↔
      elementsClash true as bs cs = false := by
  induction as generalizing bs cs with
  | nil =>
      cases bs with
      | nil => exact iff_of_true hbc rfl
      | cons b bs => cases hab
  | cons a as ih =>
      cases bs with
      | nil => cases hab
      | cons b bs =>
          cases cs with
          | nil => cases hbc
          | cons c cs =>
              simp only [Datum.ofValues, Datum.equalElements, Bool.and_eq_true] at hab hbc ⊢
              obtain ⟨hab', hbc', hac⟩ := step a (by simp) b (by simp) c (by simp) hab.1 hbc.1
              have hrest := @ih bs cs (fun a ha b hb c hc =>
                step a (by simp [ha]) b (by simp [hb]) c (by simp [hc])) hab.2 hbc.2
              rw [elementsClash, hab', hbc', Bool.or_eq_false_iff, ← hac, hrest]
              simp [same]

theorem fields_trans_iff {as bs cs : Fields Value}
    (step : ∀ field ∈ as, ∃ b c, bs.get? field.1 = some b ∧ cs.get? field.1 = some c ∧
      (field.2.same c = true ↔ clash true field.2 b c = false)) :
    Datum.equalFields (Datum.ofFields as) (Datum.ofFields cs) = true ↔
      fieldsClash true as bs cs = false := by
  induction as with
  | nil => exact iff_of_true rfl rfl
  | cons field as ih =>
      obtain ⟨name, a⟩ := field
      obtain ⟨⟨b, c, hb, hc, hac⟩, hrest⟩ := List.forall_mem_cons.1 step
      rw [Datum.ofFields, Datum.equalFields, get?_ofFields, hc, fieldsClash, hb, hc,
        Bool.or_eq_false_iff, ← hac, ← ih hrest]
      simp [same]

/-- Of three values, the first two and the last two of which are equal, the first equals the
last unless they clash. -/
theorem IsData.same_trans_iff (ha : a.IsData) (hb : b.IsData) (hc : c.IsData)
    (hab : a.same b = true) (hbc : b.same c = true) :
    a.same c = true ↔ clash true a b c = false := by
  induction ha generalizing b c with
  | @single a hsingle =>
      rcases (IsData.single hsingle).kind_of_same hb hab with ⟨-, hsingle'⟩ | ⟨_, _, rfl, rfl⟩ |
        ⟨_, _, rfl, rfl⟩
      · rcases hb.kind_of_same hc hbc with ⟨-, hsingle''⟩ | ⟨_, _, rfl, rfl⟩ | ⟨_, _, rfl, rfl⟩
        · exact same_trans_iff_of_single hsingle hsingle' hsingle'' hab hbc true
        · cases hsingle'
        · cases hsingle'
      · cases hsingle
      · cases hsingle
  | @list as has ih =>
      rcases (IsData.list has).kind_of_same hb hab with ⟨hsingle, -⟩ | ⟨_, bs, ⟨⟩, rfl⟩ |
        ⟨_, _, ⟨⟩, -⟩
      · cases hsingle
      rcases hb.kind_of_same hc hbc with ⟨hsingle, -⟩ | ⟨_, cs, ⟨⟩, rfl⟩ | ⟨_, _, ⟨⟩, -⟩
      · cases hsingle
      have hbs := isData_list.1 hb
      have hcs := isData_list.1 hc
      rw [same_list] at hab hbc ⊢
      rw [clash]
      refine elements_trans_iff (fun a ha b hb c hc hab hbc => ?_) hab hbc
      exact ⟨(has a ha).totalOrder_of_same (hbs b hb) hab,
        (hbs b hb).totalOrder_of_same (hcs c hc) hbc, ih a ha (hbs b hb) (hcs c hc) hab hbc⟩
  | @record as hdistinct has ih =>
      rcases (IsData.record hdistinct has).kind_of_same hb hab with ⟨hsingle, -⟩ | ⟨_, _, ⟨⟩, -⟩ |
        ⟨_, bs, ⟨⟩, rfl⟩
      · cases hsingle
      rcases hb.kind_of_same hc hbc with ⟨hsingle, -⟩ | ⟨_, _, ⟨⟩, -⟩ | ⟨_, cs, ⟨⟩, rfl⟩
      · cases hsingle
      obtain ⟨-, hbs⟩ := isData_record.1 hb
      obtain ⟨-, hcs⟩ := isData_record.1 hc
      rw [same_record, Bool.and_eq_true, decide_eq_true_eq] at hab hbc ⊢
      rw [clash, Bool.true_and, and_iff_right (hab.1.trans hbc.1)]
      refine fields_trans_iff fun field hfield => ?_
      obtain ⟨b, hb, hab⟩ := exists_field_of_same hab.2 hfield
      obtain ⟨c, hc, hbc⟩ := exists_field_of_same hbc.2 (Fields.mem_of_get? hb)
      exact ⟨b, c, hb, hc, ih field hfield (hbs _ (Fields.mem_of_get? hb))
        (hcs _ (Fields.mem_of_get? hc)) hab hbc⟩

theorem IsData.same_self (h : a.IsData) : a.same a = true := h.isItemFree.equal_self

theorem IsData.same_comm (ha : a.IsData) (hb : b.IsData) : a.same b = b.same a := by
  rw [Bool.eq_iff_iff]
  exact ⟨ha.isItemFree.equal_symm hb.isItemFree, hb.isItemFree.equal_symm ha.isItemFree⟩

end Equality

/-- No three of the values clash. -/
def Unclashed (inRecords : Bool) (vs : List Value) : Prop :=
  ∀ a ∈ vs, ∀ b ∈ vs, ∀ c ∈ vs, clash inRecords a b c = false

namespace Unclashed

variable {vs : List Value} {a b c : Value}

/-- Values that equal the same value equal each other, unless they clash with it. -/
theorem same_iff (h : Unclashed true vs) (hdata : ∀ v ∈ vs, v.IsData) (ha : a ∈ vs) (hb : b ∈ vs)
    (hc : c ∈ vs) (hac : a.same c = true) : b.same c = true ↔ a.same b = true := by
  have ha' := hdata a ha
  have hb' := hdata b hb
  have hc' := hdata c hc
  have hca : c.same a = true := (ha'.same_comm hc').symm.trans hac
  constructor
  · intro hbc
    have hcb : c.same b = true := (hb'.same_comm hc').symm.trans hbc
    exact (ha'.same_trans_iff hc' hb' hac hcb).2 (h a ha c hc b hb)
  · intro hab
    have hba : b.same a = true := (ha'.same_comm hb').symm.trans hab
    exact (hb'.same_trans_iff ha' hc' hba hac).2 (h b hb a ha c hc)

end Unclashed

section Order

variable {a b c : Value}

/-- What two comparisons say of the third one, unless there is a clash. -/
theorem order_trans_of_clash (h : clash false a b c = false) {x y z : Ordering}
    (hab : order a b = .ok x) (hbc : order b c = .ok y) (hac : order a c = .ok z)
    (hx : x ≠ .gt) (hy : y ≠ .gt) : z ≠ .gt ∧ (z = .eq → x = .eq ∧ y = .eq) := by
  have hchain := chain_of_clash h
  rw [totalOrder_of_order hab, totalOrder_of_order hbc, totalOrder_of_order hac] at hchain
  rw [hchain.through (Ordering.isLE_iff_ne_gt.2 hx) (Ordering.isLE_iff_ne_gt.2 hy)]
  revert hx hy
  cases x <;> cases y <;> decide

theorem totalOrder_trans_of_clash (h : clash false a b c = false)
    (hab : (totalOrder a b).isLE) (hbc : (totalOrder b c).isLE) : (totalOrder a c).isLE := by
  rw [(chain_of_clash h).through hab hbc]
  revert hab hbc
  cases totalOrder a b <;> cases totalOrder b c <;> decide

end Order

end Value

end RecordAlgebra
