import RecordAlgebra.Proofs.Datum.Alike
import RecordAlgebra.Proofs.Item.Depth

/-!
# Items that load

A loader may change the state, so what an item holds is not said by one state. It is said by
a family of states: from each of them every field is read without failing, as the same datum
every time, and the state that a read leaves belongs to the family again. Then comparing
values and making keys of them end in the family as well, and they find what holds of the
data.
-/

namespace RecordAlgebra

/-- From every state of the family the action ends with a result that has the property, and it
leaves a state of the family. -/
def Finds {α : Type} (I : World → Prop) (P : α → Prop) (m : EvalM α) : Prop :=
  ∀ w, I w → ∃ a w', m.run w = (.ok a, w') ∧ I w' ∧ P a

namespace Finds

variable {α β : Type} {I : World → Prop} {P : α → Prop} {Q : β → Prop} {m : EvalM α}

theorem pure {a : α} (h : P a) : Finds I P (pure a) := fun w hw => ⟨a, w, rfl, hw, h⟩

theorem bind {f : α → EvalM β} (h : Finds I P m) (step : ∀ a, P a → Finds I Q (f a)) :
    Finds I Q (m >>= f) := by
  intro w hw
  obtain ⟨a, w', hrun, hw', ha⟩ := h w hw
  rw [EvalM.run_bind_ok hrun]
  exact step a ha w' hw'

theorem attempt (h : Finds I P m) :
    Finds I (fun outcome => ∃ a, outcome = .ok a ∧ P a) m.attempt := by
  intro w hw
  obtain ⟨a, w', hrun, hw', ha⟩ := h w hw
  exact ⟨.ok a, w', EvalM.run_attempt_ok hrun, hw', a, rfl, ha⟩

theorem mono {P' : α → Prop} (h : Finds I P m) (hP : ∀ a, P a → P' a) : Finds I P' m := by
  intro w hw
  obtain ⟨a, w', hrun, hw', ha⟩ := h w hw
  exact ⟨a, w', hrun, hw', hP a ha⟩

end Finds

/-- What items hold once they are loaded, by their cells in the heap. -/
structure Holdings where
  fields? : Nat → Option (SourceRef × Fields Datum)
  names {cell : Nat} {source : SourceRef} {ds : Fields Datum}
    (h : fields? cell = some (source, ds)) : ds.names = source.schema.names
  formed {cell : Nat} {source : SourceRef} {ds : Fields Datum}
    (h : fields? cell = some (source, ds)) : ∀ field ∈ ds, field.2.IsFormed

/-- The value stands for the datum, given what the items hold. Records have distinct names. -/
inductive Holdings.Means (held : Holdings) : Value → Datum → Prop
  | single {d : Datum} : d.bare.isSingle = true → Means held d.bare d
  | list {vs : List Value} {ds : List Datum} : List.Forall₂ (Means held) vs ds →
      Means held (.list vs) (.list ds)
  | record {vs : Fields Value} {ds : Fields Datum} : ds.names.Nodup → vs.names = ds.names →
      List.Forall₂ (Means held) (vs.map Prod.snd) (ds.map Prod.snd) →
      Means held (.record vs) (.record ds)
  | item {ref : ItemRef} {ds : Fields Datum} : held.fields? ref.cell = some (ref.source, ds) →
      Means held (.item ref) (.item ref.source ds)

/-- A field stands for a field of the same name. -/
def Holdings.MeansField (held : Holdings) (v : String × Value) (d : String × Datum) : Prop :=
  v.1 = d.1 ∧ held.Means v.2 d.2

namespace Holdings

variable {held : Holdings} {v : Value} {d : Datum}

theorem isFormed {cell : Nat} {source : SourceRef} {ds : Fields Datum}
    (h : held.fields? cell = some (source, ds)) : (Datum.item source ds).IsFormed := by
  refine .item ?_ (held.formed h)
  rw [held.names h]
  exact source.schema.distinct

/-- What a value stands for is formed. -/
theorem Means.isFormed (h : held.Means v d) : d.IsFormed := by
  induction d using Datum.partsInduction generalizing v with
  | step d ih =>
      have elements {vs : List Value} {ds : List Datum} (hparts : ∀ e ∈ ds, e ∈ d.parts)
          (hvs : List.Forall₂ held.Means vs ds) : ∀ e ∈ ds, e.IsFormed := by
        clear h
        induction hvs with
        | nil => simp
        | cons hv _ later =>
            rw [List.forall_mem_cons] at hparts ⊢
            exact ⟨ih _ hparts.1 hv, later hparts.2⟩
      cases h with
      | single h => exact .single h
      | list hvs => exact .list (elements (fun _ he => he) hvs)
      | record hdistinct _ hvs =>
          exact .record hdistinct (List.forall_mem_map.1 (elements (fun _ he => he) hvs))
      | item h => exact held.isFormed h

theorem means_record_iff {ds : Fields Datum} :
    held.Means v (.record ds) ↔
      ∃ vs, v = .record vs ∧ ds.names.Nodup ∧ List.Forall₂ held.MeansField vs ds := by
  constructor
  · intro h
    cases h with
    | single h => cases h
    | record hdistinct hnames h =>
        exact ⟨_, rfl, hdistinct, Fields.forall₂_iff_names.2 ⟨hnames, h⟩⟩
  · rintro ⟨vs, rfl, hdistinct, h⟩
    exact .record hdistinct (Fields.forall₂_iff_names.1 h).1 (Fields.forall₂_iff_names.1 h).2

theorem Means.of_bare (hv : v = d.bare) (h : d.bare.isSingle = true) : held.Means v d :=
  hv ▸ .single h

/-- What an item stands for is what it holds. -/
theorem exists_of_means_item {ref : ItemRef} (h : held.Means (.item ref) d) :
    ∃ ds, held.fields? ref.cell = some (ref.source, ds) ∧ d = .item ref.source ds := by
  generalize hv : Value.item ref = v at h
  cases h with
  | single hsingle =>
      rw [← hv] at hsingle
      cases hsingle
  | item h =>
      cases hv
      exact ⟨_, h, rfl⟩
  | _ => cases hv

theorem Means.isNull_eq (h : held.Means v d) : v.isNull = d.isNull := by
  cases h <;> rfl

theorem isComplete_eq {vs : Fields Value} {ds : Fields Datum}
    (h : List.Forall₂ held.MeansField vs ds) : Item.isComplete vs = Datum.isComplete ds := by
  induction h with
  | nil => rfl
  | cons hfield _ ih =>
      rw [Item.isComplete, Datum.isComplete] at ih ⊢
      rw [List.all_cons, List.all_cons, ih, ← hfield.2.isNull_eq]

end Holdings

namespace Value

variable {held : Holdings} {I : World → Prop}

section Digests

variable {items : ItemRef → EvalM Digest} {limit : Nat}

/-- The digest of whatever stands for the datum is found, unless it is deeper than the limit. -/
def DigestFound (held : Holdings) (I : World → Prop) (items : ItemRef → EvalM Digest) (limit : Nat)
    (d : Datum) : Prop :=
  ∀ v, held.Means v d → d.depth ≤ limit → Finds I (· = d.digest) (v.digest items)

theorem digestElements_finds {vs : List Value} {ds : List Datum}
    (step : ∀ d ∈ ds, DigestFound held I items limit d) (hvs : List.Forall₂ held.Means vs ds)
    (hds : Datum.depths ds ≤ limit) :
    Finds I (· = Datum.digests ds) (digestElements items vs) := by
  induction hvs with
  | nil => exact .pure rfl
  | @cons v d vs ds hv _ ih =>
      rw [Datum.depths, Nat.max_le] at hds
      have hrest := ih (fun d hd => step d (by simp [hd])) hds.2
      rw [digestElements]
      refine (step _ (by simp) _ hv hds.1).bind fun _ hfirst => hrest.bind fun _ hlater => ?_
      subst hfirst hlater
      exact .pure rfl

theorem digestEntries_finds {vs : Fields Value} {ds : Fields Datum}
    (step : ∀ d ∈ ds.map Prod.snd, DigestFound held I items limit d)
    (hvs : List.Forall₂ held.MeansField vs ds) (hds : Datum.fieldsDepth ds ≤ limit) :
    Finds I (· = Datum.digestEntries (fun _ => true) ds) (digestEntries items vs) := by
  induction hvs with
  | nil => exact .pure rfl
  | @cons v d vs ds hfield _ ih =>
      obtain ⟨name, v⟩ := v
      obtain ⟨_, d⟩ := d
      obtain ⟨rfl, hv⟩ := hfield
      rw [Datum.fieldsDepth, Nat.max_le] at hds
      have hrest := ih (fun d hd => step d (List.mem_cons_of_mem _ hd)) hds.2
      rw [digestEntries]
      refine (step _ (by simp) _ hv hds.1).bind fun _ hfirst => hrest.bind fun _ hlater => ?_
      subst hfirst hlater
      exact .pure rfl

/-- The digest of a value is that of the datum it stands for, if the digests of items are. -/
theorem digest_finds
    (hitems : ∀ ref d, held.Means (.item ref) d → d.depth ≤ limit →
      Finds I (· = d.digest) (items ref)) (d : Datum) : DigestFound held I items limit d := by
  induction d using Datum.partsInduction with
  | step d ih =>
      intro v hv hd
      cases hv with
      | single hsingle => cases d <;> first | exact .pure rfl | cases hsingle
      | list hvs =>
          rw [Value.digest]
          refine (digestElements_finds ih hvs hd).bind fun _ h => ?_
          subst h
          exact .pure rfl
      | record _ hnames hvs =>
          have hfields := Fields.forall₂_iff_names.2 ⟨hnames, hvs⟩
          rw [Value.digest]
          refine (digestEntries_finds ih hfields hd).bind fun _ h => ?_
          subst h
          exact .pure rfl
      | item h => exact hitems _ _ (.item h) hd

end Digests

section Equality

variable {items : ItemRef → ItemRef → EvalM Bool} {limit : Nat}

/-- Whether whatever stands for the datum equals something else is found, unless one of them is
deeper than the limit. -/
def EqualFound (held : Holdings) (I : World → Prop) (items : ItemRef → ItemRef → EvalM Bool)
    (limit : Nat) (d : Datum) : Prop :=
  ∀ v u e, held.Means v d → held.Means u e → d.depth ≤ limit → e.depth ≤ limit →
    Finds I (· = d.equal e) (Value.equal items v u)

theorem equalElements_finds {vs us : List Value} {ds es : List Datum}
    (step : ∀ d ∈ ds, EqualFound held I items limit d) (hvs : List.Forall₂ held.Means vs ds)
    (hus : List.Forall₂ held.Means us es) (hds : Datum.depths ds ≤ limit)
    (hes : Datum.depths es ≤ limit) :
    Finds I (· = Datum.equalElements ds es) (equalElements items vs us) := by
  induction hvs generalizing us es with
  | nil => cases hus <;> exact .pure rfl
  | @cons v d vs ds hv _ ih =>
      cases hus with
      | nil => exact .pure rfl
      | @cons u e us es hu hus =>
          rw [Datum.depths, Nat.max_le] at hds hes
          have hrest := ih (fun d hd => step d (by simp [hd])) hus hds.2 hes.2
          rw [equalElements, Datum.equalElements]
          refine (step _ (by simp) _ _ _ hv hu hds.1 hes.1).bind fun _ hfirst => ?_
          subst hfirst
          cases d.equal e
          · exact .pure rfl
          · exact hrest

theorem equalFields_finds {vs us : Fields Value} {ds es : Fields Datum}
    (step : ∀ d ∈ ds.map Prod.snd, EqualFound held I items limit d)
    (hvs : List.Forall₂ held.MeansField vs ds) (hus : List.Forall₂ held.MeansField us es)
    (hds : Datum.fieldsDepth ds ≤ limit) (hes : Datum.fieldsDepth es ≤ limit) :
    Finds I (· = Datum.equalFields ds es) (equalFields items vs us) := by
  induction hvs with
  | nil => exact .pure rfl
  | @cons v d vs ds hfield _ ih =>
      obtain ⟨name, v⟩ := v
      obtain ⟨_, d⟩ := d
      obtain ⟨rfl, hv⟩ := hfield
      rw [Datum.fieldsDepth, Nat.max_le] at hds
      have hrest := ih (fun d hd => step d (List.mem_cons_of_mem _ hd)) hds.2
      have hget := Fields.rel_get?_of_forall₂ hus name
      rw [equalFields, Datum.equalFields]
      generalize us.get? name = u, he : es.get? name = e at hget ⊢
      cases hget with
      | none => exact .pure rfl
      | @some u e hue =>
          have hdepth : e.depth ≤ limit :=
            (Datum.depth_le_fieldsDepth (Fields.mem_of_get?_eq_some he)).trans hes
          refine (step d (by simp) _ _ _ hv hue hds.1 hdepth).bind fun _ hfirst => ?_
          subst hfirst
          simp only
          cases d.equal e
          · exact .pure rfl
          · exact hrest

theorem equalEntries_finds {vs us : Fields Value} {ds es : Fields Datum}
    (step : ∀ d ∈ ds.map Prod.snd, EqualFound held I items limit d)
    (hvs : List.Forall₂ held.MeansField vs ds) (hus : List.Forall₂ held.MeansField us es)
    (hds : Datum.fieldsDepth ds ≤ limit) (hes : Datum.fieldsDepth es ≤ limit) :
    Finds I (· = Datum.equalEntries (fun _ => true) ds es) (equalEntries items vs us) := by
  induction hvs generalizing us es with
  | nil => cases hus <;> exact .pure rfl
  | @cons v d vs ds hfield _ ih =>
      obtain ⟨name, v⟩ := v
      obtain ⟨_, d⟩ := d
      obtain ⟨rfl, hv⟩ := hfield
      cases hus with
      | nil => exact .pure rfl
      | @cons u e us es hfield' hus =>
          obtain ⟨other, u⟩ := u
          obtain ⟨_, e⟩ := e
          obtain ⟨rfl, hu⟩ := hfield'
          rw [Datum.fieldsDepth, Nat.max_le] at hds hes
          have hrest := ih (fun d hd => step d (List.mem_cons_of_mem _ hd)) hus hds.2 hes.2
          rw [equalEntries, Datum.equalEntries]
          simp only [if_true]
          cases name == other
          · exact .pure rfl
          · refine (step _ (by simp) _ _ _ hv hu hds.1 hes.1).bind fun _ hfirst => ?_
            subst hfirst
            simp only [Bool.true_and]
            cases d.equal e
            · exact .pure rfl
            · exact hrest

/-- Values are found to be equal if the data are that they stand for, if items are. -/
theorem equal_finds
    (hitems : ∀ a b x y, held.Means (.item a) x → held.Means (.item b) y → x.depth ≤ limit →
      y.depth ≤ limit → Finds I (· = x.equal y) (items a b)) (d : Datum) :
    EqualFound held I items limit d := by
  induction d using Datum.partsInduction with
  | step d ih =>
      intro v u e hv hu hd he
      cases hv with
      | single hsingle =>
          cases hu with
          | @single e _ => cases d <;> cases hsingle <;> cases e <;> exact .pure rfl
          | _ => cases d <;> cases hsingle <;> exact .pure rfl
      | @list vs ds hvs =>
          cases hu with
          | single hsingle => cases e <;> first | exact .pure rfl | cases hsingle
          | @list us es hus =>
              have hfinds := equalElements_finds ih hvs hus hd he
              rw [Value.equal, Datum.equal]
              split
              · exact hfinds
              · next hlength =>
                  rw [hvs.length_eq, hus.length_eq] at hlength
                  rw [Datum.equalElements_of_length_ne hlength]
                  exact .pure rfl
          | _ => exact .pure rfl
      | @record vs ds _ hnames hvs =>
          cases hu with
          | single hsingle => cases e <;> first | exact .pure rfl | cases hsingle
          | @record us es _ hnames' hus =>
              have hvs := Fields.forall₂_iff_names.2 ⟨hnames, hvs⟩
              have hus := Fields.forall₂_iff_names.2 ⟨hnames', hus⟩
              have hfinds := equalFields_finds ih hvs hus hd he
              rw [Value.equal, Datum.equal, hvs.length_eq, hus.length_eq]
              by_cases hlength : ds.length = es.length
              · simp only [hlength, if_true, decide_true, Bool.true_and]
                exact hfinds
              · simp only [hlength, if_false, decide_false, Bool.false_and]
                exact .pure rfl
          | _ => exact .pure rfl
      | item h =>
          cases hu with
          | single hsingle => cases e <;> first | exact .pure rfl | cases hsingle
          | item h' => exact hitems _ _ _ _ (.item h) (.item h') hd he
          | _ => exact .pure rfl

end Equality

end Value

/-- The names of the properties of the identity, in the order of the schema. -/
theorem Schema.identityNames_eq (source : SourceRef) :
    source.schema.identityProperties.map Property.name =
      source.schema.names.filter (Datum.isIdentity source) := by
  have keep (properties : List Property) (all : List Property)
      (hsub : ∀ p ∈ properties, p ∈ all) (distinct : (all.map Property.name).Nodup) :
      (properties.filter Property.identity).map Property.name =
        (properties.map Property.name).filter fun name =>
          all.any fun p => p.name == name && p.identity := by
    rw [List.filter_map]
    congr 1
    refine List.filter_congr fun p hp => ?_
    rw [Function.comp_apply, Bool.eq_iff_iff, List.any_eq_true]
    constructor
    · intro hidentity
      exact ⟨p, hsub p hp, by simp [hidentity]⟩
    · rintro ⟨q, hq, hboth⟩
      simp only [Bool.and_eq_true, beq_iff_eq] at hboth
      rw [← List.inj_on_of_nodup_map distinct hq (hsub p hp) hboth.1]
      exact hboth.2
  exact keep _ source.schema.properties (fun _ hp => hp) source.schema.distinct

namespace Item

variable {held : Holdings} {I : World → Prop} {read : ItemRef → String → EvalM Value}

/-- Fields that are read one after the other. -/
theorem readAll_finds {ref : ItemRef} {ds : Fields Datum}
    (h : ∀ field ∈ ds, Finds I (held.Means · field.2) (read ref field.1)) :
    Finds I (fun vs => List.Forall₂ held.MeansField vs ds) (readAll read ref ds.names) := by
  induction ds with
  | nil => exact .pure .nil
  | cons field rest ih =>
      rw [List.forall_mem_cons] at h
      rw [Fields.names, List.map_cons, readAll]
      exact h.1.bind fun v hv => (ih h.2).bind fun vs hvs => .pure (.cons ⟨rfl, hv⟩ hvs)

section Held

variable (hread : ∀ (ref : ItemRef) (ds : Fields Datum),
    held.fields? ref.cell = some (ref.source, ds) → ∀ field ∈ ds,
      Finds I (held.Means · field.2) (read ref field.1))

include hread

theorem entries_finds {ref : ItemRef} {ds : Fields Datum}
    (h : held.fields? ref.cell = some (ref.source, ds)) :
    Finds I (fun vs => List.Forall₂ held.MeansField vs ds) (entries read ref) := by
  rw [entries, ItemRef.schema, ← held.names h]
  exact readAll_finds (hread ref ds h)

theorem readIdentity_finds {ref : ItemRef} {ds : Fields Datum}
    (h : held.fields? ref.cell = some (ref.source, ds)) :
    Finds I (fun vs => List.Forall₂ held.MeansField vs (Datum.identity ref.source ds))
      (readAll read ref (ref.schema.identityProperties.map Property.name)) := by
  have hfilter : ref.schema.identityProperties.map Property.name =
      Fields.names (Datum.identity ref.source ds) := by
    rw [ItemRef.schema, Schema.identityNames_eq, ← held.names h, Fields.names, Fields.names,
      List.filter_map]
    rfl
  rw [hfilter]
  exact readAll_finds fun field hfield => hread ref ds h field (List.mem_of_mem_filter hfield)

theorem keyFields_finds {ref : ItemRef} {ds : Fields Datum}
    (h : held.fields? ref.cell = some (ref.source, ds)) :
    Finds I (fun vs => List.Forall₂ held.MeansField vs (Datum.counted ref.source ds))
      (keyFields read ref) := by
  rw [keyFields, identity?]
  by_cases hidentity : ref.schema.hasIdentity = true
  · have hcounted : Datum.counted ref.source ds = Datum.identity ref.source ds := by
      rw [ItemRef.schema] at hidentity
      simp [Datum.counted, Datum.counts, Datum.identity, hidentity]
    rw [if_pos hidentity, bind_assoc, hcounted]
    exact (readIdentity_finds hread h).bind fun vs hvs => .pure hvs
  · have hcounted : Datum.counted ref.source ds = ds := by
      rw [ItemRef.schema] at hidentity
      simp [Datum.counted, Datum.counts, hidentity]
    rw [if_neg hidentity, hcounted]
    exact entries_finds hread h

/-- The digest of an item, given how the values that it holds are digested. -/
theorem digest_finds {items : ItemRef → EvalM Digest} {limit : Nat}
    (hitems : ∀ ref d, held.Means (.item ref) d → d.depth ≤ limit →
      Finds I (· = d.digest) (items ref))
    {ref : ItemRef} {ds : Fields Datum} (h : held.fields? ref.cell = some (ref.source, ds))
    (hdepth : Datum.fieldsDepth ds ≤ limit) :
    Finds I (· = (Datum.item ref.source ds).digest) (digest read items ref) := by
  rw [digest]
  refine (keyFields_finds hread h).bind fun vs hvs => ?_
  refine (Value.digestEntries_finds (fun d _ => Value.digest_finds hitems d) hvs
    ((Datum.fieldsDepth_filter_le _ _).trans hdepth)).bind fun entries hentries => ?_
  subst hentries
  rw [Datum.counted, Datum.digestEntries_filter]
  exact .pure rfl

theorem equalByValues_finds {items : ItemRef → ItemRef → EvalM Bool} {limit : Nat}
    (hitems : ∀ a b x y, held.Means (.item a) x → held.Means (.item b) y → x.depth ≤ limit →
      y.depth ≤ limit → Finds I (· = x.equal y) (items a b))
    {a b : ItemRef} {ds es : Fields Datum} (ha : held.fields? a.cell = some (a.source, ds))
    (hb : held.fields? b.cell = some (b.source, es)) (hds : Datum.fieldsDepth ds ≤ limit)
    (hes : Datum.fieldsDepth es ≤ limit) :
    Finds I (· = Datum.equalEntries (fun _ => true) ds es) (do
      let left ← EvalM.attempt (entries read a)
      let right ← EvalM.attempt (entries read b)
      match left, right with
      | .ok left, .ok right => Value.equalEntries items left right
      | _, _ => pure false) := by
  refine (entries_finds hread ha).attempt.bind ?_
  rintro _ ⟨vs, rfl, hvs⟩
  refine (entries_finds hread hb).attempt.bind ?_
  rintro _ ⟨us, rfl, hus⟩
  exact Value.equalEntries_finds (fun d _ => Value.equal_finds hitems d) hvs hus hds hes

/-- Whether two items are equal, given how the values that they hold are compared. -/
theorem equal_finds {items : ItemRef → ItemRef → EvalM Bool} {limit : Nat}
    (hitems : ∀ a b x y, held.Means (.item a) x → held.Means (.item b) y → x.depth ≤ limit →
      y.depth ≤ limit → Finds I (· = x.equal y) (items a b))
    {a b : ItemRef} {ds es : Fields Datum} (ha : held.fields? a.cell = some (a.source, ds))
    (hb : held.fields? b.cell = some (b.source, es)) (hds : Datum.fieldsDepth ds ≤ limit)
    (hes : Datum.fieldsDepth es ≤ limit) :
    Finds I (· = (Datum.item a.source ds).equal (.item b.source es)) (equal read items a b) := by
  have byValues := equalByValues_finds hread hitems ha hb hds hes
  rw [equal]
  by_cases hcell : a.cell = b.cell
  · rw [if_pos hcell]
    rw [hcell, hb, Option.some.injEq, Prod.mk.injEq] at ha
    rw [← ha.1, ← ha.2, (held.isFormed hb).equal_self]
    exact .pure rfl
  · rw [if_neg hcell, Datum.equal]
    by_cases hid : (decide (a.source.id = b.source.id) && a.schema.hasIdentity) = true
    · rw [if_pos hid]
      rw [ItemRef.schema] at hid
      rw [hid, Bool.true_and]
      refine (readIdentity_finds hread ha).attempt.bind ?_
      rintro _ ⟨vs, rfl, hvs⟩
      refine (readIdentity_finds hread hb).attempt.bind ?_
      rintro _ ⟨us, rfl, hus⟩
      simp only [Holdings.isComplete_eq hvs, Holdings.isComplete_eq hus]
      split
      · rw [← Datum.equalEntries_filter]
        exact Value.equalEntries_finds (fun d _ => Value.equal_finds hitems d) hvs hus
          ((Datum.fieldsDepth_filter_le _ _).trans hds)
          ((Datum.fieldsDepth_filter_le _ _).trans hes)
      · exact byValues
    · rw [if_neg hid]
      rw [ItemRef.schema, Bool.not_eq_true] at hid
      rw [hid, Bool.false_and]
      exact byValues

end Held

end Item

namespace ItemAccess

/-- Access at the level of the heap is access at a level that is fixed. -/
theorem run_atLevelFor {α : Type} (action : ItemAccess EvalM → EvalM α) (w : World) :
    ((get : EvalM World) >>= fun w => action (atLevel (levelFor w))).run w =
      (action (atLevel (levelFor w))).run w :=
  EvalM.run_bind_ok (EvalM.run_get w) _

end ItemAccess

namespace Holdings

/-- In every state of the family the fields are found by reading, without an error. Access of
the level allows for all loads, and the heap allows for the items inside of one another. -/
structure Loads (held : Holdings) (I : World → Prop) (level : Nat) : Prop where
  reads {n : Nat} (hn : level ≤ n) {ref : ItemRef} {ds : Fields Datum}
    (h : held.fields? ref.cell = some (ref.source, ds)) :
    ∀ field ∈ ds, Finds I (held.Means · field.2) ((ItemAccess.atLevel n).field ref field.1)
  room {w : World} (hw : I w) {ref : ItemRef} {ds : Fields Datum}
    (h : held.fields? ref.cell = some (ref.source, ds)) :
    level + (Datum.item ref.source ds).depth ≤ ItemAccess.levelFor w

variable {held : Holdings} {I : World → Prop} {level : Nat}

namespace Loads

variable (loads : held.Loads I level)

include loads

theorem atLevel_digest_finds (depth : Nat) {ref : ItemRef} {d : Datum}
    (h : held.Means (.item ref) d) (hdepth : d.depth ≤ depth) :
    Finds I (· = d.digest) ((ItemAccess.atLevel (level + depth)).digest ref) := by
  induction depth generalizing ref d with
  | zero =>
      obtain ⟨ds, -, rfl⟩ := exists_of_means_item h
      simp [Datum.depth] at hdepth
  | succ depth ih =>
      obtain ⟨ds, hds, rfl⟩ := exists_of_means_item h
      have hle : level ≤ level + depth + 1 := by omega
      have hread := fun ref ds => @reads _ _ _ loads _ hle ref ds
      exact Item.digest_finds hread (fun ref d hd hdepth => ih hd hdepth) hds
        (Nat.le_of_succ_le_succ hdepth)

theorem atLevel_equal_finds (depth : Nat) {a b : ItemRef} {x y : Datum}
    (ha : held.Means (.item a) x) (hb : held.Means (.item b) y) (hx : x.depth ≤ depth)
    (hy : y.depth ≤ depth) :
    Finds I (· = x.equal y) ((ItemAccess.atLevel (level + depth)).equal a b) := by
  induction depth generalizing a b x y with
  | zero =>
      obtain ⟨ds, -, rfl⟩ := exists_of_means_item ha
      simp [Datum.depth] at hx
  | succ depth ih =>
      obtain ⟨ds, hds, rfl⟩ := exists_of_means_item ha
      obtain ⟨es, hes, rfl⟩ := exists_of_means_item hb
      have hle : level ≤ level + depth + 1 := by omega
      have hread := fun ref ds => @reads _ _ _ loads _ hle ref ds
      exact Item.equal_finds hread (fun a b x y ha hb hx hy => ih ha hb hx hy) hds hes
        (Nat.le_of_succ_le_succ hx) (Nat.le_of_succ_le_succ hy)

omit loads in
/-- What is found at all levels that are high enough is found at the level of the heap. -/
theorem live_finds {α : Type} {P : α → Prop} {needed : Nat} (action : ItemAccess EvalM → EvalM α)
    (room : ∀ w, I w → level + needed ≤ ItemAccess.levelFor w)
    (found : ∀ depth, needed ≤ depth → Finds I P (action (ItemAccess.atLevel (level + depth)))) :
    Finds I P ((get : EvalM World) >>= fun w =>
      action (ItemAccess.atLevel (ItemAccess.levelFor w))) := by
  intro w hw
  have hroom := room w hw
  obtain ⟨depth, hlevel⟩ := Nat.exists_eq_add_of_le (Nat.le_of_add_right_le hroom)
  rw [ItemAccess.run_atLevelFor, hlevel]
  rw [hlevel] at hroom
  exact found depth (Nat.le_of_add_le_add_left hroom) w hw

theorem live_entries_finds {ref : ItemRef} {ds : Fields Datum}
    (h : held.fields? ref.cell = some (ref.source, ds)) :
    Finds I (fun vs => List.Forall₂ held.MeansField vs ds) (ItemAccess.live.entries ref) := by
  refine live_finds (fun access => access.entries ref)
    (fun w hw => loads.room hw h) fun depth hdepth => ?_
  obtain ⟨depth, rfl⟩ := Nat.exists_eq_add_one.2 ((Nat.succ_pos _).trans_le hdepth)
  have hread := fun ref ds => @reads _ _ _ loads _ (Nat.le_add_right level (depth + 1)) ref ds
  exact Item.entries_finds hread h

theorem live_digest_finds {ref : ItemRef} (h : held.Means (.item ref) d) :
    Finds I (· = d.digest) (ItemAccess.live.digest ref) := by
  obtain ⟨ds, hds, rfl⟩ := exists_of_means_item h
  exact live_finds (fun access => access.digest ref)
    (fun w hw => loads.room hw hds) fun depth => loads.atLevel_digest_finds depth h

theorem live_equal_finds {a b : ItemRef} (ha : held.Means (.item a) d)
    (hb : held.Means (.item b) e) : Finds I (· = d.equal e) (ItemAccess.live.equal a b) := by
  obtain ⟨ds, hds, rfl⟩ := exists_of_means_item ha
  obtain ⟨es, hes, rfl⟩ := exists_of_means_item hb
  refine live_finds (fun access => access.equal a b) (fun w hw => ?_)
    fun depth hdepth => loads.atLevel_equal_finds depth ha hb
      ((Nat.le_max_left _ _).trans hdepth) ((Nat.le_max_right _ _).trans hdepth)
  have hroom := loads.room hw hds
  have hroom' := loads.room hw hes
  omega

/-- Two values are compared as the data that they stand for. -/
theorem equal_finds (hv : held.Means v d) (hu : held.Means u e) :
    Finds I (· = d.equal e) (v.equal ItemAccess.live.equal u) :=
  Value.equal_finds (fun _ _ _ _ ha hb _ _ => loads.live_equal_finds ha hb) d v u e hv hu
    (Nat.le_max_left _ _) (Nat.le_max_right _ _)

end Loads

end Holdings

end RecordAlgebra
