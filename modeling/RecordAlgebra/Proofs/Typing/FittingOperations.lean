import RecordAlgebra.Proofs.Typing.Fitting

/-!
# Operations on values of derived types

If an operation gives a value for operands that fit their types, the value fits the
type that is derived for it. Merging needs one thing more: an open mapping on the
right may hold fields that its type does not list.
-/

namespace RecordAlgebra

namespace Value

variable {known : ItemRef → Prop} {view : ItemRef → String} {v u r : Value} {t : DataType}

theorem fits_bool (b : Bool) : (Value.bool b).Fits known .boolean := .scalar rfl rfl

theorem fits_int (n : Int64) : (Value.int n).Fits known .int := .scalar rfl rfl

/-- A value of a single type that says something is single. -/
theorem single_of_fits {s : FieldType} (hs : s ≠ .any) (h : v.Fits known (.scalar s)) :
    v.isSingle = true ∧ s.admits v = true := by
  cases h with
  | null => exact ⟨rfl, by cases s <;> rfl⟩
  | any => exact absurd rfl hs
  | scalar hsingle h => exact ⟨hsingle, h⟩

theorem fits_scalar {s : FieldType} (h : s.admits v = true) (hknown : v.Known known) :
    v.Fits known (.scalar s) := by
  cases v <;> first
    | exact .null _
    | exact .scalar rfl h
    | (cases s <;> first | exact .any hknown | cases h)

section Arithmetic

variable {op : ArithmeticOp}

theorem apply_null_left (op : ArithmeticOp) (u : Value) : apply view op .null u = .ok .null := by
  cases op <;> rfl

theorem apply_null_right (op : ArithmeticOp) (v : Value) : apply view op v .null = .ok .null := by
  cases op <;> cases v <;> rfl

theorem apply_fits_scalar {s s' : FieldType} (hs : s ≠ .any) (hs' : s' ≠ .any)
    (h : op.resultType (.scalar s) (.scalar s') = .ok t) (hv : v.Fits known (.scalar s))
    (hu : u.Fits known (.scalar s')) (hr : apply view op v u = .ok r) : r.Fits known t := by
  obtain ⟨hsingle, hadmits⟩ := single_of_fits hs hv
  obtain ⟨hsingle', hadmits'⟩ := single_of_fits hs' hu
  obtain ⟨k, rfl, htolerates⟩ : ∃ k, t = .scalar k ∧ Tolerates k (apply view op v u) :=
    apply_tolerates hs hs' h hadmits hadmits'
  rw [hr] at htolerates
  exact fits_scalar htolerates (known_of_apply (.single hsingle) (.single hsingle') hr)

theorem append_fits {l r : DataType} {as bs : List Value} (ha : (Value.list as).Fits known l)
    (hb : (Value.list bs).Fits known r) : (Value.list (as ++ bs)).Fits known (l.unify r) := by
  have has := fits_unify (b := r) (.inl ha)
  have hbs := fits_unify (a := l) (.inr hb)
  generalize l.unify r = t at has hbs
  cases has with
  | any h =>
      exact .any (.list fun v hv => (List.mem_append.1 hv).elim (h.elements v)
        (hbs.isKnown.elements v))
  | scalar h => cases h
  | list has => exact .list fun v hv => (List.mem_append.1 hv).elim (has v) (hbs.elements v)

/-- Arithmetic gives the type that is derived for it. -/
theorem apply_fits {l r : DataType} {x : Value} (h : op.resultType l r = .ok t)
    (hv : v.Fits known l) (hu : u.Fits known r) (hx : apply view op v u = .ok x) :
    x.Fits known t := by
  have hknown := known_of_apply hv.isKnown hu.isKnown hx
  by_cases hany : t = .any
  · subst hany
    exact .any hknown
  · have hl : l ≠ .any := by
      rintro rfl
      rw [ArithmeticOp.resultType] at h
      split at h
      · cases h
      · exact hany (by cases h; rfl)
    have hr : r ≠ .any := by
      rintro rfl
      rw [ArithmeticOp.resultType] at h
      split at h
      · cases h
      · exact hany (by simpa [DataType.isAny] using h.symm)
    cases hv with
    | null =>
        rw [apply_null_left] at hx
        cases hx
        exact .null t
    | any => exact absurd rfl hl
    | @scalar v s hsingle hadmits =>
        cases hu with
        | null =>
            rw [apply_null_right] at hx
            cases hx
            exact .null t
        | any => exact absurd rfl hr
        | @scalar u s' hsingle' hadmits' =>
            exact apply_fits_scalar (fun hs => hl (by rw [hs])) (fun hs => hr (by rw [hs])) h
              (.scalar hsingle hadmits) (.scalar hsingle' hadmits') hx
        | list =>
            have hs : s = .null := by
              cases s <;> first | rfl | exact absurd rfl hl | cases h
            subst hs
            rw [fits_null (.scalar hsingle hadmits : v.Fits known .null), apply_null_left] at hx
            cases hx
            exact .null t
        | record => cases s <;> cases h
        | item => cases s <;> cases h
    | list hvs =>
        cases hu with
        | null =>
            rw [apply_null_right] at hx
            cases hx
            exact .null t
        | any => exact absurd rfl hr
        | @scalar u s' hsingle' hadmits' =>
            have hs' : s' = .null := by
              cases s' <;> first | rfl | exact absurd rfl hr | cases h
            subst hs'
            rw [fits_null (.scalar hsingle' hadmits' : u.Fits known .null), apply_null_right] at hx
            cases hx
            exact .null t
        | list hus =>
            cases op <;> cases h
            cases hx
            exact append_fits (.list hvs) (.list hus)
        | record => cases h
        | item => cases h
    | record => cases h
    | item => cases h

theorem negate_fits (ht : t.isNumericLike = true) (hv : v.Fits known t) (h : v.negate = .ok r) :
    r.Fits known t := by
  have hknown : r.Known known := .single (isSingle_of_negate h)
  rcases t with s | t | ⟨fields, isOpen⟩ | schema
  · by_cases hany : s = .any
    · subst hany
      exact .any hknown
    · have hs : s = .int ∨ s = .float ∨ s = .null := by
        cases s <;> first | (cases ht; done) | exact absurd rfl hany | simp
      have htolerates := negate_tolerates hs (single_of_fits hany hv).2
      rw [h] at htolerates
      exact fits_scalar htolerates hknown
  · cases ht
  · cases ht
  · cases ht

theorem function_fits {f : ScalarFunction} (h : f.apply v = .ok r) : r.Fits known f.returnType := by
  unfold ScalarFunction.apply at h
  split at h <;> cases h <;> first | exact .null _ | exact .scalar rfl rfl

end Arithmetic

section Aggregates

/-- A sum has the type that is derived for it, whatever was added last. -/
theorem addToSum_fits {name : String} {sum : Value} {total : DataType}
    (ht : AggregateOp.sum.resultType t = .ok total) (hsum : sum.Fits known total)
    (hv : v.Fits known t) (h : addToSum view name sum v = .ok r) : r.Fits known total := by
  have hadd (hne : t ≠ .null) : ArithmeticOp.add.resultType total t = .ok total := by
    rcases t with s | t | ⟨fields, isOpen⟩ | schema
    · cases s <;> first | exact absurd rfl hne | (cases ht <;> rfl)
    · cases ht
    · cases ht
    · cases ht
  have added (hne : v ≠ .null) (h : apply view .add sum v = .ok r) : r.Fits known total :=
    apply_fits (hadd fun ht => hne (by subst ht; exact fits_null hv)) hsum hv h
  unfold addToSum at h
  split at h
  · cases h
    exact hsum
  · exact added (by simp) h
  · exact added (by simp) h
  · cases h

theorem zero_fits_sum {total : DataType} (ht : AggregateOp.sum.resultType t = .ok total) :
    (Value.int 0).Fits known total := by
  rcases t with s | t | ⟨fields, isOpen⟩ | schema
  · cases s <;> cases ht <;> first | exact .any (.single rfl) | exact .scalar rfl rfl
  · cases ht
  · cases ht
  · cases ht

theorem better_mem {wanted : Ordering} {best found : Option Value}
    (h : better wanted best v = .ok found) (hfound : found = some r) :
    best = some r ∨ v = r := by
  subst hfound
  unfold better at h
  split at h
  · cases h
    exact .inl rfl
  · cases best with
    | none =>
        cases h
        exact .inr rfl
    | some current =>
        cases ho : order v current with
        | error e => simp [ho, bind, Except.bind] at h
        | ok o =>
            simp only [ho, bind, Except.bind] at h
            split at h
            · cases h
              exact .inr rfl
            · cases h
              exact .inl rfl

end Aggregates

end Value

/-- Fields of the left mapping that the right one does not list may be anything if the
right one may hold more than it lists. -/
def RecordType.Joins (a b : RecordType) : Prop :=
  b.isOpen = true → ∀ name t, a.fields.get? name = some t → b.fields.get? name = none → t = .any

namespace Value

variable {known : ItemRef → Prop} {v : Value} {t : DataType} {a b : RecordType}

/-- The fields are those of a mapping of this type. -/
structure FieldsFit (known : ItemRef → Prop) (fields : Fields Value) (type : RecordType) :
    Prop where
  isKnown : (Value.record fields).Known known
  distinct : type.fields.names.Nodup
  present : ∀ name t, type.fields.get? name = some t → ∃ v, fields.get? name = some v
  fits : ∀ name t v, type.fields.get? name = some t → fields.get? name = some v → v.Fits known t
  closed : type.isOpen = false → ∀ name ∈ Fields.names fields, name ∈ type.fields.names

theorem FieldsFit.record {fields : Fields Value} {type : RecordType}
    (h : FieldsFit known fields type) : (Value.record fields).Fits known (.ofRecordType type) :=
  .record h.isKnown h.distinct h.present h.fits h.closed

theorem fieldsFit_any {fields : Fields Value} (h : (Value.record fields).Known known) :
    FieldsFit known fields { fields := [], isOpen := true } where
  isKnown := h
  distinct := .nil
  present _ _ ht := by cases ht
  fits _ _ _ ht := by cases ht
  closed hopen := by cases hopen

theorem known_insertAll {fs gs : Fields Value} (hf : (Value.record fs).Known known)
    (hg : ∀ field ∈ gs, field.2.Known known) :
    (Value.record (fs.insertAll gs)).Known known := by
  have hinserted (fs : Fields Value) (hf : ∀ field ∈ fs, field.2.Known known) (name : String)
      (v : Value) (hv : v.Known known) :
      ∀ field ∈ Fields.insert name v fs, field.2.Known known := by
    induction fs with
    | nil =>
        rw [Fields.insert_nil]
        simpa using hv
    | cons field rest ih =>
        obtain ⟨other, old⟩ := field
        obtain ⟨hold, hrest⟩ := List.forall_mem_cons.1 hf
        rw [Fields.insert]
        split
        · exact List.forall_mem_cons.2 ⟨hv, hrest⟩
        · exact List.forall_mem_cons.2 ⟨hold, ih hrest⟩
  refine .record (Fields.nodup_names_insertAll hf.fields.1 gs) ?_
  replace hf := hf.fields.2
  induction gs generalizing fs with
  | nil => exact hf
  | cons field rest ih =>
      obtain ⟨hfield, hrest⟩ := List.forall_mem_cons.1 hg
      exact ih hrest (hinserted fs hf field.1 field.2 hfield)

theorem FieldsFit.ofList {fields : Fields Value} {type : RecordType}
    (h : FieldsFit known fields type) : FieldsFit known (Fields.ofList fields) type where
  isKnown := known_insertAll (.record .nil (by simp)) h.isKnown.fields.2
  distinct := h.distinct
  present name t ht := by
    rw [Fields.get?_ofList h.isKnown.fields.1]
    exact h.present name t ht
  fits name t v ht hv := by
    rw [Fields.get?_ofList h.isKnown.fields.1] at hv
    exact h.fits name t v ht hv
  closed hopen name hname := by
    rw [Fields.ofList, Fields.names_insertAll] at hname
    exact hname.elim (fun h => by cases h) (h.closed hopen name)

/-- Merged mappings have the merged type, if the types join. -/
theorem FieldsFit.insertAll {fs gs : Fields Value} (hf : FieldsFit known fs a)
    (hg : FieldsFit known gs b) (joins : a.Joins b) :
    FieldsFit known (fs.insertAll gs) (a.merge b) where
  isKnown := known_insertAll hf.isKnown hg.isKnown.fields.2
  distinct := Fields.nodup_names_insertAll hf.distinct b.fields
  present name t ht := by
    rw [RecordType.merge, Fields.get?_insertAll hg.distinct] at ht
    rw [Fields.get?_insertAll hg.isKnown.fields.1]
    cases hgs : gs.get? name with
    | some v => exact ⟨v, rfl⟩
    | none =>
        cases hb : b.fields.get? name with
        | some t' =>
            obtain ⟨v, hv⟩ := hg.present name t' hb
            rw [hgs] at hv
            cases hv
        | none =>
            rw [hb] at ht
            exact hf.present name t ht
  fits name t v ht hv := by
    rw [RecordType.merge, Fields.get?_insertAll hg.distinct] at ht
    rw [Fields.get?_insertAll hg.isKnown.fields.1] at hv
    cases hb : b.fields.get? name with
    | some t' =>
        rw [hb] at ht
        cases ht
        obtain ⟨v', hv'⟩ := hg.present name t hb
        rw [hv'] at hv
        cases hv
        exact hg.fits name t v hb hv'
    | none =>
        rw [hb] at ht
        cases hgs : gs.get? name with
        | none =>
            rw [hgs] at hv
            exact hf.fits name t v ht hv
        | some v' =>
            rw [hgs] at hv
            cases hv
            -- the right mapping holds a field that its type does not list, so it is open
            have hopen : b.isOpen = true := by
              cases hopen : b.isOpen with
              | true => rfl
              | false =>
                  have hmem := hg.closed hopen name (Fields.mem_names_of_get? hgs)
                  obtain ⟨field, hfield, rfl⟩ := List.mem_map.1 hmem
                  rw [Fields.get?_eq_some_of_mem hg.distinct hfield] at hb
                  cases hb
            rw [joins hopen name t ht hb]
            exact .any (hg.isKnown.get? hgs)
  closed hopen name hname := by
    rw [RecordType.merge, Bool.or_eq_false_iff] at hopen
    rw [Fields.names_insertAll] at hname
    rw [RecordType.merge, Fields.names_insertAll]
    exact hname.imp (hf.closed hopen.1 name) (hg.closed hopen.2 name)

theorem exists_misfit (ht : t ≠ .any) : ∃ v : Value, v.Known known ∧ ¬v.Fits known t := by
  by_cases hboolean : t = .boolean
  · subst hboolean
    exact ⟨.int 0, .single rfl, fun h => by cases h with | scalar _ h => cases h⟩
  · refine ⟨.bool true, .single rfl, fun h => ?_⟩
    cases h with
    | any => exact ht rfl
    | @scalar _ s _ hadmits =>
        cases s <;> first | exact ht rfl | exact hboolean rfl | cases hadmits

/-- Nulls for all fields that the type lists. -/
def nulls (type : RecordType) : Fields Value := type.fields.map fun field => (field.1, .null)

theorem fieldsFit_nulls {type : RecordType} (hdistinct : type.fields.names.Nodup)
    {extra : Fields Value} (hextra : (Fields.names (nulls type ++ extra)).Nodup)
    (hknown : ∀ field ∈ extra, field.2.Known known)
    (hclosed : type.isOpen = false → extra = []) : FieldsFit known (nulls type ++ extra) type := by
  have hget {name : String} {t : DataType} (ht : type.fields.get? name = some t) :
      Fields.get? (nulls type ++ extra) name = some .null := by
    refine Fields.get?_eq_some_of_mem hextra (List.mem_append_left _ ?_)
    exact List.mem_map.2 ⟨_, Fields.mem_of_get? ht, rfl⟩
  refine ⟨.record hextra fun field hfield => ?_, hdistinct, fun name t ht => ⟨_, hget ht⟩,
    fun name t v ht hv => ?_, fun hopen name hname => ?_⟩
  · rcases List.mem_append.1 hfield with hfield | hfield
    · obtain ⟨_, -, rfl⟩ := List.mem_map.1 hfield
      exact .single rfl
    · exact hknown field hfield
  · rw [hget ht] at hv
    cases hv
    exact .null t
  · rw [hclosed hopen, List.append_nil, Fields.names, nulls, List.map_map] at hname
    exact hname

/-- To join is all that keeps merged mappings from misfits. -/
theorem merge_fits_iff_joins (ha : a.fields.names.Nodup) (hb : b.fields.names.Nodup) :
    (∀ fs gs, FieldsFit known fs a → FieldsFit known gs b →
      FieldsFit known (Fields.insertAll fs gs) (a.merge b)) ↔ a.Joins b := by
  refine ⟨fun h hopen name t ht hnone => ?_, fun joins fs gs hf hg => hf.insertAll hg joins⟩
  by_contra hne
  obtain ⟨v, hv, hmisfits⟩ : ∃ v : Value, v.Known known ∧ ¬v.Fits known t := exists_misfit hne
  have hnames (type : RecordType) : Fields.names (nulls type) = type.fields.names := by
    rw [nulls, Fields.names, List.map_map]
    rfl
  have hname : name ∉ b.fields.names := by
    intro hmem
    obtain ⟨field, hfield, rfl⟩ := List.mem_map.1 hmem
    rw [Fields.get?_eq_some_of_mem hb hfield] at hnone
    cases hnone
  have hdistinct : (Fields.names (nulls b ++ [(name, v)])).Nodup := by
    rw [Fields.names, List.map_append, List.nodup_append]
    refine ⟨?_, by simp, ?_⟩
    · rw [← hnames] at hb
      exact hb
    · rintro other hother _ hmem rfl
      rw [List.map_singleton, List.mem_singleton] at hmem
      subst hmem
      exact hname (hnames b ▸ hother)
  have hfs : FieldsFit known (nulls a) a := by
    have h : FieldsFit known (nulls a ++ []) a :=
      fieldsFit_nulls ha (by simpa [hnames] using ha) (by simp) fun _ => rfl
    rwa [List.append_nil] at h
  have hgs : FieldsFit known (nulls b ++ [(name, v)]) b :=
    fieldsFit_nulls hb hdistinct (by simpa using hv) fun hclosed => by simp [hopen] at hclosed
  refine hmisfits ((h _ _ hfs hgs).fits name t v ?_ ?_)
  · rw [RecordType.merge, Fields.get?_insertAll hb, hnone]
    exact ht
  · rw [Fields.get?_insertAll hdistinct,
      Fields.get?_eq_some_of_mem hdistinct (List.mem_append_right _ (List.mem_singleton.2 rfl))]
    rfl

end Value

end RecordAlgebra
