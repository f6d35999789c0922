import RecordAlgebra.Proofs.Typing.Derivation

/-!
# Built expressions

The type that a built expression carries is the one that is derived for it anew,
so nothing is lost by trusting the types of parts while expressions are built.
-/

namespace RecordAlgebra.Expr

variable {view : ItemRef → String} {scopes : List DataType} {trusting trusting' : Bool}

section Congruence

/-- The same is known of the types of a part. -/
def SameType (view : ItemRef → String) (trusting trusting' : Bool) (scopes : List DataType)
    (e : Expr) : Prop :=
  partType trusting scopes e (fun _ => derive trusting view scopes e) =
    partType trusting' scopes e fun _ => derive trusting' view scopes e

theorem deriveOperands_congr {op : BooleanOp} {whole : Expr} {operands : List Expr}
    (h : ∀ e ∈ operands, SameType view trusting trusting' scopes e) :
    deriveOperands trusting view scopes op whole operands =
      deriveOperands trusting' view scopes op whole operands := by
  induction operands with
  | nil => rfl
  | cons e rest ih =>
      obtain ⟨he, hrest⟩ := List.forall_mem_cons.1 h
      rw [deriveOperands, deriveOperands, he, ih hrest]

theorem deriveFields_congr {fields : List (String × Expr)}
    (h : ∀ field ∈ fields, SameType view trusting trusting' scopes field.2) :
    deriveFields trusting view scopes fields = deriveFields trusting' view scopes fields := by
  induction fields with
  | nil => rfl
  | cons field rest ih =>
      obtain ⟨name, e⟩ := field
      obtain ⟨he, hrest⟩ := List.forall_mem_cons.1 h
      rw [deriveFields, deriveFields, he, ih hrest]

theorem deriveKeys_congr {whole : Expr} {keys : List (Expr × Direction)}
    (h : ∀ key ∈ keys, derive trusting view scopes key.1 = derive trusting' view scopes key.1) :
    deriveKeys trusting view scopes whole keys = deriveKeys trusting' view scopes whole keys := by
  induction keys with
  | nil => rfl
  | cons key rest ih =>
      obtain ⟨e, direction⟩ := key
      obtain ⟨he, hrest⟩ := List.forall_mem_cons.1 h
      rw [deriveKeys, deriveKeys, he, ih hrest]

/-- The derivation looks at the types of the parts only. -/
theorem derive_congr {e : Expr}
    (same : ∀ part, (part, .same) ∈ e.children → SameType view trusting trusting' scopes part)
    (nested : ∀ part, (part, .nested) ∈ e.children → ∀ t,
      derive trusting view (t :: scopes) part = derive trusting' view (t :: scopes) part) :
    derive trusting view scopes e = derive trusting' view scopes e := by
  simp only [SameType] at same
  cases e with
  | context depth type => rw [derive, derive]
  | literal v => rw [derive_literal, derive_literal]
  | boolean op operands =>
      have hoperands : ∀ e ∈ operands, SameType view trusting trusting' scopes e :=
        fun e he => same e (by simpa [children] using he)
      simp only [derive, deriveOperands_congr hoperands]
  | record fields type =>
      have hfields : ∀ field ∈ fields, SameType view trusting trusting' scopes field.2 :=
        fun field hfield => same field.2 (List.mem_map.2 ⟨field, hfield, rfl⟩)
      simp only [derive, deriveFields_congr hfields]
  | sort source keys =>
      have hkeys (t : DataType) : ∀ key ∈ keys, derive trusting view (t :: scopes) key.1 =
          derive trusting' view (t :: scopes) key.1 := fun key hkey => nested key.1
        (List.mem_cons_of_mem _ (List.mem_map.2 ⟨key, hkey, rfl⟩)) t
      simp only [derive, same source (by simp [children]), deriveKeys_congr (hkeys _)]
  | filter source predicate =>
      simp only [derive, same source (by simp [children]), nested predicate (by simp [children])]
  | map source projection type =>
      simp only [derive, same source (by simp [children]), nested projection (by simp [children])]
  | groupBy source key total type =>
      simp only [derive, same source (by simp [children]), nested key (by simp [children]),
        nested total (by simp [children])]
  | aggregate op source projection type =>
      cases projection with
      | none => simp only [derive, same source (by simp [children])]
      | some projection =>
          simp only [derive, same source (by simp [children]),
            nested projection (by simp [children])]
  | one source default type =>
      cases default with
      | none => simp only [derive, same source (by simp [children])]
      | some default =>
          simp only [derive, same source (by simp [children]), same default (by simp [children])]
  | field base name type => simp only [derive, same base (by simp [children])]
  | negation op operand => simp only [derive, same operand (by simp [children])]
  | function f input => simp only [derive, same input (by simp [children])]
  | distinct source => simp only [derive, same source (by simp [children])]
  | slice source start stop => simp only [derive, same source (by simp [children])]
  | comparison op left right | arithmetic op left right type | merge left right type =>
      simp only [derive, same left (by simp [children]), same right (by simp [children])]

/-- Below bindings nothing is trusted. -/
theorem derive_nested (t : DataType) (e : Expr) :
    derive true view (t :: scopes) e = derive false view (t :: scopes) e := by
  induction e using childInduction generalizing t scopes with
  | step e ih =>
      exact derive_congr (fun part hpart => ih (part, .same) hpart t)
        fun part hpart t' => ih (part, .nested) hpart t'

end Congruence

/-- An expression that carries the type that is derived for it. -/
def CarriesType (view : ItemRef → String) (e : Expr) : Prop :=
  derive false view [] e = .ok e.datatype

theorem children_withType (e : Expr) (t : DataType) : (e.withType t).children = e.children := by
  cases e <;> rfl

/-- The type that a node carries makes no difference to what is derived for it. -/
theorem derive_withType {e : Expr} {t s : DataType} (h : derive false view [] e = .ok s) :
    derive false view [] (e.withType t) = .ok s := by
  cases e with
  | merge left right type =>
      simp only [withType, derive, partType_false, bind_ok_iff] at h ⊢
      obtain ⟨l, hl, r, hr, h⟩ := h
      refine ⟨l, hl, r, hr, ?_⟩
      split at h
      · exact h
      · exact absurd h (invalid_ne_ok _ _ _)
  | aggregate op source projection type =>
      cases projection <;>
        simpa only [withType, derive, partType_false, bind_ok_iff, mapError_ok_iff] using h
  | one source default type =>
      cases default <;>
        simpa only [withType, derive, partType_false, bind_ok_iff, elementOf_eq_ok] using h
  | field base name type | arithmetic op left right type | record fields type
  | map source projection type | groupBy source key total type =>
      simpa only [withType, derive, partType_false, bind_ok_iff, mapError_ok_iff] using h
  | _ => exact h

theorem sequenceType_eq {type element : DataType} (h : type.elementType = .ok element) :
    sequenceType type = .list element := by
  unfold DataType.elementType at h
  split at h
  · cases h
    rfl
  · cases h
    rfl
  · cases h

theorem datatype_withType {e : Expr} {t : DataType}
    (same : ∀ part, (part, .same) ∈ e.children → CarriesType view part)
    (h : derive false view [] e = .ok t) : (e.withType t).datatype = t := by
  have source {part : Expr} {element : DataType} (hpart : (part, .same) ∈ e.children)
      (helement : elementOf view part (derive false view [] part) = .ok element) :
      sequenceType part.datatype = .list element := by
    obtain ⟨s, hs, helement⟩ := elementOf_eq_ok.1 helement
    rw [same part hpart] at hs
    cases hs
    exact sequenceType_eq helement
  cases e with
  | context depth type =>
      rw [derive] at h
      cases h
      rfl
  | literal v =>
      rw [derive_literal] at h
      cases h
      rfl
  | comparison op left right =>
      simp only [derive, partType_false, bind_ok_iff] at h
      obtain ⟨l, -, r, -, h⟩ := h
      split at h
      · exact absurd h (invalid_ne_ok _ _ _)
      · cases h
        rfl
  | boolean op operands =>
      simp only [derive, bind_ok_iff] at h
      obtain ⟨_, -, h⟩ := h
      cases h
      rfl
  | negation op operand =>
      simp only [derive, partType_false, bind_ok_iff] at h
      obtain ⟨type, htype, h⟩ := h
      rw [same operand (by simp [children])] at htype
      cases htype
      cases op with
      | not =>
          simp only at h
          split at h
          · cases h
            rfl
          · exact absurd h (invalid_ne_ok _ _ _)
      | minus =>
          simp only at h
          split at h
          · cases h
            rfl
          · exact absurd h (invalid_ne_ok _ _ _)
  | function f input =>
      simp only [derive, partType_false, bind_ok_iff] at h
      obtain ⟨_, -, _, -, h⟩ := h
      cases h
      rfl
  | filter part predicate =>
      simp only [derive, partType_false, bind_ok_iff] at h
      obtain ⟨element, helement, type, -, h⟩ := h
      split at h
      · cases h
        exact source (by simp [children]) helement
      · exact absurd h (invalid_ne_ok _ _ _)
  | sort part keys =>
      simp only [derive, partType_false, bind_ok_iff] at h
      obtain ⟨element, helement, _, -, h⟩ := h
      cases h
      exact source (by simp [children]) helement
  | distinct part =>
      simp only [derive, partType_false, bind_ok_iff] at h
      obtain ⟨element, helement, h⟩ := h
      cases h
      exact source (by simp [children]) helement
  | slice part start stop =>
      simp only [derive, partType_false] at h
      split at h
      · exact absurd h (invalid_ne_ok _ _ _)
      · obtain ⟨element, helement, h⟩ := bind_ok_iff.1 h
        cases h
        exact source (by simp [children]) helement
  | _ => rfl

/-- Parts that carry their types may be trusted. -/
theorem derive_trusting {e : Expr}
    (same : ∀ part, (part, .same) ∈ e.children → CarriesType view part)
    (scopes : List DataType) : derive true view scopes e = derive false view scopes e := by
  cases scopes with
  | nil =>
      exact derive_congr (fun part hpart => (same part hpart).symm)
        fun part _ t => derive_nested t part
  | cons t scopes => exact derive_nested t e

/-- A node whose parts carry their types carries the type that it is checked for. -/
theorem carriesType_of_checked {e built : Expr}
    (same : ∀ part, (part, .same) ∈ e.children → CarriesType view part)
    (h : checked view e = .ok built) : CarriesType view built := by
  rw [checked, derive_trusting same] at h
  cases ht : derive false view [] e with
  | error e => rw [ht] at h; cases h
  | ok t =>
      rw [ht] at h
      cases h
      rw [CarriesType, datatype_withType same ht]
      exact derive_withType ht

theorem carriesType_input (type : DataType) : CarriesType view (input type) := by
  rw [CarriesType, input, derive]
  rfl

theorem carriesType_outer (depth : Nat) : CarriesType view (outer depth) := by
  rw [CarriesType, outer, derive]
  rfl

theorem carriesType_literal (v : Value) : CarriesType view (.literal v) :=
  derive_literal false view [] v

theorem Proper.of_parts {e : Expr} (parts : ∀ part ∈ e.children, part.1.Proper)
    (contexts : ∀ depth type, e = .context depth type → depth = 0 ∨ type = .any)
    (records : ∀ fields type, e = .record fields type → (fields.map Prod.fst).Nodup) :
    e.Proper := by
  have hpart {position : Nat} {path : Path} {node : Expr}
      (h : e.node? (position :: path) = some node) :
      ∃ part ∈ e.children, part.1.node? path = some node := by
    rw [node?] at h
    cases hposition : e.children[position]? with
    | none => rw [hposition] at h; cases h
    | some part =>
        rw [hposition] at h
        exact ⟨part, List.mem_of_getElem? hposition, h⟩
  refine ⟨fun path depth type h => ?_, fun path fields type h => ?_⟩
  · cases path with
    | nil => exact contexts depth type (Option.some.inj h)
    | cons position path =>
        obtain ⟨part, hmem, h⟩ := hpart h
        exact (parts part hmem).contexts path depth type h
  · cases path with
    | nil => exact records fields type (Option.some.inj h)
    | cons position path =>
        obtain ⟨part, hmem, h⟩ := hpart h
        exact (parts part hmem).records path fields type h

theorem exists_withType_of_checked {e built : Expr} (h : checked view e = .ok built) :
    ∃ t, built = e.withType t := by
  rw [checked] at h
  cases ht : derive true view [] e with
  | error e => rw [ht] at h; cases h
  | ok t =>
      rw [ht] at h
      cases h
      exact ⟨t, rfl⟩

/-- What builders guarantee for the node that is checked. -/
theorem Proper.of_checked {e built : Expr} (parts : ∀ part ∈ e.children, part.1.Proper)
    (he : e.isContext = false)
    (records : ∀ fields type, e = .record fields type → (fields.map Prod.fst).Nodup)
    (h : checked view e = .ok built) : built.Proper := by
  obtain ⟨t, rfl⟩ := exists_withType_of_checked h
  refine .of_parts (by rw [children_withType]; exact parts) (fun depth type hbuilt => ?_)
    fun fields type hbuilt => ?_
  · cases e <;> cases hbuilt
    cases he
  · cases e <;> cases hbuilt
    exact records _ _ rfl

theorem nodup_of_repeatedName? {seen names : List String} (h : repeatedName? seen names = none) :
    names.Nodup ∧ ∀ name ∈ names, name ∉ seen := by
  induction names generalizing seen with
  | nil => exact ⟨.nil, by simp⟩
  | cons name rest ih =>
      rw [repeatedName?] at h
      split at h
      · cases h
      · next hseen =>
          obtain ⟨hrest, hnot⟩ := ih h
          have hname : name ∉ seen := by simpa using hseen
          refine ⟨List.nodup_cons.2 ⟨fun hmem => hnot name hmem (by simp), hrest⟩, ?_⟩
          intro other hother
          rcases List.mem_cons.1 hother with rfl | hother
          · exact hname
          · exact fun hmem => hnot other hother (List.mem_cons_of_mem _ hmem)

theorem checked_of_mkRecord {fields : List (String × Expr)} {e : Expr}
    (h : mkRecord view fields = .ok e) :
    (fields.map Prod.fst).Nodup ∧ checked view (.record fields .any) = .ok e := by
  rw [mkRecord] at h
  split at h
  · cases h
  · next hnone => exact ⟨(nodup_of_repeatedName? hnone).1, h⟩

theorem checked_of_mkBoolean {op : BooleanOp} {operands : List Expr} {e : Expr}
    (h : mkBoolean view op operands = .ok e) : checked view (.boolean op operands) = .ok e := by
  rw [mkBoolean] at h
  split at h
  · cases h
  · exact h

theorem checked_of_mkSort {source : Expr} {keys : List (Expr × Direction)} {e : Expr}
    (h : mkSort view source keys = .ok e) : checked view (.sort source keys) = .ok e := by
  rw [mkSort] at h
  split at h
  · cases h
  · exact h

/-- What building gives carries its type, and its nodes are proper. -/
theorem Built.carriesType_and_proper {e : Expr} (h : Built view e) :
    CarriesType view e ∧ e.Proper := by
  have node {e built : Expr} (parts : ∀ part ∈ e.children, CarriesType view part.1 ∧ part.1.Proper)
      (he : e.isContext = false)
      (records : ∀ fields type, e = .record fields type → (fields.map Prod.fst).Nodup)
      (h : checked view e = .ok built) : CarriesType view built ∧ built.Proper :=
    ⟨carriesType_of_checked (fun part hpart => (parts (part, .same) hpart).1) h,
      .of_checked (fun part hpart => (parts part hpart).2) he records h⟩
  induction h with
  | input type =>
      exact ⟨carriesType_input type, .of_parts (by simp [Expr.input, children])
        (fun depth type h => .inl (by cases h; rfl)) fun _ _ h => by cases h⟩
  | outer depth =>
      exact ⟨carriesType_outer depth, .of_parts (by simp [Expr.outer, children])
        (fun depth type h => .inr (by cases h; rfl)) fun _ _ h => by cases h⟩
  | literal v =>
      exact ⟨carriesType_literal v, .of_parts (by simp [children])
        (fun _ _ h => by cases h) fun _ _ h => by cases h⟩
  | field _ h base => exact node (by simpa [children] using base) rfl (by simp) h
  | comparison _ _ h left right =>
      exact node (by simpa [children] using ⟨left, right⟩) rfl (by simp) h
  | boolean _ h operands =>
      exact node (by simpa [children] using operands) rfl (by simp) (checked_of_mkBoolean h)
  | negation _ h operand => exact node (by simpa [children] using operand) rfl (by simp) h
  | arithmetic _ _ h left right =>
      exact node (by simpa [children] using ⟨left, right⟩) rfl (by simp) h
  | merge _ _ h left right =>
      exact node (by simpa [children] using ⟨left, right⟩) rfl (by simp) h
  | record _ h fields =>
      obtain ⟨hnames, h⟩ := checked_of_mkRecord h
      refine node ?_ rfl ?_ h
      · simpa only [children, List.forall_mem_map] using fields
      · rintro _ _ ⟨⟩
        exact hnames
  | function _ h argument => exact node (by simpa [children] using argument) rfl (by simp) h
  | filter _ _ h source predicate =>
      exact node (by simpa [children] using ⟨source, predicate⟩) rfl (by simp) h
  | map _ _ h source projection =>
      exact node (by simpa [children] using ⟨source, projection⟩) rfl (by simp) h
  | sort _ _ h source keys =>
      refine node ?_ rfl (by simp) (checked_of_mkSort h)
      simpa only [children, List.forall_mem_cons, List.forall_mem_map] using ⟨source, keys⟩
  | groupBy _ _ _ h source key total =>
      exact node (by simpa [children] using ⟨source, key, total⟩) rfl (by simp) h
  | aggregate _ _ h source projection =>
      exact node (by simpa [children] using ⟨source, projection⟩) rfl (by simp) h
  | distinct _ h source => exact node (by simpa [children] using source) rfl (by simp) h
  | slice _ h source => exact node (by simpa [children] using source) rfl (by simp) h
  | one _ _ h source default =>
      exact node (by simpa [children] using ⟨source, default⟩) rfl (by simp) h

theorem derive_of_built {e : Expr} (h : Built view e) : derive false view [] e = .ok e.datatype :=
  h.carriesType_and_proper.1

/-- What was built was built of its parts. -/
theorem Built.part {e : Expr} (h : Built view e) :
    ∀ part ∈ e.children, Built view part.1 := by
  have node {e built : Expr} (parts : ∀ part ∈ e.children, Built view part.1)
      (h : checked view e = .ok built) : ∀ part ∈ built.children, Built view part.1 := by
    obtain ⟨t, rfl⟩ := exists_withType_of_checked h
    rwa [children_withType]
  cases h with
  | input type => simp [Expr.input, children]
  | outer depth => simp [Expr.outer, children]
  | literal v => simp [children]
  | field base h => exact node (by simpa [children] using base) h
  | comparison left right h => exact node (by simpa [children] using ⟨left, right⟩) h
  | boolean operands h =>
      exact node (by simpa [children] using operands) (checked_of_mkBoolean h)
  | negation operand h => exact node (by simpa [children] using operand) h
  | arithmetic left right h => exact node (by simpa [children] using ⟨left, right⟩) h
  | merge left right h => exact node (by simpa [children] using ⟨left, right⟩) h
  | record fields h =>
      refine node ?_ (checked_of_mkRecord h).2
      simpa only [children, List.forall_mem_map] using fields
  | function argument h => exact node (by simpa [children] using argument) h
  | filter source predicate h => exact node (by simpa [children] using ⟨source, predicate⟩) h
  | map source projection h => exact node (by simpa [children] using ⟨source, projection⟩) h
  | sort source keys h =>
      refine node ?_ (checked_of_mkSort h)
      simpa only [children, List.forall_mem_cons, List.forall_mem_map] using ⟨source, keys⟩
  | groupBy source key total h => exact node (by simpa [children] using ⟨source, key, total⟩) h
  | aggregate source projection h =>
      exact node (by simpa [children] using ⟨source, projection⟩) h
  | distinct source h => exact node (by simpa [children] using source) h
  | slice source h => exact node (by simpa [children] using source) h
  | one source default h => exact node (by simpa [children] using ⟨source, default⟩) h

theorem Built.node {e node : Expr} {path : Path} (h : Built view e)
    (hnode : e.node? path = some node) : Built view node := by
  induction path generalizing e with
  | nil =>
      cases hnode
      exact h
  | cons position path ih =>
      rw [node?] at hnode
      cases hposition : e.children[position]? with
      | none =>
          rw [hposition] at hnode
          cases hnode
      | some part =>
          rw [hposition] at hnode
          exact ih (h.part part (List.mem_of_getElem? hposition)) hnode

/-- The operands of a connective that was built may be truth values. -/
theorem Built.isBooleanLike {op : BooleanOp} {operands : List Expr}
    (h : Built view (.boolean op operands)) {e : Expr} (he : e ∈ operands) :
    e.datatype.isBooleanLike = true := by
  have hderive := derive_of_built h
  rw [derive] at hderive
  obtain ⟨_, hoperands, -⟩ := bind_ok_iff.1 hderive
  obtain ⟨t, ht, hlike⟩ := types_of_deriveOperands hoperands e he
  cases (derive_of_built (h.part (e, .same) (List.mem_map.2 ⟨e, he, rfl⟩))).symm.trans ht
  exact hlike

end RecordAlgebra.Expr
