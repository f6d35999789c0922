import RecordAlgebra.Proofs.Typing.Typed

/-!
# Derivations

What it takes that a type is derived, for each kind of node, and that the
derivation follows the rules. Trusting the types that parts carry makes no
difference where they carry what is derived for them, which is so for all
expressions that could be built.
-/

namespace RecordAlgebra

theorem bind_ok_iff {ε α β : Type} {x : Except ε α} {f : α → Except ε β} {b : β} :
    (x >>= f) = .ok b ↔ ∃ a, x = .ok a ∧ f a = .ok b := by
  constructor
  · intro h
    cases x with
    | ok a => exact ⟨a, rfl, h⟩
    | error e => cases h
  · rintro ⟨a, rfl, h⟩
    exact h

theorem mapError_ok_iff {ε ε' α : Type} {x : Except ε α} {f : ε → ε'} {a : α} :
    x.mapError f = .ok a ↔ x = .ok a := by
  cases x with
  | ok b =>
      constructor
      · rintro ⟨⟩
        rfl
      · rintro ⟨⟩
        rfl
  | error e =>
      constructor
      · rintro ⟨⟩
      · rintro ⟨⟩

namespace Expr

variable {trusting : Bool} {view : ItemRef → String} {scopes : List DataType}

@[simp] theorem partType_false (e : Expr) (derived : Unit → Except Error DataType) :
    partType false scopes e derived = derived () := rfl

theorem elementOf_eq_ok {source : Expr} {type : Except Error DataType} {element : DataType} :
    elementOf view source type = .ok element ↔
      ∃ t, type = .ok t ∧ t.elementType = .ok element := by
  rw [elementOf]
  refine bind_ok_iff.trans ?_
  simp only [mapError_ok_iff]

theorem bind_elementOf_ok_iff {α : Type} {source : Expr} {type : Except Error DataType}
    {f : DataType → Except Error α} {a : α} : (elementOf view source type >>= f) = .ok a ↔
      ∃ t element, type = .ok t ∧ t.elementType = .ok element ∧ f element = .ok a := by
  simp only [bind_ok_iff, elementOf_eq_ok]
  constructor
  · rintro ⟨element, ⟨t, ht, helement⟩, hf⟩
    exact ⟨t, element, ht, helement, hf⟩
  · rintro ⟨t, element, ht, helement, hf⟩
    exact ⟨element, ⟨t, ht, helement⟩, hf⟩

theorem invalid_ne_ok (cause : Cause) (e : Expr) (t : DataType) :
    invalid view cause e ≠ .ok t := by
  intro h
  cases h

section Lists

theorem types_of_deriveOperands {op : BooleanOp} {whole : Expr} {operands : List Expr}
    (h : deriveOperands false view scopes op whole operands = .ok ()) :
    ∀ e ∈ operands, ∃ t, derive false view scopes e = .ok t ∧ t.isBooleanLike = true := by
  induction operands with
  | nil => simp
  | cons e rest ih =>
      rw [deriveOperands, partType_false] at h
      obtain ⟨t, ht, h⟩ := bind_ok_iff.1 h
      split at h
      · next hlike => exact List.forall_mem_cons.2 ⟨⟨t, ht, hlike⟩, ih h⟩
      · cases h

theorem types_of_deriveKeys {whole : Expr} {keys : List (Expr × Direction)}
    (h : deriveKeys false view scopes whole keys = .ok ()) :
    ∀ key ∈ keys, ∃ t, derive false view scopes key.1 = .ok t ∧ t.isOrderable = true := by
  induction keys with
  | nil => simp
  | cons key rest ih =>
      obtain ⟨e, direction⟩ := key
      rw [deriveKeys] at h
      obtain ⟨t, ht, h⟩ := bind_ok_iff.1 h
      split at h
      · next hlike => exact List.forall_mem_cons.2 ⟨⟨t, ht, hlike⟩, ih h⟩
      · cases h

/-- The type that is derived, where one is. -/
def derivedType (view : ItemRef → String) (scopes : List DataType) (e : Expr) : DataType :=
  match derive false view scopes e with
  | .ok t => t
  | .error _ => .any

theorem derivedType_eq {e : Expr} {t : DataType} (h : derive false view scopes e = .ok t) :
    derivedType view scopes e = t := by
  rw [derivedType, h]

theorem types_of_deriveFields {fields : List (String × Expr)} {types : List (String × DataType)}
    (h : deriveFields false view scopes fields = .ok types) :
    types = fields.map (fun field => (field.1, derivedType view scopes field.2)) ∧
      ∀ field ∈ fields, ∃ t, derive false view scopes field.2 = .ok t := by
  induction fields generalizing types with
  | nil =>
      cases h
      exact ⟨rfl, by simp⟩
  | cons field rest ih =>
      obtain ⟨name, e⟩ := field
      rw [deriveFields, partType_false] at h
      obtain ⟨t, ht, h⟩ := bind_ok_iff.1 h
      obtain ⟨others, hothers, h⟩ := bind_ok_iff.1 h
      cases h
      obtain ⟨rfl, hrest⟩ := ih hothers
      refine ⟨?_, List.forall_mem_cons.2 ⟨⟨t, ht⟩, hrest⟩⟩
      rw [List.map_cons, derivedType_eq ht]

end Lists

section Rules

variable {facts : Facts}

theorem typed_of_deriveContext {depth : Nat} {type t : DataType}
    (h : Checks view facts scopes (.context depth type))
    (ht : derive false view scopes (.context depth type) = .ok t) :
    Typed facts scopes (.context depth type) t := by
  have hgood : facts.type t := h.types scopes _ t (.self scopes _) ht
  rw [derive] at ht
  cases ht
  rcases Nat.lt_trichotomy depth scopes.length with hlt | heq | hgt
  · rw [List.getElem?_eq_getElem hlt] at hgood ⊢
    exact .bound (List.getElem?_eq_getElem hlt) hgood
  · subst heq
    rw [List.getElem?_eq_none (Nat.le_refl _)] at hgood ⊢
    exact .input (h.contexts scopes type (.self scopes _)) hgood
  · rw [List.getElem?_eq_none (Nat.le_of_lt hgt)] at hgood ⊢
    rcases h.proper.contexts [] depth type rfl with rfl | rfl
    · exact absurd hgt (Nat.not_lt_zero _)
    · exact .unbound hgt hgood

/-- Whatever is derived for an expression follows the rules. -/
theorem typed_of_derive {e : Expr} {t : DataType}
    (h : Checks view facts scopes e) (ht : derive false view scopes e = .ok t) :
    Typed facts scopes e t := by
  induction e using childInduction generalizing scopes t with
  | step e ih =>
      have hgood : facts.type t := h.types scopes e t (.self scopes e) ht
      have same {part : Expr} {type : DataType} (hpart : (part, .same) ∈ e.children)
          (htype : derive false view scopes part = .ok type) :
          Typed facts scopes part type :=
        ih (part, .same) hpart (h.same hpart) htype
      have nested {source part : Expr} (position : Nat) {s element type : DataType}
          (hsource : e.children[0]? = some (source, .same))
          (hs : derive false view scopes source = .ok s) (helement : s.elementType = .ok element)
          (hpart : e.children[position]? = some (part, .nested))
          (htype : derive false view (e.boundType position element :: scopes) part = .ok type) :
          Typed facts (e.boundType position element :: scopes) part type :=
        ih (part, .nested) (List.mem_of_getElem? hpart)
          (h.nested hsource hs helement hpart) htype
      cases e with
      | context depth type => exact typed_of_deriveContext h ht
      | literal v =>
          rw [derive_literal] at ht
          cases ht
          exact .literal (h.literals v (hasLiteral_self v)) hgood
      | field base name type =>
          rw [derive, partType_false] at ht
          obtain ⟨b, hb, ht⟩ := bind_ok_iff.1 ht
          exact .field (same (by simp [children]) hb) (mapError_ok_iff.1 ht) hgood
      | comparison op left right =>
          simp only [derive, partType_false] at ht
          obtain ⟨l, hl, ht⟩ := bind_ok_iff.1 ht
          obtain ⟨r, hr, ht⟩ := bind_ok_iff.1 ht
          split at ht
          · exact absurd ht (invalid_ne_ok _ _ _)
          · next hordered =>
              cases ht
              refine .comparison (same (by simp [children]) hl) (same (by simp [children]) hr)
                (fun hop => ?_) hgood
              simpa [hop] using hordered
      | boolean op operands =>
          simp only [derive] at ht
          obtain ⟨_, hoperands, ht⟩ := bind_ok_iff.1 ht
          cases ht
          have htypes := types_of_deriveOperands hoperands
          refine .boolean (derivedType view scopes) (fun e he => ?_) (fun e he => ?_) hgood
          · obtain ⟨t, ht, -⟩ := htypes e he
            rw [derivedType_eq ht]
            exact same (by simpa [children] using he) ht
          · obtain ⟨t, ht, hlike⟩ := htypes e he
            rw [derivedType_eq ht]
            exact hlike
      | negation op operand =>
          simp only [derive, partType_false] at ht
          obtain ⟨type, htype, ht⟩ := bind_ok_iff.1 ht
          cases op with
          | not =>
              simp only at ht
              split at ht
              · next hlike =>
                  cases ht
                  exact .not (same (by simp [children]) htype) hlike hgood
              · exact absurd ht (invalid_ne_ok _ _ _)
          | minus =>
              simp only at ht
              split at ht
              · next hlike =>
                  cases ht
                  exact .minus (same (by simp [children]) htype) hlike
              · exact absurd ht (invalid_ne_ok _ _ _)
      | arithmetic op left right type =>
          simp only [derive, partType_false] at ht
          obtain ⟨l, hl, ht⟩ := bind_ok_iff.1 ht
          obtain ⟨r, hr, ht⟩ := bind_ok_iff.1 ht
          exact .arithmetic (same (by simp [children]) hl) (same (by simp [children]) hr)
            (mapError_ok_iff.1 ht) hgood
      | merge left right type =>
          simp only [derive, partType_false] at ht
          obtain ⟨l, hl, ht⟩ := bind_ok_iff.1 ht
          obtain ⟨r, hr, ht⟩ := bind_ok_iff.1 ht
          split at ht
          · next a b ha hb =>
              cases ht
              exact .merge (same (by simp [children]) hl) (same (by simp [children]) hr) ha hb
                (h.merges scopes left right type l r a b (.self scopes _) hl hr ha hb) hgood
          · exact absurd ht (invalid_ne_ok _ _ _)
      | record fields type =>
          simp only [derive] at ht
          obtain ⟨types, htypes, ht⟩ := bind_ok_iff.1 ht
          cases ht
          obtain ⟨rfl, hfields⟩ := types_of_deriveFields htypes
          refine .record (derivedType view scopes) (h.proper.records [] fields type rfl)
            (fun field hfield => ?_) hgood
          obtain ⟨t, ht⟩ := hfields field hfield
          rw [derivedType_eq ht]
          exact same (List.mem_map.2 ⟨field, hfield, rfl⟩) ht
      | function f input =>
          simp only [derive, partType_false] at ht
          obtain ⟨type, htype, ht⟩ := bind_ok_iff.1 ht
          obtain ⟨_, hcheck, ht⟩ := bind_ok_iff.1 ht
          cases ht
          refine .function (same (by simp [children]) htype) ?_ hgood
          rw [mapError_ok_iff, ScalarFunction.checkInput] at hcheck
          split at hcheck
          · assumption
          · cases hcheck
      | filter source predicate =>
          simp only [derive, partType_false] at ht
          obtain ⟨s, element, hs, helement, ht⟩ := bind_elementOf_ok_iff.1 ht
          obtain ⟨type, htype, ht⟩ := bind_ok_iff.1 ht
          split at ht
          · next hlike =>
              cases ht
              exact .filter (same (by simp [children]) hs) helement
                (nested 1 rfl hs helement rfl htype) hlike hgood
          · exact absurd ht (invalid_ne_ok _ _ _)
      | map source projection type =>
          simp only [derive, partType_false] at ht
          obtain ⟨s, element, hs, helement, ht⟩ := bind_elementOf_ok_iff.1 ht
          obtain ⟨type, htype, ht⟩ := bind_ok_iff.1 ht
          cases ht
          exact .map (same (by simp [children]) hs) helement
            (nested 1 rfl hs helement rfl htype) hgood
      | sort source keys =>
          simp only [derive, partType_false] at ht
          obtain ⟨s, element, hs, helement, ht⟩ := bind_elementOf_ok_iff.1 ht
          obtain ⟨_, hkeys, ht⟩ := bind_ok_iff.1 ht
          cases ht
          have htypes := types_of_deriveKeys hkeys
          refine .sort (derivedType view (element :: scopes)) (same (by simp [children]) hs)
            helement (fun key hkey => ?_) (fun key hkey => ?_) hgood
          · obtain ⟨t, ht, -⟩ := htypes key hkey
            rw [derivedType_eq ht]
            obtain ⟨position, hposition⟩ := List.getElem?_of_mem
              (List.mem_cons_of_mem (source, ChildScope.same)
                (List.mem_map.2 ⟨key, hkey, rfl⟩ :
                  (key.1, ChildScope.nested) ∈ keys.map fun key => (key.1, ChildScope.nested)))
            exact nested position rfl hs helement hposition ht
          · obtain ⟨t, ht, horderable⟩ := htypes key hkey
            rw [derivedType_eq ht]
            exact horderable
      | groupBy source key total type =>
          simp only [derive, partType_false] at ht
          obtain ⟨s, element, hs, helement, ht⟩ := bind_elementOf_ok_iff.1 ht
          obtain ⟨k, hk, ht⟩ := bind_ok_iff.1 ht
          obtain ⟨t, htotal, ht⟩ := bind_ok_iff.1 ht
          cases ht
          exact .groupBy (same (by simp [children]) hs) helement
            (nested 1 rfl hs helement rfl hk) (nested 2 rfl hs helement rfl htotal) hgood
      | aggregate op source projection type =>
          cases projection with
          | none =>
              simp only [derive, partType_false] at ht
              obtain ⟨s, element, hs, helement, ht⟩ := bind_elementOf_ok_iff.1 ht
              exact .aggregate (same (by simp [children]) hs) helement (mapError_ok_iff.1 ht)
                hgood
          | some projection =>
              simp only [derive, partType_false] at ht
              obtain ⟨s, element, hs, helement, ht⟩ := bind_elementOf_ok_iff.1 ht
              obtain ⟨p, hp, ht⟩ := bind_ok_iff.1 ht
              exact .aggregateOf (same (by simp [children]) hs) helement
                (nested 1 rfl hs helement rfl hp) (mapError_ok_iff.1 ht) hgood
      | distinct source =>
          simp only [derive, partType_false] at ht
          obtain ⟨s, element, hs, helement, ht⟩ := bind_elementOf_ok_iff.1 ht
          cases ht
          exact .distinct (same (by simp [children]) hs) helement hgood
      | slice source start stop =>
          simp only [derive, partType_false] at ht
          split at ht
          · exact absurd ht (invalid_ne_ok _ _ _)
          · obtain ⟨s, element, hs, helement, ht⟩ := bind_elementOf_ok_iff.1 ht
            cases ht
            exact .slice (same (by simp [children]) hs) helement hgood
      | one source default type =>
          cases default with
          | none =>
              simp only [derive, partType_false] at ht
              obtain ⟨s, hs, helement⟩ := elementOf_eq_ok.1 ht
              exact .one (same (by simp [children]) hs) helement hgood
          | some default =>
              simp only [derive, partType_false] at ht
              obtain ⟨s, element, hs, helement, ht⟩ := bind_elementOf_ok_iff.1 ht
              obtain ⟨d, hd, ht⟩ := bind_ok_iff.1 ht
              cases ht
              exact .oneOr (same (by simp [children]) hs) helement
                (same (by simp [children]) hd) hgood

end Rules

end Expr

end RecordAlgebra
