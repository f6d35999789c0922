import RecordAlgebra.Proofs.Item.Holdings

/-!
# Keys of values

A key is made with a digest and compared with it first, so keys can only be equal as their
values are if equal values have equal digests. Items of one source fulfil this, and values
without items do. Items of different sources break it where their sources declare different
identities.
-/

namespace RecordAlgebra

namespace Holdings

variable {held : Holdings} {I : World → Prop} {level : Nat} {v u : Value} {d e : Datum}

namespace Loads

variable (loads : held.Loads I level)

include loads

/-- A value is made a key with the digest of the datum that it stands for. -/
theorem toKey_finds (hv : held.Means v d) :
    Finds I (· = { value := v, digest := d.digest }) (v.toKey ItemAccess.live) := by
  rw [Value.toKey]
  refine (Value.digest_finds (fun _ _ h _ => loads.live_digest_finds h) d v hv
    (Nat.le_refl _)).bind fun _ h => ?_
  subst h
  exact .pure rfl

end Loads

/-- Values whose items load without failing are made keys, and the keys are equal exactly if
the values are and the same fields of their items count. -/
theorem keys_equal_iff_alike (loads : held.Loads I level) (hv : held.Means v d)
    (hu : held.Means u e) :
    ∃ a b : Value.Key,
      Finds I (· = a) (v.toKey ItemAccess.live) ∧ Finds I (· = b) (u.toKey ItemAccess.live) ∧
      Finds I (· = d.equal e) (v.equal ItemAccess.live.equal u) ∧
      Finds I (· = (d.equal e && d.alike e)) (a.equal ItemAccess.live b) ∧
      (d.equal e = true → (a.digest = b.digest ↔ d.alike e = true)) := by
  have hagrees := hv.isFormed.digest_eq_iff_alike hu.isFormed
  refine ⟨_, _, loads.toKey_finds hv, loads.toKey_finds hu, loads.equal_finds hv hu, ?_, hagrees⟩
  rw [Value.Key.equal]
  cases hsame : d.digest.same e.digest with
  | true =>
      have halike := fun hequal => (hagrees hequal).1 (Digest.same_iff_eq.1 hsame)
      rw [if_pos rfl]
      refine (loads.equal_finds hv hu).mono fun found hfound => ?_
      cases hequal : d.equal e with
      | true => rw [hfound, hequal, halike hequal, Bool.true_and]
      | false => rw [hfound, hequal, Bool.false_and]
  | false =>
      have hne : ¬(d.equal e = true ∧ d.alike e = true) := by
        rintro ⟨hequal, halike⟩
        rw [Digest.same_iff_eq.2 ((hagrees hequal).2 halike)] at hsame
        cases hsame
      rw [← Bool.and_eq_true, Bool.not_eq_true] at hne
      rw [hne]
      exact .pure rfl

/-- The keys of an item whose name waits for a loader and of another item of its source. -/
theorem keys_equal_iff_alike_deferred :
    let loader : Loader := { id := 0, assign := [], body := .literal (.text "x") }
    let schema : Schema :=
      { name := "people", properties := [⟨"id", .boolean, true⟩, ⟨"name", .text, false⟩],
        distinct := by decide }
    let source : SourceRef := { id := 0, name := "people", schema }
    let a : ItemRef := { cell := 0, source }
    let b : ItemRef := { cell := 1, source }
    let w : World :=
      { cells := #[
          { source, slots := [("id", .resolved (.bool true)), ("name", .deferred loader)] },
          { source, slots := [("id", .resolved (.bool true)), ("name", .resolved .null)] }] }
    ∃ (held : Holdings) (I : World → Prop) (left right : Value.Key), I w ∧ held.Loads I 1 ∧
      held.Means (.item a) (.item source [("id", .bool true), ("name", .text "x")]) ∧
      Finds I (· = left) ((Value.item a).toKey ItemAccess.live) ∧
      Finds I (· = right) ((Value.item b).toKey ItemAccess.live) ∧
      Finds I (· = true) (left.equal ItemAccess.live right) := by
  intro loader schema source a b w
  let fields? : Nat → Option (SourceRef × Fields Datum)
    | 0 => some (source, [("id", .bool true), ("name", .text "x")])
    | 1 => some (source, [("id", .bool true), ("name", .null)])
    | _ => none
  let held : Holdings :=
    { fields?
      names := by
        rintro (_ | _ | _) _ _ ⟨⟩ <;> rfl
      formed := by
        rintro (_ | _ | _) _ _ ⟨⟩ field hfield
        all_goals
          simp only [List.mem_cons, List.not_mem_nil, or_false] at hfield
          rcases hfield with rfl | rfl <;> exact .single rfl }
  let loaded : World := (((ItemAccess.atLevel 1).field a "name").run w).2
  let I : World → Prop := fun w' => w' = w ∨ w' = loaded
  have hloads : held.Loads I 1 := by
    refine ⟨?_, ?_⟩
    · intro n hn ref ds h field hfield w' hw'
      obtain ⟨n, rfl⟩ := Nat.exists_eq_add_of_le' hn
      obtain ⟨cell, s⟩ := ref
      rcases cell with _ | _ | _
      · obtain ⟨rfl, rfl⟩ := Prod.mk.inj (Option.some.inj h)
        simp only [List.mem_cons, List.not_mem_nil, or_false] at hfield
        rcases hfield with rfl | rfl
        · rcases hw' with rfl | rfl
          · exact ⟨_, _, rfl, .inl rfl, .of_bare rfl rfl⟩
          · exact ⟨_, _, rfl, .inr rfl, .of_bare rfl rfl⟩
        · rcases hw' with rfl | rfl <;> exact ⟨_, _, rfl, .inr rfl, .of_bare rfl rfl⟩
      · obtain ⟨rfl, rfl⟩ := Prod.mk.inj (Option.some.inj h)
        simp only [List.mem_cons, List.not_mem_nil, or_false] at hfield
        rcases hfield with rfl | rfl <;> rcases hw' with rfl | rfl
        · exact ⟨_, _, rfl, .inl rfl, .of_bare rfl rfl⟩
        · exact ⟨_, _, rfl, .inr rfl, .of_bare rfl rfl⟩
        · exact ⟨_, _, rfl, .inl rfl, .of_bare rfl rfl⟩
        · exact ⟨_, _, rfl, .inr rfl, .of_bare rfl rfl⟩
      · cases h
    · intro w' hw' ref ds h
      obtain ⟨cell, s⟩ := ref
      rcases cell with _ | _ | _
      · obtain ⟨rfl, rfl⟩ := Prod.mk.inj (Option.some.inj h)
        rcases hw' with rfl | rfl <;> decide
      · obtain ⟨rfl, rfl⟩ := Prod.mk.inj (Option.some.inj h)
        rcases hw' with rfl | rfl <;> decide
      · cases h
  have ha : held.Means (.item a) (.item source [("id", .bool true), ("name", .text "x")]) :=
    .item rfl
  have hb : held.Means (.item b) (.item source [("id", .bool true), ("name", .null)]) := .item rfl
  obtain ⟨left, right, hleft, hright, -, hequal, -⟩ := keys_equal_iff_alike hloads ha hb
  exact ⟨held, I, left, right, .inl rfl, hloads, ha, hleft, hright, hequal⟩

/-- Two equal items of different sources, only one of which declares an identity, are
different keys. -/
theorem keys_differ_across_sources :
    let people : SourceRef :=
      { id := 0
        name := "people"
        schema :=
          { name := "people", properties := [⟨"id", .boolean, true⟩, ⟨"name", .text, false⟩],
            distinct := by decide } }
    let notes : SourceRef :=
      { id := 1
        name := "notes"
        schema :=
          { name := "notes", properties := [⟨"id", .boolean, false⟩, ⟨"name", .text, false⟩],
            distinct := by decide } }
    let slots : Fields Slot := [("id", .resolved (.bool true)), ("name", .resolved (.text "x"))]
    let w : World := { cells := #[{ source := people, slots }, { source := notes, slots }] }
    let a : Value := .item { cell := 0, source := people }
    let b : Value := .item { cell := 1, source := notes }
    ∃ left right : Value.Key,
      (a.toKey ItemAccess.live).run w = (.ok left, w) ∧
      (b.toKey ItemAccess.live).run w = (.ok right, w) ∧
      (a.equal ItemAccess.live.equal b).run w = (.ok true, w) ∧
      (left.equal ItemAccess.live right).run w = (.ok false, w) :=
  ⟨_, _, rfl, rfl, rfl, rfl⟩

end Holdings

end RecordAlgebra
