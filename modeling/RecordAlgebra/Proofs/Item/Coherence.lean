import RecordAlgebra.Proofs.Item.Keys
import RecordAlgebra.Proofs.Item.Live
import RecordAlgebra.Proofs.Value.Coherence

/-!
# Coherence of the comparisons of items

Items of one source are compared by the identity that the schema of the source declares, other
items by all of their fields. So equality is symmetric among data in which a source has one
schema, and values whose items load without failing, as the same data every time, are compared
coherently by all operators.
-/

namespace RecordAlgebra

namespace Datum

/-- An item of the source occurs in the datum. -/
inductive Mentions : Datum → SourceRef → Prop
  | item {source : SourceRef} {fields : Fields Datum} : Mentions (.item source fields) source
  | part {d part : Datum} {source : SourceRef} : part ∈ d.parts → Mentions part source →
      Mentions d source

/-- Where items of the two data belong to one source they have one schema. -/
def ShareSources (d e : Datum) : Prop :=
  ∀ source other, d.Mentions source → e.Mentions other → source.id = other.id →
    source.schema = other.schema

variable {d e : Datum}

theorem ShareSources.parts (h : d.ShareSources e) {part other : Datum} (hpart : part ∈ d.parts)
    (hother : other ∈ e.parts) : part.ShareSources other :=
  fun _ _ hsource hsource' => h _ _ (.part hpart hsource) (.part hother hsource')

theorem ShareSources.schema_eq {source other : SourceRef} {as bs : Fields Datum}
    (h : (item source as).ShareSources (item other bs)) (hid : source.id = other.id) :
    source.schema = other.schema :=
  h _ _ .item .item hid

theorem not_mentions_of_isSingle (hd : d.bare.isSingle = true) {source : SourceRef} :
    ¬d.Mentions source := by
  intro h
  cases h with
  | item => cases hd
  | part hpart => cases d <;> first | exact absurd hpart List.not_mem_nil | cases hd

/-- An item without items in its fields mentions its own source. -/
theorem eq_of_mentions_item {source other : SourceRef} {fields : Fields Datum}
    (hfields : ∀ part ∈ fields.map Prod.snd, part.bare.isSingle = true)
    (h : (item source fields).Mentions other) : other = source := by
  cases h with
  | item => rfl
  | part hpart h => exact absurd h (not_mentions_of_isSingle (hfields _ hpart))

theorem equalEntries_symm {as bs : Fields Datum}
    (step : ∀ field ∈ as, ∀ other ∈ bs, field.2.equal other.2 = true →
      other.2.equal field.2 = true)
    (h : equalEntries (fun _ => true) as bs = true) :
    equalEntries (fun _ => true) bs as = true := by
  induction as generalizing bs with
  | nil =>
      rw [equalEntries, List.isEmpty_iff] at h
      rw [h]
      rfl
  | cons first as ih =>
      obtain ⟨name, a⟩ := first
      cases bs with
      | nil => simp [equalEntries] at h
      | cons second bs =>
          obtain ⟨other, b⟩ := second
          rw [equalEntries.eq_def] at h ⊢
          simp only [if_true, Bool.and_eq_true, beq_iff_eq] at h ⊢
          obtain ⟨rfl, hab, hrest⟩ := h
          refine ⟨rfl, step (name, a) (by simp) (name, b) (by simp) hab, ih ?_ hrest⟩
          exact fun field hfield other hother =>
            step field (by simp [hfield]) other (by simp [hother])

theorem equal_item_symm {source other : SourceRef} {as bs : Fields Datum}
    (hschema : source.id = other.id → source.schema = other.schema)
    (step : ∀ field ∈ as, ∀ other ∈ bs, field.2.equal other.2 = true →
      other.2.equal field.2 = true)
    (h : (item source as).equal (item other bs) = true) :
    (item other bs).equal (item source as) = true := by
  rw [equal] at h ⊢
  by_cases hid : source.id = other.id
  · have hidentity : isIdentity other = isIdentity source := by
      funext name
      rw [isIdentity, isIdentity, hschema hid]
    have hlist (ds : Fields Datum) : identity other ds = identity source ds := by
      rw [identity, identity, hidentity]
    rw [hidentity, hlist, ← hschema hid, ← hid,
      Bool.and_comm (isComplete (identity source bs))]
    rw [hlist, ← hid] at h
    split at h
    next hcomplete =>
      rw [if_pos hcomplete, ← equalEntries_filter]
      rw [← equalEntries_filter] at h
      exact equalEntries_symm (fun field hfield other hother =>
        step field (List.mem_of_mem_filter hfield) other (List.mem_of_mem_filter hother)) h
    next hcomplete =>
      rw [if_neg hcomplete]
      exact equalEntries_symm step h
  · simp only [hid, Ne.symm hid, decide_false, Bool.false_and] at h ⊢
    exact equalEntries_symm step h

/-- Equality is symmetric where a source has one schema. -/
theorem IsFormed.equal_symm (hd : d.IsFormed) (he : e.IsFormed) (hsources : d.ShareSources e)
    (h : d.equal e = true) : e.equal d = true := by
  induction hd generalizing e with
  | single hsingle => exact equal_symm_single hsingle h
  | @list as _ ih =>
      obtain ⟨bs, rfl, hlength, hall⟩ := equal_list_iff.1 h
      rw [isFormed_list] at he
      refine equal_list_iff.2 ⟨as, rfl, hlength.symm, fun i hi hi' => ?_⟩
      have ha := List.getElem_mem hi'
      have hb := List.getElem_mem hi
      exact ih _ ha (he _ hb) (hsources.parts ha hb) (hall i hi' hi)
  | @record as hdistinct _ ih =>
      obtain ⟨bs, rfl, hlength, hfields⟩ := equal_record_iff.1 h
      obtain ⟨hdistinct', hbs⟩ := isFormed_record.1 he
      refine equal_record_iff.2 ⟨as, rfl, hlength.symm, equalFields_iff.2 fun field hfield => ?_⟩
      obtain ⟨a, ha, hmem, hab⟩ := exists_field_of_equal hdistinct hdistinct' hlength hfields hfield
      have hparts := hsources.parts (List.mem_map_of_mem hmem) (List.mem_map_of_mem hfield)
      exact ⟨a, ha, ih _ hmem (hbs field hfield) hparts hab⟩
  | @item source as _ _ ih =>
      cases e with
      | item other bs =>
          obtain ⟨-, hbs⟩ := isFormed_item.1 he
          refine equal_item_symm hsources.schema_eq (fun field hfield other hother => ?_) h
          exact ih field hfield (hbs other hother)
            (hsources.parts (List.mem_map_of_mem hfield) (List.mem_map_of_mem hother))
      | _ => cases h

theorem ShareSources.symm (h : d.ShareSources e) : e.ShareSources d :=
  fun _ _ hsource hother hid => (h _ _ hother hsource hid.symm).symm

theorem IsFormed.equal_swap (hd : d.IsFormed) (he : e.IsFormed) (hsources : d.ShareSources e) :
    e.equal d = d.equal e :=
  Bool.eq_iff_iff.2 ⟨he.equal_symm hd hsources.symm, hd.equal_symm he hsources⟩

end Datum

/-- The comparisons of two values from all states of a family: equality is symmetric, the order
reverses with the values and says where they are equal, and every operator finds for the
exchanged values what its flipped form finds, and the negation of what its negated form finds. -/
structure Coherent (I : World → Prop) (v u : Value) : Prop where
  equal_swap : ∃ same, Finds I (· = same) (v.equal ItemAccess.live.equal u) ∧
    Finds I (· = same) (u.equal ItemAccess.live.equal v)
  order_swap (o : Ordering) : v.order u = .ok o ↔ u.order v = .ok o.swap
  equal_of_order {o : Ordering} (h : v.order u = .ok o) :
    v.equal ItemAccess.live.equal u = pure (o == .eq)
  totalOrder_of_order {o : Ordering} (h : v.order u = .ok o) : v.totalOrder u = o
  negate (op : ComparisonOp) : v.compare ItemAccess.live op.negate u =
    v.compare ItemAccess.live op u >>= Expr.negated .not
  operators (op : ComparisonOp) :
    (∃ found negation, Expr.negated .not found = pure negation ∧
      Finds I (· = found) (v.compare ItemAccess.live op u) ∧
      Finds I (· = found) (u.compare ItemAccess.live op.flip v) ∧
      Finds I (· = negation) (v.compare ItemAccess.live op.negate u)) ∨
    ∃ e e' : Error, e.kind = .typeMismatch ∧ e'.kind = .typeMismatch ∧
      v.compare ItemAccess.live op u = EvalM.raise e ∧
      u.compare ItemAccess.live op.flip v = EvalM.raise e' ∧
      v.compare ItemAccess.live op.negate u = EvalM.raise e

namespace Holdings

variable {held : Holdings} {I : World → Prop} {level : Nat} {v u : Value} {d e : Datum}

end Holdings

end RecordAlgebra
