import Mathlib.Data.List.Forall2
import RecordAlgebra.Fields

/-!
# Fields that are related one by one

Two lists of fields may be related so that each field stands against one of the same name. Then
they have the same names, a name is looked up in both or in none of them, and they stay related
while fields of the same names are written or left out.
-/

namespace RecordAlgebra

theorem map_eq_map_of_forall₂ {α β γ : Type} {f : α → γ} {g : β → γ} {as : List α} {bs : List β}
    (h : List.Forall₂ (fun a b => f a = g b) as bs) : as.map f = bs.map g := by
  induction h with
  | nil => rfl
  | cons hab _ ih => rw [List.map_cons, List.map_cons, hab, ih]

namespace Fields

variable {α β : Type} {R : α → β → Prop} {as others : Fields α} {bs additions : Fields β}
  {name : String} {a : α} {b : β}

theorem names_eq_of_forall₂ (h : List.Forall₂ (fun a b => a.1 = b.1 ∧ R a.2 b.2) as bs) :
    as.names = bs.names :=
  map_eq_map_of_forall₂ (h.imp fun _ _ hfield => hfield.1)

theorem forall₂_iff_names : List.Forall₂ (fun a b => a.1 = b.1 ∧ R a.2 b.2) as bs ↔
    as.names = bs.names ∧ List.Forall₂ R (as.map Prod.snd) (bs.map Prod.snd) := by
  induction as generalizing bs with
  | nil => cases bs <;> simp [names]
  | cons a as ih =>
      cases bs with
      | nil => simp [names]
      | cons b bs =>
          simp only [names] at ih
          simp only [names, List.forall₂_cons, List.map_cons, List.cons.injEq, ih]
          exact and_and_and_comm

theorem rel_get?_of_forall₂ (h : List.Forall₂ (fun a b => a.1 = b.1 ∧ R a.2 b.2) as bs)
    (name : String) : Option.Rel R (as.get? name) (bs.get? name) := by
  induction h with
  | nil => exact .none
  | @cons a b as bs hfield _ ih =>
      obtain ⟨first, a⟩ := a
      obtain ⟨_, b⟩ := b
      obtain ⟨rfl, hab⟩ := hfield
      simp only [get?, List.lookup_cons] at ih ⊢
      cases name == first
      · exact ih
      · exact .some hab

theorem exists_get?_left (h : List.Forall₂ (fun a b => a.1 = b.1 ∧ R a.2 b.2) as bs)
    (hb : bs.get? name = some b) : ∃ a, as.get? name = some a ∧ R a b := by
  have hget := rel_get?_of_forall₂ h name
  rw [hb] at hget
  generalize as.get? name = found at hget ⊢
  cases hget with
  | some hab => exact ⟨_, rfl, hab⟩

theorem exists_get?_right (h : List.Forall₂ (fun a b => a.1 = b.1 ∧ R a.2 b.2) as bs)
    (ha : as.get? name = some a) : ∃ b, bs.get? name = some b ∧ R a b := by
  have hget := rel_get?_of_forall₂ h name
  rw [ha] at hget
  generalize bs.get? name = found at hget ⊢
  cases hget with
  | some hab => exact ⟨_, rfl, hab⟩

theorem forall₂_filter (h : List.Forall₂ (fun a b => a.1 = b.1 ∧ R a.2 b.2) as bs)
    (keep : String → Bool) :
    List.Forall₂ (fun a b => a.1 = b.1 ∧ R a.2 b.2) (as.filter fun a => keep a.1)
      (bs.filter fun b => keep b.1) := by
  induction h with
  | nil => exact .nil
  | cons hfield _ ih =>
      rw [List.filter_cons, List.filter_cons, hfield.1]
      split
      · exact .cons hfield ih
      · exact ih

theorem forall₂_insert (h : List.Forall₂ (fun a b => a.1 = b.1 ∧ R a.2 b.2) as bs)
    (name : String) (hab : R a b) :
    List.Forall₂ (fun a b => a.1 = b.1 ∧ R a.2 b.2) (as.insert name a) (bs.insert name b) := by
  induction h with
  | nil => exact .cons ⟨rfl, hab⟩ .nil
  | @cons a' b' as bs hfield hrest ih =>
      obtain ⟨first, a'⟩ := a'
      obtain ⟨_, b'⟩ := b'
      obtain ⟨rfl, hfirst⟩ := hfield
      rw [insert, insert]
      split
      · exact .cons ⟨rfl, hab⟩ hrest
      · exact .cons ⟨rfl, hfirst⟩ ih

theorem forall₂_insertAll (h : List.Forall₂ (fun a b => a.1 = b.1 ∧ R a.2 b.2) as bs)
    (hothers : List.Forall₂ (fun a b => a.1 = b.1 ∧ R a.2 b.2) others additions) :
    List.Forall₂ (fun a b => a.1 = b.1 ∧ R a.2 b.2) (as.insertAll others)
      (bs.insertAll additions) := by
  induction hothers generalizing as bs with
  | nil => exact h
  | @cons a b _ _ hfield _ ih =>
      obtain ⟨name, a⟩ := a
      obtain ⟨_, b⟩ := b
      obtain ⟨rfl, hab⟩ := hfield
      exact ih (forall₂_insert h name hab)

end Fields

end RecordAlgebra
