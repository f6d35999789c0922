import RecordAlgebra.Expr.Typing
import RecordAlgebra.Proofs.Datum.Operations
import RecordAlgebra.Proofs.Item.Reading
import RecordAlgebra.Proofs.Typing.Join

/-!
# Data of known types

A datum fits a type strictly if null stands for single values only and records
have exactly the listed fields. A type is settled if nothing about its values is
left to evaluation. Data of settled types never surprise an operation that the
types allow: it can only fail for reasons that no type tells.
-/

namespace RecordAlgebra

namespace DataType

mutual

/-- The type contains neither `any` nor null nor an open record. -/
def isSettled : DataType → Bool
  | .any | .null => false
  | .scalar _ => true
  | .list element => isSettled element
  | .record fields isOpen => !isOpen && areSettled fields
  | .item _ => true

def areSettled : List (String × DataType) → Bool
  | [] => true
  | (_, type) :: rest => isSettled type && areSettled rest

end

end DataType

/-- A datum of this type, where null stands for single values only. Types and records
name every field once. -/
inductive Datum.Fits : Datum → DataType → Prop
  | scalar {d : Datum} {t : FieldType} : t.admits d.bare = true → Fits d (.scalar t)
  | list {ds : List Datum} {t : DataType} : (∀ d ∈ ds, Fits d t) → Fits (.list ds) (.list t)
  | record {ds : Fields Datum} {fields : Fields DataType} {isOpen : Bool} :
      (Fields.names ds).Nodup → (Fields.names fields).Nodup →
      (∀ name t, fields.get? name = some t → ∃ d, ds.get? name = some d) →
        (∀ name t d, fields.get? name = some t → ds.get? name = some d → Fits d t) →
          (isOpen = false → ∀ name ∈ Fields.names ds, name ∈ Fields.names fields) →
            Fits (.record ds) (.record fields isOpen)
  | item {source : SourceRef} {ds : Fields Datum} {schema : Schema} :
      source.schema.same schema = true → Fields.names ds = source.schema.names →
        (∀ p ∈ source.schema.properties, ∃ d, ds.get? p.name = some d ∧
          p.type.admits d.bare = true) → Fits (.item source ds) (.item schema)

namespace Datum

theorem Fits.of_same {d : Datum} {a b : DataType} (h : d.Fits a) (hsame : a.same b = true) :
    d.Fits b := by
  induction h generalizing b with
  | @scalar d t h =>
      cases b with
      | scalar t' =>
          simp only [DataType.same, beq_iff_eq] at hsame
          exact .scalar (hsame ▸ h)
      | _ => simp [DataType.same] at hsame
  | list h ih =>
      cases b with
      | list t' => exact .list fun d hd => ih d hd hsame
      | _ => simp [DataType.same] at hsame
  | @record ds fields isOpen hnames hdistinct present fits closed ih =>
      cases b with
      | record fields' isOpen' =>
          simp only [DataType.same, Bool.and_eq_true, beq_iff_eq] at hsame
          obtain ⟨hfields, rfl⟩ := hsame
          have hsameNames := DataType.names_of_sameFields hfields
          refine .record hnames (hsameNames ▸ hdistinct) (fun name t ht => ?_)
            (fun name t d ht hd => ?_) fun hopen name hname => ?_
          · obtain ⟨a, ha, -⟩ := DataType.get?_of_sameFields hfields ht
            exact present name a ha
          · obtain ⟨a, ha, hat⟩ := DataType.get?_of_sameFields hfields ht
            exact ih name a d ha hd hat
          · rw [← hsameNames]
            exact closed hopen name hname
      | _ => simp [DataType.same] at hsame
  | item hschema hnames fits =>
      cases b with
      | item schema' => exact .item (Schema.same_trans hschema hsame) hnames fits
      | _ => simp [DataType.same] at hsame

theorem fits_list {d : Datum} {t : DataType} (h : d.Fits (.list t)) :
    ∃ ds, d = .list ds ∧ ∀ d ∈ ds, d.Fits t := by
  cases h with
  | list h => exact ⟨_, rfl, h⟩

theorem fits_scalar {d : Datum} {t : FieldType} (h : d.Fits (.scalar t)) :
    t.admits d.bare = true := by
  cases h with
  | scalar h => exact h

theorem fits_float_of_int {d : Datum} (h : d.Fits .int) : d.Fits .float := by
  have hadmits := fits_scalar h
  refine .scalar ?_
  cases d <;> first | rfl | cases hadmits

/-- Data of settled types respect the order of types. -/
theorem Fits.within {a b : DataType} (hab : a.Within b) (ha : a.isSettled = true)
    (hb : b.isSettled = true) {d : Datum} (h : d.Fits a) : d.Fits b := by
  induction hab generalizing d with
  | same hsame => exact h.of_same hsame
  | null => cases ha
  | any => cases hb
  | number => exact fits_float_of_int h
  | list _ ih =>
      obtain ⟨ds, rfl, hds⟩ := fits_list h
      exact .list fun d hd => ih ha hb (hds d hd)

/-- What fits one of two settled types fits the type that both fit in. -/
theorem fits_unify {a b : DataType} (ha : a.isSettled = true) (hb : b.isSettled = true)
    (hsettled : (a.unify b).isSettled = true) {d : Datum} (h : d.Fits a ∨ d.Fits b) :
    d.Fits (a.unify b) := by
  obtain ⟨hleft, hright⟩ := DataType.within_unify a b
  exact h.elim (.within hleft ha hsettled) (.within hright hb hsettled)

end Datum

end RecordAlgebra
