import RecordAlgebra.Document.Basic
import RecordAlgebra.Proofs.Calendar.Stored
import RecordAlgebra.Value.Access

/-!
# Stored rows

What a document says of a property of a known type reads back as the value that was
stored, and storing it again gives the same document. In the form in which a property
stores its values, without a negative zero, equal values have the same text.
-/

namespace RecordAlgebra

/-- Timestamps are days and times that exist. -/
def Value.timesExist : Value → Bool
  | .timestamp t => t.isValid
  | _ => true

/-- The value is spelled as a property of this type stores it, and not as a negative zero. -/
def Value.isInForm : FieldType → Value → Bool
  | .float, .int _ => false
  | _, .float x => !(Binary64.isZero x && Binary64.signBit x)
  | _, _ => true

theorem Value.not_negativeZero {type : FieldType} {x : Float}
    (h : (Value.float x).isInForm type = true) :
    (Binary64.isZero x && Binary64.signBit x) = false := by
  have hnot : (!(Binary64.isZero x && Binary64.signBit x)) = true := by
    cases type <;> exact h
  simpa only [Bool.not_eq_true'] using hnot

theorem numberValue_toInt (n : Int64) : Document.numberValue n.toInt = .int n := by
  have hrange : Int64.minValue.toInt ≤ n.toInt ∧ n.toInt ≤ Int64.maxValue.toInt := by
    have hleast := n.le_toInt
    have hgreatest := n.toInt_lt
    rw [Int64.toInt_minValue, Int64.toInt_maxValue]
    omega
  rw [Document.numberValue, wordOfInt?, if_pos hrange]
  simp

/-- Numbers that are equal have the same text, unless they are the two zeros. -/
theorem Json.numberText_eq {x y : Float} (hx : Binary64.isFinite x = true)
    (hy : Binary64.isFinite y = true) (horder : Binary64.order x y = .eq)
    (hzerox : (Binary64.isZero x && Binary64.signBit x) = false)
    (hzeroy : (Binary64.isZero y && Binary64.signBit y) = false) : numberText x = numberText y := by
  have hkeys := (Binary64.order_eq_iff x y).1 horder
  simp only [Binary64.isFinite, decide_eq_true_eq] at hx hy
  simp only [Binary64.isZero] at hzerox hzeroy
  rw [Binary64.orderKey, Binary64.orderKey] at hkeys
  have hsame : Binary64.magnitude x = Binary64.magnitude y ∧ Binary64.signBit x = Binary64.signBit y := by
    have hundefinedx : Binary64.isUndefined x = false := by
      simp only [Binary64.isUndefined, decide_eq_false_iff_not]
      omega
    have hundefinedy : Binary64.isUndefined y = false := by
      simp only [Binary64.isUndefined, decide_eq_false_iff_not]
      omega
    rw [hundefinedx, hundefinedy] at hkeys
    cases hsignx : Binary64.signBit x <;> cases hsigny : Binary64.signBit y <;>
      simp [hsignx, hsigny] at hkeys hzerox hzeroy ⊢ <;> omega
  simp [numberText, Binary64.isFinite, Binary64.text, Binary64.parts, hsame.1, hsame.2]

namespace Document

theorem toOctets_map (octets : List UInt8) :
    toOctets (octets.map fun octet => .int octet.toNat) = .ok octets := by
  induction octets with
  | nil => rfl
  | cons octet rest ih =>
      have hoctet : toOctet (.int octet.toNat) = .ok octet := by
        have hbound := octet.toNat_lt
        simp [toOctet]
        omega
      simp [toOctets, hoctet, ih]
      rfl

/-- What is stored of a value of a property reads back. -/
theorem toTyped_ofValue {type : FieldType} {v : Value} {document : Json} (hplain : type ≠ .any)
    (hadmits : type.admits v = true) (htimes : v.timesExist = true)
    (h : ofValue (coerce type v) = .ok document) :
    toTyped (.scalar type) document = .ok (coerce type v) := by
  cases v with
  | null =>
      cases type <;> cases h <;> rfl
  | bool b =>
      cases type <;> simp [FieldType.admits] at hadmits hplain
      cases h
      rfl
  | int n =>
      cases type <;> simp [FieldType.admits] at hadmits hplain
      · cases h
        exact congrArg Except.ok (numberValue_toInt n)
      · rw [coerce, ofValue] at h
        split at h
        · cases h
          rfl
        · cases h
  | float x =>
      cases type <;> simp [FieldType.admits] at hadmits hplain
      rw [coerce, ofValue] at h
      · split at h
        · cases h
          rfl
        · cases h
      · nofun
  | text s =>
      cases type <;> simp [FieldType.admits] at hadmits hplain
      cases h
      rfl
  | bytes octets =>
      cases type <;> simp [FieldType.admits] at hadmits hplain
      cases h
      exact congrArg (Except.map Value.bytes) (toOctets_map octets)
  | timestamp t =>
      cases type <;> simp [FieldType.admits] at hadmits hplain
      cases h
      have hread : toTimestamp t.storedText = .ok t := by
        rw [toTimestamp, Timestamp.ofStoredText?_storedText htimes]
      show (toTimestamp t.storedText).map Value.timestamp = .ok (.timestamp t)
      rw [hread]
      rfl
  | list elements => cases type <;> simp [FieldType.admits] at hadmits hplain
  | record fields => cases type <;> simp [FieldType.admits] at hadmits hplain
  | item ref => cases type <;> simp [FieldType.admits] at hadmits hplain

/-- Equal values of a property have the same text, if they are in the form in which it stores
them. -/
theorem print_eq_of_equal {items : ItemRef → ItemRef → Except Error Bool} {type : FieldType}
    {u v : Value} {first second : Json} (hplain : type ≠ .any) (hu : type.admits u = true)
    (hv : type.admits v = true) (hformu : u.isInForm type = true) (hformv : v.isInForm type = true)
    (hfirst : ofValue u = .ok first) (hsecond : ofValue v = .ok second)
    (hequal : u.equal items v = .ok true) : first.print = second.print := by
  have hsame (h : u = v) : first.print = second.print := by
    rw [h, hsecond] at hfirst
    cases hfirst
    rfl
  cases u with
  | null =>
      cases v with
      | null => exact hsame rfl
      | _ => cases hequal
  | bool a =>
      cases v with
      | bool b => exact hsame (congrArg Value.bool (beq_iff_eq.1 (Except.ok.inj hequal)))
      | _ => cases hequal
  | int m =>
      cases v with
      | int n => exact hsame (congrArg Value.int (beq_iff_eq.1 (Except.ok.inj hequal)))
      | float y => cases type <;> simp [FieldType.admits, Value.isInForm] at hu hv hformu hplain
      | _ => cases hequal
  | float x =>
      cases v with
      | int n => cases type <;> simp [FieldType.admits, Value.isInForm] at hu hv hformv hplain
      | float y =>
          rw [ofValue] at hfirst hsecond
          split at hfirst
          · next hx =>
              split at hsecond
              · next hy =>
                  cases hfirst
                  cases hsecond
                  have horder := beq_iff_eq.1 (Except.ok.inj hequal)
                  exact Json.numberText_eq hx hy horder (Value.not_negativeZero hformu)
                    (Value.not_negativeZero hformv)
              · cases hsecond
          · cases hfirst
      | _ => cases hequal
  | text s =>
      cases v with
      | text t => exact hsame (congrArg Value.text (beq_iff_eq.1 (Except.ok.inj hequal)))
      | _ => cases hequal
  | bytes octets =>
      cases v with
      | bytes others => exact hsame (congrArg Value.bytes (beq_iff_eq.1 (Except.ok.inj hequal)))
      | _ => cases hequal
  | timestamp t =>
      cases v with
      | timestamp t' => exact hsame (congrArg Value.timestamp (beq_iff_eq.1 (Except.ok.inj hequal)))
      | _ => cases hequal
  | list elements => cases type <;> simp [FieldType.admits] at hu hplain
  | record fields => cases type <;> simp [FieldType.admits] at hu hplain
  | item ref => cases type <;> simp [FieldType.admits] at hu hplain

section Rows

variable {schema : Schema} {row : Row} {document : Json}

/-- What a row says of a property, which is null if it says nothing. -/
def valueIn (row : Row) (name : String) : Value := (row.get? name).getD .null

/-- The row that is stored: all properties, in the form in which they store values. -/
def storedRow (schema : Schema) (row : Row) : Row :=
  schema.properties.map fun property =>
    (property.name, coerce property.type (valueIn row property.name))

theorem mapM_eq_ok {α β : Type} {f : α → Except Error β} {g : α → β} {as : List α}
    (h : ∀ a ∈ as, f a = .ok (g a)) : as.mapM f = .ok (as.map g) := by
  induction as with
  | nil => rfl
  | cons a as ih =>
      obtain ⟨ha, has⟩ := List.forall_mem_cons.1 h
      rw [List.mapM_cons, ha, ih has]
      rfl

theorem map_eq_of_mapM_eq_ok {α β : Type} {f : α → Except Error β} {as : List α} {bs : List β}
    (h : as.mapM f = .ok bs) : as.map f = bs.map .ok := by
  induction as generalizing bs with
  | nil =>
      cases h
      rfl
  | cons a as ih =>
      rw [List.mapM_cons] at h
      cases ha : f a with
      | error e =>
          rw [ha] at h
          cases h
      | ok b =>
          cases has : as.mapM f with
          | error e =>
              rw [ha, has] at h
              cases h
          | ok bs' =>
              rw [ha, has] at h
              cases h
              rw [List.map_cons, List.map_cons, ha, ih has]

theorem exists_of_mapM_eq_ok {α β : Type} {f : α → Except Error β} {as : List α} {bs : List β}
    (h : as.mapM f = .ok bs) {a : α} (ha : a ∈ as) : ∃ b, f a = .ok b := by
  have hmem : f a ∈ bs.map .ok := by
    rw [← map_eq_of_mapM_eq_ok h]
    exact List.mem_map_of_mem ha
  obtain ⟨b, -, hb⟩ := List.mem_map.1 hmem
  exact ⟨b, hb.symm⟩

/-- What is stored of one property. -/
def memberOf (row : Row) (property : Property) : Except Error (String × Json) := do
  let v := valueIn row property.name
  property.validate v
  return (property.name, ← ofValue (coerce property.type v))

theorem ofRow_eq (schema : Schema) (row : Row) :
    ofRow schema row = (do return .object (← schema.properties.mapM (memberOf row))) := rfl

theorem memberOf_ok_iff {property : Property} {member : String × Json} :
    memberOf row property = .ok member ↔ member.1 = property.name ∧
      property.type.admits (valueIn row property.name) = true ∧
      ofValue (coerce property.type (valueIn row property.name)) = .ok member.2 := by
  rw [memberOf, Property.validate]
  cases hadmits : property.type.admits (valueIn row property.name) with
  | false => simp [bind, Except.bind]
  | true =>
      cases hvalue : ofValue (coerce property.type (valueIn row property.name)) with
      | error e => simp [bind, Except.bind]
      | ok document => simp [bind, Except.bind, pure, Except.pure, Prod.ext_iff, eq_comm]

/-- A property as it is stored, if it can be. -/
def storedMember (row : Row) (property : Property) : String × Json :=
  (property.name, (ofValue (coerce property.type (valueIn row property.name))).toOption.getD .null)

/-- The document of a row has what is stored of each property, all of which are admitted. -/
theorem ofRow_ok_iff : ofRow schema row = .ok document ↔
    document = .object (schema.properties.map (storedMember row)) ∧
      ∀ property ∈ schema.properties, memberOf row property = .ok (storedMember row property) := by
  rw [ofRow_eq]
  constructor
  · intro h
    cases hmembers : schema.properties.mapM (memberOf row) with
    | error e =>
        rw [hmembers] at h
        cases h
    | ok members =>
        have hall (property) (hproperty : property ∈ schema.properties) :
            memberOf row property = .ok (storedMember row property) := by
          obtain ⟨member, hmember⟩ := exists_of_mapM_eq_ok hmembers hproperty
          obtain ⟨hname, -, hvalue⟩ := memberOf_ok_iff.1 hmember
          rw [hmember, storedMember, hvalue, ← hname]
          rfl
        rw [mapM_eq_ok hall] at h
        cases h
        exact ⟨rfl, hall⟩
  · intro ⟨hdocument, hall⟩
    rw [mapM_eq_ok hall, hdocument]
    rfl

theorem valueIn_storedRow {property : Property} (h : property ∈ schema.properties) :
    valueIn (storedRow schema row) property.name =
      coerce property.type (valueIn row property.name) := by
  have hnames : Fields.names (storedRow schema row) = schema.properties.map Property.name := by
    simp [storedRow, Fields.names, Function.comp_def]
  have hget : Fields.get? (storedRow schema row) property.name =
      some (coerce property.type (valueIn row property.name)) := by
    apply Fields.get?_eq_some_of_mem
    · rw [hnames]
      exact schema.distinct
    · exact List.mem_map_of_mem (f := fun property : Property =>
        (property.name, coerce property.type (valueIn row property.name))) h
  rw [valueIn, hget]
  rfl

theorem coerce_coerce (type : FieldType) (v : Value) : coerce type (coerce type v) = coerce type v := by
  cases type <;> cases v <;> rfl

theorem admits_coerce {type : FieldType} {v : Value} (h : type.admits v = true) :
    type.admits (coerce type v) = true := by
  cases type <;> cases v <;> simp_all [coerce, FieldType.admits]

/-- A row that was read from a document is stored as that document again. -/
theorem ofRow_storedRow (h : ofRow schema row = .ok document) :
    ofRow schema (storedRow schema row) = .ok document := by
  obtain ⟨hdocument, hall⟩ := ofRow_ok_iff.1 h
  have hsame : ∀ property ∈ schema.properties, memberOf (storedRow schema row) property =
      .ok (storedMember row property) ∧ storedMember (storedRow schema row) property =
      storedMember row property := by
    intro property hproperty
    obtain ⟨hname, hadmits, hvalue⟩ := memberOf_ok_iff.1 (hall property hproperty)
    have hread : valueIn (storedRow schema row) property.name =
        coerce property.type (valueIn row property.name) := valueIn_storedRow hproperty
    constructor
    · apply memberOf_ok_iff.2
      rw [hread, coerce_coerce]
      exact ⟨hname, admits_coerce hadmits, hvalue⟩
    · rw [storedMember, hread, coerce_coerce]
      rfl
  apply ofRow_ok_iff.2
  constructor
  · rw [hdocument, List.map_congr_left fun property hproperty => (hsame property hproperty).2]
  · intro property hproperty
    rw [(hsame property hproperty).1, (hsame property hproperty).2]

/-- What is stored of a row reads back. -/
theorem toRow_ofRow (hplain : ∀ property ∈ schema.properties, property.type ≠ .any)
    (htimes : ∀ property ∈ schema.properties, (valueIn row property.name).timesExist = true)
    (h : ofRow schema row = .ok document) : toRow schema document = .ok (storedRow schema row) := by
  obtain ⟨rfl, hall⟩ := ofRow_ok_iff.1 h
  rw [toRow]
  apply mapM_eq_ok
  intro property hproperty
  obtain ⟨-, hadmits, hvalue⟩ := memberOf_ok_iff.1 (hall property hproperty)
  have hnames : Fields.names (schema.properties.map (storedMember row)) =
      schema.properties.map Property.name := by
    simp [storedMember, Fields.names, Function.comp_def]
  have hget : Fields.get? (schema.properties.map (storedMember row)) property.name =
      some (storedMember row property).2 := by
    apply Fields.get?_eq_some_of_mem
    · rw [hnames]
      exact schema.distinct
    · exact List.mem_map_of_mem (f := storedMember row) hproperty
  have htyped := toTyped_ofValue (hplain property hproperty) hadmits (htimes property hproperty) hvalue
  rw [hget]
  simp only
  rw [htyped]
  rfl

end Rows

end Document

end RecordAlgebra
