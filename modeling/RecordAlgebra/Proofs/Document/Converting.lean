import RecordAlgebra.Proofs.Pipeline.Grouping
import RecordAlgebra.Proofs.Value.Exactness

/-!
# Conversions undo each other

A value has a document exactly if no item and no number that is not finite occurs in it. The
document reads back as the value, with the same kinds of numbers and the same order of fields,
exactly if no bytes and timestamps occur in it either. The other way round, the value of a
document is written as that document exactly if its integers are words and its other numbers
are finite, as those of every text are.
-/

namespace RecordAlgebra

namespace Value

/-- The elements of a list, and the values of the fields of a record. -/
def parts : Value → List Value
  | .list elements => elements
  | .record fields => fields.map Prod.snd
  | _ => []

theorem forall_parts_record {P : Value → Prop} {fields : Fields Value} :
    (∀ part ∈ (record fields).parts, P part) ↔ ∀ field ∈ fields, P field.2 :=
  List.forall_mem_map

theorem partInduction {motive : Value → Prop}
    (step : ∀ v : Value, (∀ part ∈ v.parts, motive part) → motive v) (v : Value) : motive v :=
  @Value.rec motive (fun elements => ∀ v ∈ elements, motive v)
    (fun fields => ∀ field ∈ fields, motive field.2) (fun field => motive field.2)
    (step _ (by simp [parts])) (fun _ => step _ (by simp [parts]))
    (fun _ => step _ (by simp [parts])) (fun _ => step _ (by simp [parts]))
    (fun _ => step _ (by simp [parts])) (fun _ => step _ (by simp [parts]))
    (fun _ => step _ (by simp [parts])) (fun _ ih => step _ ih)
    (fun _ ih => step _ (forall_parts_record.2 ih)) (fun _ => step _ (by simp [parts]))
    (by simp) (fun _ _ first rest => List.forall_mem_cons.2 ⟨first, rest⟩)
    (by simp) (fun _ _ first rest => List.forall_mem_cons.2 ⟨first, rest⟩)
    (fun _ _ ih => ih) v

/-- The value is the other one, or it occurs in a part of it. -/
inductive Within (u : Value) : Value → Prop
  | self : Within u u
  | part {v part : Value} : part ∈ v.parts → Within u part → Within u v

/-- What holds of a value if it does of its parts holds if all that occurs in it allows it. -/
theorem iff_forall_within {P : Value → Prop} {p : Value → Bool}
    (h : ∀ v, P v ↔ p v = true ∧ ∀ part ∈ v.parts, P part) (v : Value) :
    P v ↔ ∀ u, Within u v → p u = true := by
  constructor
  · intro hv u hu
    induction hu with
    | self => exact ((h _).1 hv).1
    | part hpart _ ih => exact ih (((h _).1 hv).2 _ hpart)
  · intro hall
    induction v using partInduction with
    | step v ih =>
        exact (h v).2 ⟨hall v .self, fun part hpart =>
          ih part hpart fun u hu => hall u (.part hpart hu)⟩

/-- Whether the value can be written, as far as its parts can. -/
def isWritten : Value → Bool
  | .item _ => false
  | .float x => Binary64.isFinite x
  | _ => true

theorem isWritten_eq_false_iff {v : Value} : v.isWritten = false ↔
    (∃ ref, v = .item ref) ∨ ∃ x, v = .float x ∧ Binary64.isFinite x = false := by
  cases v <;> simp [isWritten]

/-- Whether the value is written as something that reads as another value. -/
def isDisguised : Value → Bool
  | .bytes _ | .timestamp _ => true
  | _ => false

end Value

namespace Json

/-- The elements of an array, and the values of the members of an object. -/
def parts : Json → List Json
  | .array elements => elements
  | .object members => members.map Prod.snd
  | _ => []

theorem forall_parts_object {P : Json → Prop} {members : Fields Json} :
    (∀ part ∈ (object members).parts, P part) ↔ ∀ member ∈ members, P member.2 :=
  List.forall_mem_map

theorem partInduction {motive : Json → Prop}
    (step : ∀ j : Json, (∀ part ∈ j.parts, motive part) → motive j) (j : Json) : motive j :=
  @Json.rec motive (fun elements => ∀ j ∈ elements, motive j)
    (fun members => ∀ member ∈ members, motive member.2) (fun member => motive member.2)
    (step _ (by simp [parts])) (fun _ => step _ (by simp [parts]))
    (fun _ => step _ (by simp [parts])) (fun _ => step _ (by simp [parts]))
    (fun _ => step _ (by simp [parts])) (fun _ ih => step _ ih)
    (fun _ ih => step _ (forall_parts_object.2 ih))
    (by simp) (fun _ _ first rest => List.forall_mem_cons.2 ⟨first, rest⟩)
    (by simp) (fun _ _ first rest => List.forall_mem_cons.2 ⟨first, rest⟩)
    (fun _ _ ih => ih) j

/-- The document is the other one, or it occurs in a part of it. -/
inductive Within (i : Json) : Json → Prop
  | self : Within i i
  | part {j part : Json} : part ∈ j.parts → Within i part → Within i j

theorem iff_forall_within {P : Json → Prop} {p : Json → Bool}
    (h : ∀ j, P j ↔ p j = true ∧ ∀ part ∈ j.parts, P part) (j : Json) :
    P j ↔ ∀ i, Within i j → p i = true := by
  constructor
  · intro hj i hi
    induction hi with
    | self => exact ((h _).1 hj).1
    | part hpart _ ih => exact ih (((h _).1 hj).2 _ hpart)
  · intro hall
    induction j using partInduction with
    | step j ih =>
        exact (h j).2 ⟨hall j .self, fun part hpart =>
          ih part hpart fun i hi => hall i (.part hpart hi)⟩

/-- Whether the document is kept by the value that it reads as, as far as its parts are. -/
def isKept : Json → Bool
  | .int n => decide (FitsWord n)
  | .float x => Binary64.isFinite x
  | _ => true

theorem isKept_iff {j : Json} : j.isKept = true ↔
    (∀ n, j = .int n → FitsWord n) ∧ ∀ x, j = .float x → Binary64.isFinite x = true := by
  cases j <;> simp [isKept]

end Json

namespace Document

theorem exists_map_ok_iff {α β : Type} {x : Except Error α} {f : α → β} :
    (∃ b, x.map f = .ok b) ↔ ∃ a, x = .ok a := by
  cases x <;> simp [Except.map]

section Values

variable {v : Value} {vs : List Value} {fields : Fields Value}

theorem exists_ofValues_iff :
    (∃ documents, ofValues vs = .ok documents) ↔ ∀ v ∈ vs, ∃ document, ofValue v = .ok document := by
  simp only [ofValues_ok_iff]
  constructor
  · rintro ⟨documents, h⟩ v hv
    obtain ⟨document, -, hdocument⟩ := exists_mem_of_forall₂ h.flip hv
    exact ⟨document, hdocument⟩
  · intro h
    choose! document hdocument using h
    exact ⟨vs.map document, List.forall₂_map_right_iff.2 (List.forall₂_same.2 hdocument)⟩

theorem exists_ofFields_iff : (∃ members, ofFields fields = .ok members) ↔
    ∀ field ∈ fields, ∃ document, ofValue field.2 = .ok document := by
  simp only [ofFields_ok_iff]
  constructor
  · rintro ⟨members, h⟩ field hfield
    obtain ⟨member, -, -, hmember⟩ := exists_mem_of_forall₂ h.flip hfield
    exact ⟨member.2, hmember⟩
  · intro h
    choose! document hdocument using h
    exact ⟨fields.map fun field => (field.1, document field), List.forall₂_map_right_iff.2 <|
      List.forall₂_same.2 fun field hfield => ⟨rfl, hdocument field hfield⟩⟩

/-- A value has a document if it can be written and its parts have documents. -/
theorem exists_ofValue_iff_parts (v : Value) : (∃ document, ofValue v = .ok document) ↔
    v.isWritten = true ∧ ∀ part ∈ v.parts, ∃ document, ofValue part = .ok document := by
  cases v with
  | float x => cases hx : Binary64.isFinite x <;> simp [ofValue, Value.isWritten, Value.parts, hx]
  | item ref => simp [ofValue, Value.isWritten]
  | list elements =>
      rw [ofValue, exists_map_ok_iff, exists_ofValues_iff]
      simp [Value.isWritten, Value.parts]
  | record fields =>
      rw [ofValue, exists_map_ok_iff, exists_ofFields_iff, Value.forall_parts_record]
      simp [Value.isWritten]
  | _ => simp [ofValue, Value.isWritten, Value.parts]

/-- The value has a document and reads back from it. -/
def ReadsBack (v : Value) : Prop := ∃ document, ofValue v = .ok document ∧ toValue document = v

theorem readsBack_list : ReadsBack (.list vs) ↔ ∀ v ∈ vs, ReadsBack v := by
  constructor
  · rintro ⟨document, hdocument, hread⟩
    obtain ⟨documents, hdocuments, rfl⟩ := map_ok_iff.1 hdocument
    rw [toValue, Value.list.injEq, toValues_eq_map] at hread
    subst hread
    rw [ofValues_ok_iff, List.forall₂_map_left_iff, List.forall₂_same] at hdocuments
    exact List.forall_mem_map.2 fun document hmem => ⟨document, hdocuments document hmem, rfl⟩
  · intro h
    choose! document hdocument hread using h
    refine ⟨.array (vs.map document), map_ok_iff.2 ⟨_, ofValues_ok_iff.2 ?_, rfl⟩, ?_⟩
    · exact List.forall₂_map_right_iff.2 (List.forall₂_same.2 hdocument)
    · rw [toValue, toValues_eq_map, List.map_map]
      exact congrArg Value.list ((List.map_congr_left hread).trans (List.map_id' vs))

theorem readsBack_record : ReadsBack (.record fields) ↔ ∀ field ∈ fields, ReadsBack field.2 := by
  constructor
  · rintro ⟨document, hdocument, hread⟩
    obtain ⟨members, hmembers, rfl⟩ := map_ok_iff.1 hdocument
    rw [toValue, Value.record.injEq, toFields_eq_map] at hread
    subst hread
    rw [ofFields_ok_iff, List.forall₂_map_left_iff, List.forall₂_same] at hmembers
    exact List.forall_mem_map.2 fun member hmem => ⟨member.2, (hmembers member hmem).2, rfl⟩
  · intro h
    choose! document hdocument hread using h
    refine ⟨.object (fields.map fun field => (field.1, document field)),
      map_ok_iff.2 ⟨_, ofFields_ok_iff.2 ?_, rfl⟩, ?_⟩
    · exact List.forall₂_map_right_iff.2 <| List.forall₂_same.2 fun field hfield =>
        ⟨rfl, hdocument field hfield⟩
    · have hfields : (fields.map fun field => (field.1, toValue (document field))) = fields.map id :=
        List.map_congr_left fun field hfield => Prod.ext rfl (hread field hfield)
      rw [toValue, toFields_eq_map, List.map_map]
      exact congrArg Value.record (hfields.trans (List.map_id fields))

/-- Bytes and timestamps are written but do not read back. -/
theorem readsBack_iff_parts (v : Value) : ReadsBack v ↔
    (v.isWritten && !v.isDisguised) = true ∧ ∀ part ∈ v.parts, ReadsBack part := by
  cases v with
  | int n => simp [ReadsBack, ofValue, toValue, numberValue_toInt, Value.isWritten,
      Value.isDisguised, Value.parts]
  | float x =>
      cases hx : Binary64.isFinite x <;>
        simp [ReadsBack, ofValue, toValue, Value.isWritten, Value.isDisguised, Value.parts, hx]
  | list elements => simp [readsBack_list, Value.isWritten, Value.isDisguised, Value.parts]
  | record fields =>
      rw [readsBack_record, Value.forall_parts_record]
      simp [Value.isWritten, Value.isDisguised]
  | _ => simp [ReadsBack, ofValue, toValue, Value.isWritten, Value.isDisguised, Value.parts]

end Values

/-- The value of the document is written as the document again. -/
def WritesBack (document : Json) : Prop := ofValue (toValue document) = .ok document

theorem writesBack_int_iff (n : Int) : WritesBack (.int n) ↔ FitsWord n := by
  rw [WritesBack, toValue, numberValue]
  by_cases h : FitsWord n
  · obtain ⟨w, hw, rfl⟩ := exists_wordOfInt? h
    simp [hw, ofValue, h]
  · simp only [wordOfInt?_eq_none h, ofValue, h, iff_false]
    split <;> simp

/-- Only numbers can be kept from being written back. -/
theorem writesBack_iff_parts (document : Json) : WritesBack document ↔
    document.isKept = true ∧ ∀ part ∈ document.parts, WritesBack part := by
  cases document with
  | int n => simp [writesBack_int_iff, Json.isKept, Json.parts]
  | float x =>
      cases hx : Binary64.isFinite x <;>
        simp [WritesBack, toValue, ofValue, Json.isKept, Json.parts, hx]
  | array elements =>
      rw [WritesBack, toValue, ofValue, map_ok_iff]
      simp [ofValues_ok_iff, toValues_eq_map, List.forall₂_map_left_iff, List.forall₂_same,
        WritesBack, Json.isKept, Json.parts]
  | object members =>
      rw [WritesBack, toValue, ofValue, map_ok_iff, Json.forall_parts_object]
      simp [ofFields_ok_iff, toFields_eq_map, List.forall₂_map_left_iff, List.forall₂_same,
        WritesBack, Json.isKept]
  | _ => simp [WritesBack, toValue, ofValue, Json.isKept, Json.parts]

/-- Values and documents are converted into each other without loss. A value has no document
exactly if an item or a number that is not finite occurs in it, and it reads back from its
document exactly if neither these nor bytes nor timestamps do. A document is written back
exactly if its integers are words, its other numbers being finite. -/
theorem conversions_invert :
    (∀ v : Value, (∃ e, ofValue v = .error e) ↔
      (∃ ref, Value.Within (.item ref) v) ∨
        ∃ x, Value.Within (.float x) v ∧ Binary64.isFinite x = false) ∧
    (∀ v : Value, (∃ document, ofValue v = .ok document ∧ toValue document = v) ↔
      ∀ part, Value.Within part v → (part.isWritten && !part.isDisguised) = true) ∧
    ∀ document : Json, ofValue (toValue document) = .ok document ↔
      (∀ n, Json.Within (.int n) document → FitsWord n) ∧
        ∀ x, Json.Within (.float x) document → Binary64.isFinite x = true := by
  refine ⟨fun v => ?_, Value.iff_forall_within readsBack_iff_parts, fun document => ?_⟩
  · have hfails : (∃ e, ofValue v = .error e) ↔ ¬∃ document, ofValue v = .ok document := by
      cases ofValue v <;> simp
    rw [hfails, Value.iff_forall_within exists_ofValue_iff_parts]
    push Not
    simp only [Bool.not_eq_true, Value.isWritten_eq_false_iff]
    constructor
    · rintro ⟨_, hwithin, ⟨ref, rfl⟩ | ⟨x, rfl, hx⟩⟩
      · exact .inl ⟨ref, hwithin⟩
      · exact .inr ⟨x, hwithin, hx⟩
    · rintro (⟨ref, hwithin⟩ | ⟨x, hwithin, hx⟩)
      · exact ⟨_, hwithin, .inl ⟨ref, rfl⟩⟩
      · exact ⟨_, hwithin, .inr ⟨x, rfl, hx⟩⟩
  · rw [← WritesBack, Json.iff_forall_within writesBack_iff_parts]
    simp only [Json.isKept_iff]
    constructor
    · intro h
      exact ⟨fun n hn => (h _ hn).1 n rfl, fun x hx => (h _ hx).2 x rfl⟩
    · rintro ⟨hint, hfloat⟩ part hpart
      exact ⟨fun n hn => hint n (hn ▸ hpart), fun x hx => hfloat x (hx ▸ hpart)⟩

end Document

end RecordAlgebra
