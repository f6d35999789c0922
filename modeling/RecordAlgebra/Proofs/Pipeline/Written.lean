import RecordAlgebra.Pipeline.Written
import RecordAlgebra.Proofs.Document.Converting

/-!
# Written pipelines

A pipeline is proper if the fields of every object in it have distinct names and no accumulator
has the name of the member for the key, which stands beside the accumulators. Proper pipelines
read back from their documents, and whatever is read is proper.
-/

namespace RecordAlgebra.Pipeline

section Fields

variable {α : Type} {read? : Json → Option α} {write : α → Json} {fields : Fields α}
  {members : List (String × Json)}

theorem fieldsOfMembers?_membersOfFields (hnames : fields.names.Nodup)
    (h : ∀ field ∈ fields, read? (write field.2) = some field.2) :
    fieldsOfMembers? read? (membersOfFields write fields) = some fields := by
  have hread : (membersOfFields write fields).mapM (fun member =>
      (read? member.2).map fun part => (member.1, part)) = some fields := by
    rw [mapM_eq_some_iff, membersOfFields, List.forall₂_map_left_iff, List.forall₂_same]
    exact fun field hfield => Option.map_eq_some_iff.2 ⟨field.2, h field hfield, rfl⟩
  rw [fieldsOfMembers?, hread, Option.map_some, Fields.ofList_eq_self hnames]

theorem nodup_of_fieldsOfMembers? (h : fieldsOfMembers? read? members = some fields) :
    fields.names.Nodup := by
  obtain ⟨entries, -, rfl⟩ := Option.map_eq_some_iff.1 h
  exact Fields.nodup_names_ofList entries

/-- Every field was read from a member of its name. -/
theorem exists_member_of_fieldsOfMembers? (h : fieldsOfMembers? read? members = some fields)
    {field : String × α} (hfield : field ∈ fields) :
    ∃ member ∈ members, member.1 = field.1 ∧ read? member.2 = some field.2 := by
  obtain ⟨entries, hentries, rfl⟩ := Option.map_eq_some_iff.1 h
  have hentry : field ∈ entries := (Fields.mem_insertAll hfield).resolve_left (by simp)
  obtain ⟨member, hmember, hread⟩ := exists_mem_of_forall₂ (mapM_eq_some_iff.1 hentries) hentry
  obtain ⟨part, hpart, rfl⟩ := Option.map_eq_some_iff.1 hread
  exact ⟨member, hmember, rfl, hpart⟩

end Fields

namespace Operand

/-- All objects in the operand have fields of distinct names. -/
inductive IsProper : Operand → Prop
  | root : IsProper .root
  | field (name : String) : IsProper (.field name)
  | literal (document : Json) : IsProper (.literal document)
  | combine {op : Combination} {left right : Operand} :
      IsProper left → IsProper right → IsProper (.combine op left right)
  | changeCase {letters : LetterCase} {input : Operand} :
      IsProper input → IsProper (.changeCase letters input)
  | object {fields : Fields Operand} :
      fields.names.Nodup → (∀ field ∈ fields, IsProper field.2) → IsProper (.object fields)
  | merge {parts : List Operand} : (∀ part ∈ parts, IsProper part) → IsProper (.merge parts)

/-- What is read of the operands of an object, or written of them. -/
def AreProper (fields : Fields Operand) : Prop :=
  fields.names.Nodup ∧ ∀ field ∈ fields, field.2.IsProper

theorem allToJson_eq_map (operands : List Operand) : allToJson operands = operands.map toJson := by
  induction operands with
  | nil => rfl
  | cons operand rest ih => rw [allToJson, ih, List.map_cons]

theorem fieldsToJson_eq (fields : Fields Operand) :
    fieldsToJson fields = membersOfFields toJson fields := by
  induction fields with
  | nil => rfl
  | cons field rest ih =>
      obtain ⟨name, operand⟩ := field
      rw [fieldsToJson, ih, membersOfFields, membersOfFields, List.map_cons]

theorem ofElements?_eq_mapM (elements : List Json) : ofElements? elements = elements.mapM ofJson? := by
  induction elements with
  | nil => rfl
  | cons element rest ih =>
      rw [ofElements?, ih, List.mapM_cons]
      rfl

theorem ofMembers?_eq_mapM (members : List (String × Json)) :
    ofMembers? members = members.mapM fun member =>
      (ofJson? member.2).map fun operand => (member.1, operand) := by
  induction members with
  | nil => rfl
  | cons member rest ih =>
      obtain ⟨name, document⟩ := member
      rw [ofMembers?, ih, List.mapM_cons]
      cases ofJson? document <;> rfl

theorem map_ofMembers? (members : List (String × Json)) :
    (ofMembers? members).map Fields.ofList = fieldsOfMembers? ofJson? members := by
  rw [ofMembers?_eq_mapM, fieldsOfMembers?]

theorem toJson_ne_null (operand : Operand) : operand.toJson ≠ .null := by
  cases operand <;> simp [toJson, tagged]

theorem ofJson?_toJson {operand : Operand} (h : operand.IsProper) :
    ofJson? operand.toJson = some operand := by
  induction h with
  | root => simp [toJson, ofJson?]
  | field name => simp [toJson, tagged, ofJson?, OperandTag.ofCode?_code]
  | literal document => simp [toJson, tagged, ofJson?, OperandTag.ofCode?_code]
  | combine _ _ hleft hright =>
      simp [toJson, tagged, ofJson?, OperandTag.ofCode?_code, hleft, hright]
  | changeCase _ hinput => simp [toJson, tagged, ofJson?, OperandTag.ofCode?_code, hinput]
  | @object fields hnames _ ih =>
      have hread := fieldsOfMembers?_membersOfFields hnames ih
      rw [← map_ofMembers?] at hread
      obtain ⟨entries, hentries, hfields⟩ := Option.map_eq_some_iff.1 hread
      simp [toJson, tagged, ofJson?, OperandTag.ofCode?_code, fieldsToJson_eq, hentries, hfields]
  | @merge parts _ ih =>
      have hread : (parts.map toJson).mapM ofJson? = some parts :=
        mapM_eq_some_iff.2 (List.forall₂_map_left_iff.2 (List.forall₂_same.2 ih))
      simp [toJson, tagged, ofJson?, OperandTag.ofCode?_code, allToJson_eq_map,
        ofElements?_eq_mapM, hread]

/-- The operands of an object that is read are proper if those of its members are. -/
theorem areProper_of_fieldsOfMembers? {members : List (String × Json)} {fields : Fields Operand}
    (h : fieldsOfMembers? ofJson? members = some fields)
    (hmembers : ∀ member ∈ members, ∀ operand, ofJson? member.2 = some operand →
      operand.IsProper) : AreProper fields := by
  refine ⟨nodup_of_fieldsOfMembers? h, fun field hfield => ?_⟩
  obtain ⟨member, hmember, -, hread⟩ := exists_member_of_fieldsOfMembers? h hfield
  exact hmembers member hmember field.2 hread

/-- What is read is proper. The parts of an operand are parts of the payload, so the induction
carries the claim for a document together with the same for its parts. -/
theorem isProper_of_ofJson? {document : Json} {operand : Operand}
    (h : ofJson? document = some operand) : operand.IsProper := by
  suffices hboth : (∀ operand, ofJson? document = some operand → operand.IsProper) ∧
      ∀ part ∈ document.parts, ∀ operand, ofJson? part = some operand → operand.IsProper from
    hboth.1 operand h
  clear h operand
  induction document using Json.partInduction with
  | step document ih =>
      refine ⟨fun operand h => ?_, fun part hpart => (ih part hpart).1⟩
      unfold ofJson? at h
      split at h
      next code =>
        obtain ⟨-, h⟩ := Option.ite_none_right_eq_some.1 h
        cases h
        exact .root
      next code payload =>
        obtain ⟨hpayload, hparts⟩ := ih payload (by simp [Json.parts])
        split at h
        · cases h
          exact .root
        · cases h
          exact .field _
        · cases h
          exact .literal _
        next left right htag =>
          obtain ⟨a, ha, h⟩ := Option.bind_eq_some_iff.1 h
          obtain ⟨b, hb, h⟩ := Option.bind_eq_some_iff.1 h
          cases h
          exact .combine (hparts left (by simp [Json.parts]) a ha)
            (hparts right (by simp [Json.parts]) b hb)
        · obtain ⟨a, ha, rfl⟩ := Option.map_eq_some_iff.1 h
          exact .changeCase (hpayload a ha)
        next members htag =>
          obtain ⟨entries, hentries, rfl⟩ := Option.map_eq_some_iff.1 h
          have hread : fieldsOfMembers? ofJson? members = some (Fields.ofList entries) := by
            rw [← map_ofMembers?, hentries, Option.map_some]
          obtain ⟨hnames, hfields⟩ :=
            areProper_of_fieldsOfMembers? hread (Json.forall_parts_object.1 hparts)
          exact .object hnames hfields
        next elements htag =>
          obtain ⟨operands, hoperands, rfl⟩ := Option.map_eq_some_iff.1 h
          rw [ofElements?_eq_mapM, mapM_eq_some_iff] at hoperands
          refine .merge fun operand hoperand => ?_
          obtain ⟨element, helement, hread⟩ := exists_mem_of_forall₂ hoperands hoperand
          exact hparts element helement operand hread
        · cases h
      next => cases h

theorem optionOfJson?_optionToJson {operand : Option Operand}
    (h : ∀ o ∈ operand, o.IsProper) : optionOfJson? (optionToJson operand) = some operand := by
  cases operand with
  | none => rfl
  | some operand =>
      rw [optionToJson, optionOfJson?.eq_2 _ operand.toJson_ne_null, ofJson?_toJson (h operand rfl),
        Option.map_some]

theorem isProper_of_optionOfJson? {document : Json} {operand : Option Operand}
    (h : optionOfJson? document = some operand) : ∀ o ∈ operand, o.IsProper := by
  intro o ho
  unfold optionOfJson? at h
  split at h
  · cases h
    cases ho
  · obtain ⟨operand, hread, rfl⟩ := Option.map_eq_some_iff.1 h
    cases ho
    exact isProper_of_ofJson? hread

theorem fieldsOfJson?_fieldsToJson {fields : Fields Operand} (h : AreProper fields) :
    fieldsOfJson? (.object (fieldsToJson fields)) = some fields := by
  rw [fieldsOfJson?, map_ofMembers?, fieldsToJson_eq]
  exact fieldsOfMembers?_membersOfFields h.1 fun field hfield => ofJson?_toJson (h.2 field hfield)

theorem areProper_of_fieldsOfJson? {document : Json} {fields : Fields Operand}
    (h : fieldsOfJson? document = some fields) : AreProper fields := by
  unfold fieldsOfJson? at h
  split at h
  · rw [map_ofMembers?] at h
    exact areProper_of_fieldsOfMembers? h fun _ _ _ hread => isProper_of_ofJson? hread
  · cases h

end Operand

namespace Condition

theorem comparisonOfJson?_code (op : ComparisonOp) :
    comparisonOfJson? (.text (comparisonCode op)) = some op := by
  cases op <;> decide

theorem comparisonOfPayload?_compare (field : String) (op : ComparisonOp) (document : Json) :
    comparisonOfPayload? (.object
      [("field", .text field), ("op", .text (comparisonCode op)), ("value", document)]) =
        some (.compare field op document) := by
  simp [comparisonOfPayload?, Fields.get?, List.lookup_cons, comparisonOfParts?,
    comparisonOfJson?_code]

mutual

theorem ofJson?_toJson : ∀ condition : Condition, ofJson? condition.toJson = some condition
  | .all parts => by simp [toJson, tagged, ofJson?, ofElements?_allToJson parts]
  | .any parts => by simp [toJson, tagged, ofJson?, ofElements?_allToJson parts]
  | .compare field op document => by
      simp [toJson, tagged, ofJson?, comparisonOfPayload?_compare]

theorem ofElements?_allToJson : ∀ parts : List Condition,
    ofElements? (allToJson parts) = some parts
  | [] => rfl
  | condition :: rest => by
      simp [allToJson, ofElements?, ofJson?_toJson condition, ofElements?_allToJson rest]

end

end Condition

namespace Accumulator

/-- The operand of an accumulator, if it has one. -/
def operand? : Accumulator → Option Operand
  | .sum operand | .avg operand | .min operand | .max operand => some operand
  | .count operand => operand

def IsProper (accumulator : Accumulator) : Prop := ∀ operand ∈ accumulator.operand?, operand.IsProper

theorem ofJson?_toJson {accumulator : Accumulator} (h : accumulator.IsProper) :
    ofJson? accumulator.toJson = some accumulator := by
  cases accumulator with
  | count operand =>
      have hread : Operand.optionOfJson? (Operand.optionToJson operand) = some operand :=
        Operand.optionOfJson?_optionToJson h
      simp [toJson, tagged, ofJson?, hread]
  | sum operand | avg operand | min operand | max operand =>
      simp [toJson, tagged, ofJson?, Operand.ofJson?_toJson (h operand rfl)]

theorem isProper_of_ofJson? {document : Json} {accumulator : Accumulator}
    (h : ofJson? document = some accumulator) : accumulator.IsProper := by
  unfold ofJson? at h
  split at h
  case h_5 =>
    obtain ⟨operand, hread, rfl⟩ := Option.map_eq_some_iff.1 h
    exact Operand.isProper_of_optionOfJson? hread
  case h_6 => cases h
  all_goals
    obtain ⟨operand, hread, rfl⟩ := Option.map_eq_some_iff.1 h
    rintro _ ⟨⟩
    exact Operand.isProper_of_ofJson? hread

end Accumulator

namespace Grouping

/-- The accumulators have distinct names, none of which is that of the key. -/
structure IsProper (grouping : Grouping) : Prop where
  key : ∀ operand ∈ grouping.key, operand.IsProper
  names : (groupIdField :: grouping.accumulators.names).Nodup
  accumulators : ∀ field ∈ grouping.accumulators, field.2.IsProper

theorem filter_members {accumulators : Fields Accumulator}
    (h : groupIdField ∉ accumulators.names) (key : Json) :
    ((groupIdField, key) :: membersOfFields Accumulator.toJson accumulators).filter
      (fun member => member.1 != groupIdField) = membersOfFields Accumulator.toJson accumulators := by
  rw [List.filter_cons_of_neg (by simp), List.filter_eq_self]
  intro member hmember
  obtain ⟨field, hfield, rfl⟩ := List.mem_map.1 hmember
  have hne : field.1 ≠ groupIdField := fun hname => h (hname ▸ List.mem_map_of_mem hfield)
  simpa using hne

theorem ofJson?_toJson {grouping : Grouping} (h : grouping.IsProper) :
    ofJson? grouping.toJson = some grouping := by
  obtain ⟨key, accumulators⟩ := grouping
  obtain ⟨hkey, hnames, haccumulators⟩ := h
  obtain ⟨hid, hnames⟩ := List.nodup_cons.1 hnames
  have hread := fieldsOfMembers?_membersOfFields hnames fun field hfield =>
    Accumulator.ofJson?_toJson (haccumulators field hfield)
  simp [toJson, ofJson?, Fields.get?, filter_members hid, hread,
    Operand.optionOfJson?_optionToJson hkey]

/-- The key and the accumulators of a grouping are read apart from each other. -/
theorem ofJson?_object {members : List (String × Json)} {grouping : Grouping}
    (h : ofJson? (.object members) = some grouping) :
    (grouping.key = none ∨ ∃ document, Operand.optionOfJson? document = some grouping.key) ∧
      fieldsOfMembers? Accumulator.ofJson?
        (members.filter fun member => member.1 != groupIdField) = some grouping.accumulators := by
  cases hget : Fields.get? members groupIdField with
  | none =>
      simp only [ofJson?, hget, Option.bind_eq_bind, Option.bind_some] at h
      obtain ⟨accumulators, haccumulators, h⟩ := Option.bind_eq_some_iff.1 h
      cases h
      exact ⟨.inl rfl, haccumulators⟩
  | some document =>
      simp only [ofJson?, hget] at h
      obtain ⟨key, hkey, h⟩ := Option.bind_eq_some_iff.1 h
      obtain ⟨accumulators, haccumulators, h⟩ := Option.bind_eq_some_iff.1 h
      cases h
      exact ⟨.inr ⟨document, hkey⟩, haccumulators⟩

theorem isProper_of_ofJson? {document : Json} {grouping : Grouping}
    (h : ofJson? document = some grouping) : grouping.IsProper := by
  cases document with
  | object members =>
    obtain ⟨hkey, haccumulators⟩ := ofJson?_object h
    refine ⟨?_, List.nodup_cons.2 ⟨fun hid => ?_, nodup_of_fieldsOfMembers? haccumulators⟩,
      fun field hfield => ?_⟩
    · rcases hkey with hkey | ⟨key, hkey⟩
      · simp [hkey]
      · exact Operand.isProper_of_optionOfJson? hkey
    · obtain ⟨field, hfield, hname⟩ := List.mem_map.1 hid
      obtain ⟨member, hmember, hmemberName, -⟩ :=
        exists_member_of_fieldsOfMembers? haccumulators hfield
      have hne := (List.mem_filter.1 hmember).2
      rw [hmemberName, hname] at hne
      simp at hne
    · obtain ⟨member, -, -, hread⟩ := exists_member_of_fieldsOfMembers? haccumulators hfield
      exact Accumulator.isProper_of_ofJson? hread
  | _ => cases h

end Grouping

namespace Stage

/-- The operands and the accumulators in the stage are proper, and its fields distinct. -/
def IsProper : Stage → Prop
  | .project fields | .addFields fields => Operand.AreProper fields
  | .replaceWith operand => operand.IsProper
  | .sort keys => keys.names.Nodup
  | .group grouping => grouping.IsProper
  | _ => True

theorem directionOfJson?_code (direction : Direction) :
    directionOfJson? (.text (directionCode direction)) = some direction := by
  cases direction <;> decide

theorem ofJson?_toJson {stage : Stage} (h : stage.IsProper) : ofJson? stage.toJson = some stage := by
  cases stage with
  | filter condition => simp [toJson, tagged, ofJson?, Condition.ofJson?_toJson]
  | project fields => simp [toJson, tagged, ofJson?, Operand.fieldsOfJson?_fieldsToJson h]
  | addFields fields => simp [toJson, tagged, ofJson?, Operand.fieldsOfJson?_fieldsToJson h]
  | replaceWith operand => simp [toJson, tagged, ofJson?, Operand.ofJson?_toJson h]
  | sort keys =>
      have hread : fieldsOfMembers? directionOfJson?
          (membersOfFields (fun key => .text (directionCode key)) keys) = some keys :=
        fieldsOfMembers?_membersOfFields h fun field _ => directionOfJson?_code field.2
      simp [toJson, tagged, ofJson?, hread]
  | group grouping => simp [toJson, tagged, ofJson?, Grouping.ofJson?_toJson h]
  | count name => simp [toJson, tagged, ofJson?]
  | skip n => simp [toJson, tagged, ofJson?, countOfJson?]
  | limit n => simp [toJson, tagged, ofJson?, countOfJson?]

theorem isProper_of_ofJson? {document : Json} {stage : Stage} (h : ofJson? document = some stage) :
    stage.IsProper := by
  unfold ofJson? at h
  split at h
  case h_2 | h_3 =>
    obtain ⟨fields, hread, rfl⟩ := Option.map_eq_some_iff.1 h
    exact Operand.areProper_of_fieldsOfJson? hread
  case h_4 =>
    obtain ⟨operand, hread, rfl⟩ := Option.map_eq_some_iff.1 h
    exact Operand.isProper_of_ofJson? hread
  case h_5 =>
    obtain ⟨keys, hread, rfl⟩ := Option.map_eq_some_iff.1 h
    exact nodup_of_fieldsOfMembers? hread
  case h_6 =>
    obtain ⟨grouping, hread, rfl⟩ := Option.map_eq_some_iff.1 h
    exact Grouping.isProper_of_ofJson? hread
  case h_7 =>
    cases h
    trivial
  case h_10 => cases h
  all_goals
    obtain ⟨_, -, rfl⟩ := Option.map_eq_some_iff.1 h
    trivial

end Stage

/-- All stages of the pipeline are proper. -/
def IsProper (pipeline : Pipeline) : Prop := ∀ stage ∈ pipeline, stage.IsProper

variable {pipeline : Pipeline}

theorem ofJson?_toJson (h : IsProper pipeline) : ofJson? (toJson pipeline) = some pipeline := by
  rw [toJson, ofJson?, mapM_eq_some_iff, List.forall₂_map_left_iff, List.forall₂_same]
  exact fun stage hstage => Stage.ofJson?_toJson (h stage hstage)

theorem isProper_of_ofJson? {document : Json} (h : ofJson? document = some pipeline) :
    IsProper pipeline := by
  intro stage hstage
  unfold ofJson? at h
  split at h
  · obtain ⟨element, -, hread⟩ := exists_mem_of_forall₂ (mapM_eq_some_iff.1 h) hstage
    exact Stage.isProper_of_ofJson? hread
  · cases h

end RecordAlgebra.Pipeline
