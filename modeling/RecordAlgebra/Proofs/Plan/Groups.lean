import RecordAlgebra.Proofs.Plan.Steps

/-!
# Grouping as a stage

The stages for a group put documents into groups by a key of single values, accumulate the
members of each group and present the results. The groups are those of the elements that the
documents determine, in the same order and with the same members, and what is presented for a
group determines its record. Only a count of the members of groups of single values is not the
same in documents, where it passes over nulls.
-/

namespace RecordAlgebra

open Datum.Elements (ofData)
open Pipeline (Operand Accumulator Grouping)

namespace Expr

/-- The aggregates that make up the total of a group. -/
def totals : Expr → List Expr
  | .record fields _ => fields.map Prod.snd
  | total => [total]

/-- Whether this is the number of the members of a group. -/
def countsMembers : Expr → Bool
  | .aggregate .count source none _ => source.isElement
  | _ => false

/-- No length is taken of a projection. That would be the same, so there is no builder for it. -/
def ProjectsNoLength (e : Expr) : Prop :=
  ∀ path source projection type, e.node? path = some (.aggregate .len source projection type) →
    projection = none

theorem ProjectsNoLength.part {e : Expr} (h : e.ProjectsNoLength) {part : Expr × ChildScope}
    (hpart : part ∈ e.children) : part.1.ProjectsNoLength := by
  obtain ⟨position, hposition⟩ := List.getElem?_of_mem hpart
  refine fun path source projection type hpath => h (position :: path) source projection type ?_
  rw [node?, hposition]
  exact hpath

theorem ProjectsNoLength.of_parts {e : Expr}
    (here : ∀ source projection type, e = .aggregate .len source projection type →
      projection = none) (parts : ∀ part ∈ e.children, part.1.ProjectsNoLength) :
    e.ProjectsNoLength := by
  intro path source projection type hpath
  cases path with
  | nil => exact here source projection type (Option.some.inj hpath)
  | cons position path =>
      rw [node?] at hpath
      cases hposition : e.children[position]? with
      | none =>
          rw [hposition] at hpath
          cases hpath
      | some part =>
          rw [hposition] at hpath
          exact parts part (List.mem_of_getElem? hposition) path source projection type hpath

section Groups

variable (lit : Value → Datum) (scope : List Meaning)

/-- The record for a group, whose members come in reverse. -/
def denoteGroup (total : Expr) (group : Datum × List Datum) : Except ErrorKind Datum := do
  let result ← total.denoteValue lit (.value (.list group.2.reverse) :: scope)
  .ok (.record [(groupKeyField, group.1), (groupValueField, result)])

variable {lit scope} {source key total : Expr} {type : DataType}

/-- Elements with keys are grouped by them. -/
theorem denote_groupBy {rows : List (Datum × Datum)}
    (h : source.denote lit scope = .ok (.sequence (ofData (rows.map Prod.snd))))
    (hkeys : ∀ row ∈ rows, key.denoteValue lit (.value row.2 :: scope) = .ok row.1) :
    (groupBy source key total type).denote lit scope = .ok (.sequence (Datum.Elements.settle
      ((rows.foldl (fun groups row => Datum.addToGroups row.1 row.2 groups) []).mapM
        (total.denoteGroup lit scope)))) := by
  have hfold (groups : Datum.Groups) : Datum.Elements.fold (fun groups d => do
      let found ← (← key.denote lit (.value d :: scope)).intoValue
      .ok (Datum.addToGroups found d groups)) groups (ofData (rows.map Prod.snd)) =
        .ok (rows.foldl (fun groups row => Datum.addToGroups row.1 row.2 groups) groups) := by
    clear h
    induction rows generalizing groups with
    | nil => rfl
    | cons row rest ih =>
        obtain ⟨hfirst, hrest⟩ := List.forall_mem_cons.1 hkeys
        rw [denoteValue] at hfirst
        rw [List.map_cons, ofData, List.map_cons, Datum.Elements.fold, ← bind_assoc, hfirst]
        exact ih hrest _
  rw [denote, h]
  show Except.ok (Result.sequence (Datum.Elements.settle _)) = _
  rw [hfold]
  have hgroup (group : Datum × List Datum) : total.denoteGroup lit scope group = (do
      let result ← (← total.denote lit (.value (.list group.2.reverse) :: scope)).intoValue
      .ok (.record [(groupKeyField, group.1), (groupValueField, result)])) := by
    rw [denoteGroup, denoteValue, bind_assoc]
  rw [show total.denoteGroup lit scope = _ from funext hgroup]
  rfl

end Groups

end Expr

namespace Value.Key

variable {key other : Key} {s : FieldType} {t : DataType} {d e : Datum}

/-- The key was made of a value that tells the datum. -/
structure Tells (key : Key) (t : DataType) (d : Datum) : Prop where
  value : key.value.Tells t d
  digest : key.digest = d.digest

theorem exists_toKey {v : Value} (h : v.Tells (.scalar s) d) :
    ∃ key, v.toKey ItemAccess.detached = .ok key ∧ key.Tells (.scalar s) d := by
  have hdigest : v.digest ItemAccess.detached.digest = .ok d.digest := by
    have hplain := h.isPlain
    rw [← h.bare]
    cases d <;> cases hplain <;> rfl
  exact ⟨{ value := v, digest := d.digest }, by rw [toKey, hdigest]; rfl, h, rfl⟩

theorem equals_eq_sameKey (h : key.Tells (.scalar s) d) (h' : other.Tells (.scalar s) e) :
    key.equals other = d.sameKey e := by
  have hequal := Datum.equal_detached h.value.isPlain h'.value.isPlain
  rw [h.value.bare, h'.value.bare] at hequal
  rw [equals, Key.equal, hequal, h.digest, h'.digest, Datum.sameKey]
  cases d.digest.same e.digest <;> rfl

end Value.Key

theorem Pipeline.Grouping.partition_eq_foldl {α : Type} (keyed : List (Value.Key × α)) :
    partition keyed = keyed.foldl (fun groups entry => place entry.1 entry.2 groups) [] := by
  induction keyed using List.reverseRecOn with
  | nil => rw [partition, List.foldl_nil]
  | append_singleton keyed entry ih => rw [partition_concat, ih, List.foldl_concat]

namespace Shape

variable {shape : Shape} {ref : SourceRef} {s : FieldType} {t : DataType} {operand : Operand}
  {document : Json} {d : Datum} {lit : Value → Datum} {scope : List Meaning} {key total : Expr}

/-- Groups have a field as their key or, if the documents stand for single values, the elements
themselves. -/
theorem groupKey?_cases (h : shape.groupKey? key = some (operand, t)) :
    (∃ name, key.elementField? = some name ∧ operand = .field name ∧
      shape.plainField? name = some t) ∨
    (∃ type, shape = .scalar type) ∧ shape = .scalar t ∧ key.isElement = true ∧
      t.isPlain = true ∧ operand = .root := by
  unfold groupKey? at h
  cases hname : key.elementField? with
  | some name =>
      rw [hname] at h
      obtain ⟨_, ht, h⟩ := Option.map_eq_some_iff.1 h
      cases h
      exact .inl ⟨name, rfl, rfl, ht⟩
  | none =>
      rw [hname] at h
      cases shape with
      | scalar type =>
          dsimp only at h
          obtain ⟨hkey, h⟩ := Option.ite_none_right_eq_some.1 h
          cases h
          obtain ⟨helement, hplain⟩ := Bool.and_eq_true_iff.1 hkey
          exact .inr ⟨⟨_, rfl⟩, rfl, helement, hplain, rfl⟩
      | _ => cases h

theorem exists_scalar_of_isPlain (h : t.isPlain = true) :
    ∃ s : FieldType, t = .scalar s ∧ s.isPlain = true := by
  cases t with
  | scalar s => exact ⟨s, rfl, h⟩
  | _ => cases h

theorem exists_scalar_of_groupKey? (h : shape.groupKey? key = some (operand, t)) :
    ∃ s : FieldType, t = .scalar s := by
  have hplain : t.isPlain = true := by
    rcases groupKey?_cases h with ⟨_, -, -, ht⟩ | ⟨-, -, -, hplain, -⟩
    · exact (Option.filter_eq_some_iff.1 ht).2
    · exact hplain
  exact (exists_scalar_of_isPlain hplain).imp fun _ h => h.1

/-- The operand for a key gives what the key is for the element. -/
theorem Stands.groupKey (h : shape.Stands ref document d)
    (hkey : shape.groupKey? key = some (operand, t)) :
    ∃ s found v, t = .scalar s ∧ key.denoteValue lit (.value d :: scope) = .ok found ∧
      operand.eval document = .ok v ∧ v.Tells (.scalar s) found := by
  rcases groupKey?_cases hkey with ⟨name, hname, rfl, ht⟩ | ⟨-, rfl, helement, hplain, rfl⟩
  · obtain ⟨s, part, rfl, -, hpart, htells⟩ := h.plainField ht
    refine ⟨s, part, _, rfl, Expr.denoteValue_value ?_, rfl, htells⟩
    rw [Expr.denote_elementField hname, hpart]
    rfl
  · obtain ⟨s, rfl, hs⟩ := exists_scalar_of_isPlain hplain
    obtain ⟨context, rfl⟩ := eq_context_of_isElement helement
    exact ⟨s, d, _, rfl, denoteValue_element, rfl, tells_of_said h.1 h.2 hs⟩

section Partition

/-- A group of documents and the group of elements that they determine, whose members come in
reverse. -/
def GroupDetermines (shape : Shape) (ref : SourceRef) (t : DataType)
    (group : Value.Key × List Json) (found : Datum × List Datum) : Prop :=
  group.1.Tells t found.1 ∧ List.Forall₂ (shape.Determines ref) group.2 found.2.reverse

theorem place_determines {key : Value.Key} {found : Datum} (hkey : key.Tells (.scalar s) found)
    (h : shape.Determines ref document d) {groups : List (Value.Key × List Json)}
    {founds : Datum.Groups}
    (hgroups : List.Forall₂ (shape.GroupDetermines ref (.scalar s)) groups founds) :
    List.Forall₂ (shape.GroupDetermines ref (.scalar s)) (Grouping.place key document groups)
      (Datum.addToGroups found d founds) := by
  induction hgroups with
  | nil => exact .cons ⟨hkey, .cons h .nil⟩ .nil
  | @cons group other groups founds hfirst hrest ih =>
      obtain ⟨otherKey, members⟩ := group
      obtain ⟨otherFound, data⟩ := other
      rw [Grouping.place, Datum.addToGroups, Value.Key.equals_eq_sameKey hkey hfirst.1]
      split
      · refine .cons ⟨hfirst.1, ?_⟩ hrest
        rw [List.reverse_cons]
        exact List.rel_append hfirst.2 (.cons h .nil)
      · exact .cons hfirst ih

/-- Documents with their keys are put into the groups into which the elements are put. -/
theorem partition_determines {keyed : List (Value.Key × Json)} {rows : List (Datum × Datum)}
    (h : List.Forall₂ (fun entry row => entry.1.Tells (.scalar s) row.1 ∧
      shape.Determines ref entry.2 row.2) keyed rows) :
    List.Forall₂ (shape.GroupDetermines ref (.scalar s)) (Grouping.partition keyed)
      (rows.foldl (fun groups row => Datum.addToGroups row.1 row.2 groups) []) := by
  have hplaced (groups : List (Value.Key × List Json)) (founds : Datum.Groups)
      (hgroups : List.Forall₂ (shape.GroupDetermines ref (.scalar s)) groups founds) :
      List.Forall₂ (shape.GroupDetermines ref (.scalar s))
        (keyed.foldl (fun groups entry => Grouping.place entry.1 entry.2 groups) groups)
        (rows.foldl (fun groups row => Datum.addToGroups row.1 row.2 groups) founds) := by
    induction h generalizing groups founds with
    | nil => exact hgroups
    | cons hfirst _ ih => exact ih _ _ (place_determines hfirst.1 hfirst.2 hgroups)
  rw [Grouping.partition_eq_foldl]
  exact hplaced [] [] .nil

end Partition

section Names

theorem accumulatorName_inj {i j : Nat} (h : accumulatorName i = accumulatorName j) : i = j := by
  rw [accumulatorName, accumulatorName, String.append_right_inj] at h
  have hdigits : Nat.toDigits 10 i = Nat.toDigits 10 j := by
    simpa [Nat.toString_eq_ofList_toDigits] using congrArg String.toList h
  rw [← Nat.ofDigitChars_ten_toDigits (n := i), hdigits, Nat.ofDigitChars_ten_toDigits]

theorem accumulatorName_ne_groupIdField (i : Nat) :
    accumulatorName i ≠ Pipeline.groupIdField := by
  intro h
  have hfirst := congrArg (fun name => name.toList.head?) h
  simp [accumulatorName, Pipeline.groupIdField] at hfirst

variable {fields : List (String × Expr)} {accumulators : Fields Accumulator}
  {operands : Fields Operand} {types : Fields DataType} {position : Nat}

theorem memberAccumulators?_cons {name : String} {e : Expr} {rest : List (String × Expr)}
    (h : shape.memberAccumulators? position ((name, e) :: rest) =
      some (accumulators, operands, types)) :
    ∃ accumulator type others otherOperands otherTypes,
      shape.memberAccumulator? e = some (accumulator, type) ∧
      shape.memberAccumulators? (position + 1) rest =
        some (others, otherOperands, otherTypes) ∧
      accumulators = (accumulatorName position, accumulator) :: others ∧
      operands = (name, .field (accumulatorName position)) :: otherOperands ∧
      types = (name, type) :: otherTypes := by
  rw [memberAccumulators?] at h
  obtain ⟨⟨accumulator, type⟩, hfirst, h⟩ := Option.bind_eq_some_iff.1 h
  obtain ⟨⟨others, otherOperands, otherTypes⟩, hrest, h⟩ := Option.bind_eq_some_iff.1 h
  cases h
  exact ⟨accumulator, type, others, otherOperands, otherTypes, hfirst, hrest, rfl, rfl, rfl⟩

theorem names_memberAccumulators?
    (h : shape.memberAccumulators? position fields = some (accumulators, operands, types)) :
    accumulators.names = (List.range' position fields.length).map accumulatorName ∧
      types.names = fields.map Prod.fst := by
  induction fields generalizing position accumulators operands types with
  | nil =>
      cases h
      exact ⟨rfl, rfl⟩
  | cons field rest ih =>
      obtain ⟨accumulator, type, others, otherOperands, otherTypes, -, hrest, rfl, rfl, rfl⟩ :=
        memberAccumulators?_cons h
      obtain ⟨hothers, htypes⟩ := ih hrest
      refine ⟨?_, congrArg (field.1 :: ·) htypes⟩
      rw [List.length_cons, List.range'_succ, List.map_cons, ← hothers]
      rfl

/-- The results of a group are those for the fields of a record, or there is only one. -/
theorem groupResult?_cases {result : GroupResult} (h : shape.groupResult? total = some result) :
    (∃ fields type accumulators operands types, total = .record fields type ∧
      shape.memberAccumulators? 0 fields = some (accumulators, operands, types) ∧
      result = { accumulators, operand := .object operands, type := .record types false }) ∨
    ∃ accumulator type, total.totals = [total] ∧
      shape.memberAccumulator? total = some (accumulator, type) ∧
      result = { accumulators := [(accumulatorName 0, accumulator)]
                 operand := .field (accumulatorName 0), type } := by
  cases total with
  | record fields type =>
      obtain ⟨⟨accumulators, operands, types⟩, hmembers, h⟩ := Option.bind_eq_some_iff.1 h
      cases h
      exact .inl ⟨fields, type, accumulators, operands, types, rfl, hmembers, rfl⟩
  | _ =>
      simp only [groupResult?] at h
      obtain ⟨⟨accumulator, type⟩, hmember, h⟩ := Option.bind_eq_some_iff.1 h
      cases h
      exact .inr ⟨accumulator, type, rfl, hmember, rfl⟩

/-- Results have names of their own. -/
theorem names_groupResult? {result : GroupResult} (h : shape.groupResult? total = some result) :
    (Pipeline.groupIdField :: result.accumulators.names).Nodup := by
  have hnames : ∃ n, result.accumulators.names = (List.range' 0 n).map accumulatorName := by
    rcases groupResult?_cases h with ⟨fields, type, accumulators, operands, types, rfl, hmembers,
      rfl⟩ | ⟨accumulator, type, -, -, rfl⟩
    · exact ⟨_, (names_memberAccumulators? hmembers).1⟩
    · exact ⟨1, rfl⟩
  obtain ⟨n, hnames⟩ := hnames
  rw [hnames]
  refine List.nodup_cons.2 ⟨fun hmem => ?_, ?_⟩
  · obtain ⟨i, -, hi⟩ := List.mem_map.1 hmem
    exact accumulatorName_ne_groupIdField i hi
  · exact List.Nodup.map (fun i j => accumulatorName_inj) List.nodup_range'

end Names

section Results

variable {members : List Json} {ds : List Datum} {output : Json}

/-- The document of a group holds the results of these accumulators over its members. -/
def Holds (members : List Json) (output : Json) (field : String × Accumulator) : Prop :=
  ∃ result, Grouping.member? members field = some (field.1, result) ∧
    Document.fieldValue output field.1 = Document.toValue result

/-- A summary holds the key of its group and the results of all accumulators. -/
theorem summary?_holds {grouping : Grouping} {group : Value.Key × List Json}
    (h : grouping.summary? group = some output)
    (hnames : (Pipeline.groupIdField :: grouping.accumulators.names).Nodup) :
    (∃ found, Document.ofValue group.1.value = .ok found ∧
      Document.fieldValue output Pipeline.groupIdField = Document.toValue found) ∧
    ∀ field ∈ grouping.accumulators, Holds group.2 output field := by
  obtain ⟨found, hfound, h⟩ := Option.bind_eq_some_iff.1 h
  obtain ⟨results, hresults, h⟩ := Option.bind_eq_some_iff.1 h
  cases h
  rw [toOption_eq_some_iff] at hfound
  have hmembers := mapM_eq_some_iff.1 hresults
  have hsame : results.map Prod.fst = grouping.accumulators.names :=
    (map_eq_map_of_forall₂ (hmembers.imp fun field member hmember =>
      ((Grouping.member?_eq_some_iff.1 hmember).1).symm)).symm
  have hdistinct : Fields.names ((Pipeline.groupIdField, found) :: results) |>.Nodup := by
    rw [Fields.names, List.map_cons, hsame]
    exact hnames
  have hread {name : String} {document : Json}
      (hmem : (name, document) ∈ (Pipeline.groupIdField, found) :: results) :
      Document.fieldValue (.object (Fields.ofList ((Pipeline.groupIdField, found) :: results)))
        name = Document.toValue document := by
    rw [Document.fieldValue, Json.member?, Fields.get?_ofList hdistinct,
      Fields.get?_eq_some_of_mem hdistinct hmem]
  refine ⟨⟨found, hfound, hread List.mem_cons_self⟩, fun field hfield => ?_⟩
  obtain ⟨⟨name, result⟩, hmem, hresult⟩ := exists_mem_of_forall₂ hmembers.flip hfield
  obtain rfl : name = field.1 := (Grouping.member?_eq_some_iff.1 hresult).1
  exact ⟨result, hresult, hread (List.mem_cons_of_mem _ hmem)⟩

/-- What is held for an aggregate of the members tells what it means. -/
theorem Holds.computes {e : Expr} {accumulator : Accumulator} {name : String}
    (h : Holds members output (name, accumulator))
    (hmember : shape.memberAccumulator? e = some (accumulator, t))
    (hlengths : e.ProjectsNoLength)
    (hscalar : (∃ type, shape = .scalar type) → e.countsMembers = false)
    (hregular : e.Regular lit) (hstands : List.Forall₂ (shape.Stands ref) members ds) :
    Computes lit scope output (.list ds) e (.field name) t := by
  obtain ⟨result, hresult, hread⟩ := h
  cases e with
  | aggregate op source projection type =>
      obtain ⟨hsource, hmember⟩ := Option.ite_none_right_eq_some.1 hmember
      obtain ⟨values, hvalues, hresult⟩ := Option.bind_eq_some_iff.1 hresult
      obtain ⟨v, hv, hresult⟩ := Option.bind_eq_some_iff.1 hresult
      obtain ⟨found, hfound, hresult⟩ := Option.bind_eq_some_iff.1 hresult
      cases hresult
      have hcount : op = .count → projection = none → accumulator = .count none := by
        rintro rfl rfl
        cases shape with
        | scalar type =>
            have hnot := hscalar ⟨type, rfl⟩
            rw [Expr.countsMembers, hsource] at hnot
            cases hnot
        | _ =>
            cases hmember
            rfl
      have hagrees := accumulator_agrees (.value (.list ds) :: scope) hmember hcount
        (fun hop => hlengths [] source projection type (by rw [hop]; rfl))
        (fun e he => hregular.part (show (e, ChildScope.nested) ∈ _ from ?_)) hstands
      · rw [hvalues, Option.bind_some, hv] at hagrees
        obtain ⟨d, hd, htells⟩ := hagrees
        obtain ⟨context, rfl⟩ := eq_context_of_isElement hsource
        rw [Computes, Expr.denoteValue_aggregate, hd, Operand.eval, hread]
        exact htells.stored (toOption_eq_some_iff.1 hfound)
      · cases he
        simp [Expr.children]
  | _ => cases hmember

theorem computes_members {fields : List (String × Expr)} {accumulators : Fields Accumulator}
    {operands : Fields Operand} {types : Fields DataType} {position : Nat}
    (h : shape.memberAccumulators? position fields = some (accumulators, operands, types))
    (hholds : ∀ field ∈ accumulators, Holds members output field)
    (hparts : ∀ field ∈ fields, field.2.ProjectsNoLength ∧ field.2.Regular lit ∧
      ((∃ type, shape = .scalar type) → field.2.countsMembers = false))
    (hstands : List.Forall₂ (shape.Stands ref) members ds) :
    Agrees (fun values es => TellsEach values es types) (Operand.evalFields output operands)
      (Expr.denoteFields lit (.value (.list ds) :: scope) fields) := by
  induction fields generalizing position accumulators operands types with
  | nil =>
      cases h
      rw [Operand.evalFields, Expr.denoteFields]
      exact ⟨rfl, .nil, rfl⟩
  | cons field rest ih =>
      obtain ⟨name, e⟩ := field
      obtain ⟨accumulator, type, others, otherOperands, otherTypes, hfirst, hrest, rfl, rfl, rfl⟩ :=
        memberAccumulators?_cons h
      obtain ⟨hheld, hholds⟩ := List.forall_mem_cons.1 hholds
      obtain ⟨⟨hlengths, hregular, hscalar⟩, hparts⟩ := List.forall_mem_cons.1 hparts
      have he : Computes lit scope output (.list ds) e _ type :=
        hheld.computes hfirst hlengths hscalar hregular hstands
      rw [Operand.evalFields, Expr.denoteFields_cons]
      refine he.bind fun v a hv => (ih hrest hholds hparts).bind fun values es heach => ?_
      refine ⟨?_, .cons ⟨rfl, hv.fits⟩ heach.fits, ?_⟩
      · rw [Datum.bareFields, hv.bare, heach.bare]
      · rw [DataType.isDocumentType.areDocumentTypes, hv.told, heach.told]
        rfl

/-- The operand for a total computes what it means for the members. -/
theorem computes_total {result : GroupResult} (h : shape.groupResult? total = some result)
    (hholds : ∀ field ∈ result.accumulators, Holds members output field)
    (hlengths : total.ProjectsNoLength) (hregular : total.Regular lit)
    (hscalar : (∃ type, shape = .scalar type) → ∀ part ∈ total.totals,
      part.countsMembers = false)
    (hstands : List.Forall₂ (shape.Stands ref) members ds) :
    Computes lit scope output (.list ds) total result.operand result.type := by
  rcases groupResult?_cases h with ⟨fields, type, accumulators, operands, types, rfl, hmembers,
    rfl⟩ | ⟨accumulator, type, htotals, hmember, rfl⟩
  · have hpart {field : String × Expr} (hfield : field ∈ fields) :
        (field.2, ChildScope.same) ∈ (Expr.record fields type).children :=
      List.mem_map.2 ⟨field, hfield, rfl⟩
    refine computes_record (computes_members hmembers hholds (fun field hfield =>
      ⟨hlengths.part (hpart hfield), hregular.part (hpart hfield), fun hshape =>
        hscalar hshape _ (List.mem_map_of_mem hfield)⟩) hstands) ?_
    rw [(names_memberAccumulators? hmembers).2]
    exact hregular.proper.records [] fields type rfl
  · exact (hholds _ List.mem_cons_self).computes hmember hlengths
      (fun hshape => hscalar hshape total (by rw [htotals]; exact List.mem_cons_self)) hregular
      hstands

end Results

section Presentation

variable (scope) {grouping : Grouping} {group : Value.Key × List Json} {found : Datum × List Datum}
  {result : GroupResult} {summary output : Json}

/-- The shape of what is presented for groups. -/
def ofGroups (keyType valueType : DataType) : Shape :=
  .object (.closed [(Expr.groupKeyField, keyType), (Expr.groupValueField, valueType)])

variable (h : shape.groupResult? total = some result)
  (haccumulators : grouping.accumulators = result.accumulators) (hlengths : total.ProjectsNoLength)
  (hregular : total.Regular lit)
  (hscalar : (∃ type, shape = .scalar type) → ∀ part ∈ total.totals,
    part.countsMembers = false)

include h haccumulators hlengths hregular hscalar

/-- What is presented for a group determines the record of the group. -/
theorem presented_determines
    (hgroup : shape.GroupDetermines ref (.scalar s) group found)
    (hsummary : grouping.summary? group = some summary)
    (houtput : (Operand.object [(Expr.groupKeyField, .field Pipeline.groupIdField),
      (Expr.groupValueField, result.operand)]).document summary = .ok output) :
    ∃ r, total.denoteGroup lit scope found = .ok r ∧
      (ofGroups (.scalar s) result.type).Determines ref output r := by
  obtain ⟨⟨key, hkey, hread⟩, hholds⟩ := summary?_holds hsummary
    (haccumulators ▸ names_groupResult? h)
  have hcomputes : Computes lit scope summary (.list found.2.reverse) total result.operand
      result.type := computes_total h (haccumulators ▸ hholds) hlengths hregular hscalar
    (hgroup.2.imp fun _ _ hmember => hmember.stands)
  obtain ⟨_, heval, houtput⟩ := bind_ok_iff.1 houtput
  obtain ⟨fields, hfields, rfl⟩ := map_ok_iff.1 heval
  rw [Operand.evalFields, Operand.evalFields, Operand.evalFields, Operand.eval, hread] at hfields
  obtain ⟨_, ⟨⟩, hfields⟩ := bind_ok_iff.1 hfields
  obtain ⟨_, hothers, hfields⟩ := bind_ok_iff.1 hfields
  obtain ⟨v, hv, hothers⟩ := bind_ok_iff.1 hothers
  cases hothers
  cases hfields
  rw [Computes, hv] at hcomputes
  obtain ⟨d, hd, hvalue⟩ := hcomputes.ok_left
  have hkeyed := hgroup.1.value.stored hkey
  have hfits : Datum.FieldsFit [(Expr.groupKeyField, found.1), (Expr.groupValueField, d)]
      [(Expr.groupKeyField, .scalar s), (Expr.groupValueField, result.type)] :=
    Datum.fieldsFit_of_forall₂
      (show [Expr.groupKeyField, Expr.groupValueField].Nodup by decide)
      (.cons ⟨rfl, hkeyed.fits⟩ (.cons ⟨rfl, hvalue.fits⟩ .nil))
  have htells := Value.tells_record hfits
    (DataType.areDocumentTypes_iff.2 (by simp [hkeyed.told, hvalue.told]))
  refine ⟨_, by rw [Expr.denoteGroup, hd]; rfl, ?_⟩
  refine Value.Tells.stored htells ?_
  rw [← houtput, Datum.bareFields, Datum.bareFields, Datum.bareFields, hkeyed.bare, hvalue.bare]
  rfl

theorem presented_determine {groups : List (Value.Key × List Json)} {founds : Datum.Groups}
    {summaries outputs : List Json}
    (hgroups : List.Forall₂ (shape.GroupDetermines ref (.scalar s)) groups founds)
    (hsummaries : groups.mapM grouping.summary? = some summaries)
    (houtputs : summaries.mapM (Operand.object
      [(Expr.groupKeyField, .field Pipeline.groupIdField),
        (Expr.groupValueField, result.operand)]).document = .ok outputs) :
    ∃ records, founds.mapM (total.denoteGroup lit scope) = .ok records ∧
      List.Forall₂ ((ofGroups (.scalar s) result.type).Determines ref) outputs records := by
  rw [mapM_eq_some_iff] at hsummaries
  rw [mapM_ok_iff] at houtputs
  induction hgroups generalizing summaries outputs with
  | nil =>
      cases hsummaries
      cases houtputs
      exact ⟨[], rfl, .nil⟩
  | cons hfirst _ ih =>
      cases hsummaries with
      | cons hsummary hsummaries =>
          cases houtputs with
          | cons houtput houtputs =>
              obtain ⟨r, hr, hdetermines⟩ := presented_determines scope h haccumulators
                hlengths hregular hscalar hfirst hsummary houtput
              obtain ⟨records, hrecords, hrest⟩ := ih hsummaries houtputs
              refine ⟨r :: records, ?_, .cons hdetermines hrest⟩
              rw [List.mapM_cons, hr, hrecords]
              rfl

end Presentation

end Shape

namespace Segment

variable {segment next : Segment} {ref : SourceRef} {lit : Value → Datum} {scope : List Meaning}
  {source key total : Expr}

theorem group?_eq_some (h : segment.group? key total = some next) :
    ∃ operand t result, segment.shape.groupKey? key = some (operand, t) ∧
      segment.shape.groupResult? total = some result ∧
      next.pipeline = segment.pipeline ++
        [.group { key := some operand, accumulators := result.accumulators },
          .project [(Expr.groupKeyField, .field Pipeline.groupIdField),
            (Expr.groupValueField, result.operand)]] ∧
      next.shape = .ofGroups t result.type := by
  obtain ⟨⟨operand, t⟩, hkey, h⟩ := Option.bind_eq_some_iff.1 h
  obtain ⟨result, hresult, h⟩ := Option.bind_eq_some_iff.1 h
  cases h
  exact ⟨operand, t, result, hkey, hresult, List.append_assoc _ _ _, rfl⟩

variable (lit scope) in
/-- Documents have the keys of the elements that they determine. -/
theorem exists_keyed {operand : Operand} {t : DataType} {accumulators : Fields Accumulator}
    (hkey : segment.shape.groupKey? key = some (operand, t)) {documents : List Json}
    {ds : List Datum} (h : List.Forall₂ (segment.shape.Determines ref) documents ds)
    {keys : List Value.Key}
    (hkeys : documents.mapM (Grouping.keyOf { key := some operand, accumulators }) = .ok keys) :
    ∃ rows : List (Datum × Datum), rows.map Prod.snd = ds ∧
      (∀ row ∈ rows, key.denoteValue lit (.value row.2 :: scope) = .ok row.1) ∧
      List.Forall₂ (fun entry row => entry.1.Tells t row.1 ∧
        segment.shape.Determines ref entry.2 row.2) (keys.zip documents) rows := by
  induction h generalizing keys with
  | nil =>
      cases hkeys
      exact ⟨[], rfl, nofun, .nil⟩
  | @cons document d documents ds hfirst _ ih =>
      rw [List.mapM_cons] at hkeys
      obtain ⟨first, hfound, hkeys⟩ := bind_ok_iff.1 hkeys
      obtain ⟨others, hothers, hkeys⟩ := bind_ok_iff.1 hkeys
      cases hkeys
      obtain ⟨s, found, v, rfl, hmeans, hv, htells⟩ := hfirst.stands.groupKey hkey
      obtain ⟨entry, hentry, htold⟩ := Value.Key.exists_toKey htells
      obtain rfl : entry = first := by
        rw [Grouping.keyOf] at hfound
        simp only [hv] at hfound
        exact Except.ok.inj (hentry.symm.trans hfound)
      obtain ⟨rows, rfl, hrows, hentries⟩ := ih hothers
      exact ⟨(found, d) :: rows, rfl, List.forall_mem_cons.2 ⟨hmeans, hrows⟩,
        .cons ⟨htold, hfirst⟩ hentries⟩

/-- Grouped documents determine the records of the groups. -/
theorem group_leads (h : segment.group? key total = some next) (hlengths : total.ProjectsNoLength)
    (hscalar : (∃ type, segment.shape = .scalar type) → ∀ part ∈ total.totals,
      part.countsMembers = false)
    (hregular : total.Regular lit) (type : DataType) :
    segment.Leads next ref lit scope source (.groupBy source key total type) := by
  obtain ⟨operand, t, result, hkey, hresult, hpipeline, hshape⟩ := group?_eq_some h
  refine ⟨_, hpipeline, fun documents outputs ⟨ds, hds, hdetermine⟩ hrun => ?_⟩
  obtain ⟨summaries, hsummaries, houtputs⟩ := run_append.1
    (show Pipeline.run ([.group _] ++ [.project _]) documents = .ok outputs from hrun)
  rw [Plan.run_single] at hsummaries houtputs
  obtain ⟨keys, hkeys, hsummaries⟩ := Grouping.run_ok_iff.1 hsummaries
  obtain ⟨s, rfl⟩ := Shape.exists_scalar_of_groupKey? hkey
  obtain ⟨rows, rfl, hrows, hentries⟩ := exists_keyed lit scope hkey hdetermine hkeys
  obtain ⟨records, hrecords, hdetermine'⟩ := Shape.presented_determine scope hresult rfl
    hlengths hregular hscalar (Shape.partition_determines hentries) hsummaries houtputs
  refine ⟨records, (Expr.denote_groupBy hds hrows).trans ?_, hshape ▸ hdetermine'⟩
  rw [hrecords]
  rfl

end Segment

end RecordAlgebra
