import RecordAlgebra.Plan.Basic
import RecordAlgebra.Proofs.Eval.Running
import RecordAlgebra.Proofs.Plan.Operands
import RecordAlgebra.Proofs.Typing.Built

/-!
# Projections of documents

A projection replaces documents, projects or extends them, or leaves them as they are. The
documents after it give back what the projection gives for the elements that the documents
before it stand for. Besides a failure of the projection itself only a number that no document
holds can keep it from that.
-/

namespace RecordAlgebra

open Pipeline (Operand)

namespace Value

mutual

/-- Whether every double inside is a number. -/
def isFinite : Value → Bool
  | .float x => Binary64.isFinite x
  | .list elements => areFinite elements
  | .record fields => fieldsFinite fields
  | _ => true

def areFinite : List Value → Bool
  | [] => true
  | v :: rest => isFinite v && areFinite rest

def fieldsFinite : List (String × Value) → Bool
  | [] => true
  | (_, v) :: rest => isFinite v && fieldsFinite rest

end

theorem fieldsFinite_iff {fields : List (String × Value)} :
    fieldsFinite fields = true ↔ ∀ field ∈ fields, field.2.isFinite = true := by
  induction fields with
  | nil => simp [fieldsFinite]
  | cons field rest ih =>
      obtain ⟨name, v⟩ := field
      simp [fieldsFinite, ih]

end Value

namespace Document

mutual

/-- Every value without items has a document, unless a number in it is not finite. -/
theorem exists_ofValue : ∀ {v : Value}, v.isItemFree = true → v.isFinite = true →
    ∃ document, ofValue v = .ok document
  | .null, _, _ | .bool _, _, _ | .int _, _, _ | .text _, _, _ | .bytes _, _, _
  | .timestamp _, _, _ => ⟨_, rfl⟩
  | .float x, _, h => ⟨.float x, if_pos h⟩
  | .list elements, hfree, h => by
      obtain ⟨documents, hdocuments⟩ := @exists_ofValues elements hfree h
      exact ⟨.array documents, by rw [ofValue, hdocuments]; rfl⟩
  | .record fields, hfree, h => by
      obtain ⟨members, hmembers⟩ := @exists_ofFields fields hfree h
      exact ⟨.object members, by rw [ofValue, hmembers]; rfl⟩
  | .item _, hfree, _ => by cases hfree

theorem exists_ofValues : ∀ {vs : List Value}, Value.areItemFree vs = true →
    Value.areFinite vs = true → ∃ documents, ofValues vs = .ok documents
  | [], _, _ => ⟨[], rfl⟩
  | v :: rest, hfree, h => by
      rw [Value.areItemFree, Bool.and_eq_true] at hfree
      rw [Value.areFinite, Bool.and_eq_true] at h
      obtain ⟨document, hdocument⟩ := exists_ofValue hfree.1 h.1
      obtain ⟨documents, hdocuments⟩ := exists_ofValues hfree.2 h.2
      exact ⟨document :: documents, by rw [ofValues, hdocument, hdocuments]; rfl⟩

theorem exists_ofFields : ∀ {fields : List (String × Value)},
    Value.fieldsItemFree fields = true → Value.fieldsFinite fields = true →
      ∃ members, ofFields fields = .ok members
  | [], _, _ => ⟨[], rfl⟩
  | (name, v) :: rest, hfree, h => by
      rw [Value.fieldsItemFree, Bool.and_eq_true] at hfree
      rw [Value.fieldsFinite, Bool.and_eq_true] at h
      obtain ⟨document, hdocument⟩ := exists_ofValue hfree.1 h.1
      obtain ⟨members, hmembers⟩ := exists_ofFields hfree.2 h.2
      exact ⟨(name, document) :: members, by rw [ofFields, hdocument, hmembers]; rfl⟩

end

mutual

theorem isItemFree_toValue : ∀ document : Json, (toValue document).isItemFree = true
  | .null | .bool _ | .float _ | .text _ => rfl
  | .int n => by
      rw [toValue, numberValue]
      split <;> rfl
  | .array elements => areItemFree_toValues elements
  | .object members => fieldsItemFree_toFields members

theorem areItemFree_toValues : ∀ documents : List Json,
    Value.areItemFree (toValues documents) = true
  | [] => rfl
  | document :: rest => by
      rw [toValues, Value.areItemFree, isItemFree_toValue document, areItemFree_toValues rest]
      rfl

theorem fieldsItemFree_toFields : ∀ members : List (String × Json),
    Value.fieldsItemFree (toFields members) = true
  | [] => rfl
  | (name, document) :: rest => by
      rw [toFields, Value.fieldsItemFree, isItemFree_toValue document,
        fieldsItemFree_toFields rest]
      rfl

end

theorem toFields_insertAll (members additions : Fields Json) :
    toFields (members.insertAll additions) =
      Fields.insertAll (toFields members) (toFields additions) := by
  simp only [toFields_eq_map, Fields.map_snd_insertAll]

theorem isItemFree_toTyped {type : DataType} {document : Json} {v : Value}
    (h : toTyped type document = .ok v) : v.isItemFree = true := by
  unfold toTyped at h
  split at h
  · cases h
    rfl
  · cases h
    rfl
  · obtain ⟨t, -, rfl⟩ := map_ok_iff.1 h
    rfl
  · obtain ⟨octets, -, rfl⟩ := map_ok_iff.1 h
    rfl
  · cases h
  · cases h
  · cases h
    exact isItemFree_toValue _

theorem isItemFree_toRow {schema : Schema} {document : Json} {row : Row}
    (h : toRow schema document = .ok row) : ∀ field ∈ row, field.2.isItemFree = true := by
  cases document with
  | object members =>
      rw [toRow] at h
      intro field hfield
      have hmem : Except.ok field ∈ row.map (Except.ok (ε := Error)) := List.mem_map_of_mem hfield
      rw [← map_eq_of_mapM_eq_ok h] at hmem
      obtain ⟨property, -, hproperty⟩ := List.mem_map.1 hmem
      split at hproperty
      · obtain ⟨v, hv, hfield⟩ := bind_ok_iff.1 hproperty
        cases hfield
        exact isItemFree_toTyped hv
      · cases hproperty
        rfl
  | _ => cases h

end Document

theorem World.eq_of_forall₂_shows {w w' : World} {row others : Row} {ds : Fields Datum}
    (hfree : ∀ field ∈ row, field.2.isItemFree = true)
    (h : List.Forall₂ w.ShowsField row ds) (h' : List.Forall₂ w'.ShowsField others ds) :
    row = others := by
  induction h generalizing others with
  | nil =>
      cases h'
      rfl
  | cons hfield _ ih =>
      cases h' with
      | cons hfield' hrest =>
          obtain ⟨hfirst, hothers⟩ := List.forall_mem_cons.1 hfree
          rw [ih hothers hrest, Prod.ext (hfield.1.trans hfield'.1.symm)
            (Datum.eq_of_shows hfirst hfield.2 hfield'.2)]

namespace Shape

variable {shape : Shape} {ref : SourceRef} {w : World} {document : Json} {element : Value}

/-- The document reads as the datum, if it is not stored. -/
def Reads (document : Json) (d : Datum) : Shape → Prop
  | .stored _ => True
  | .object _ | .scalar _ => Document.toValue document = d.bare

/-- The document stands for the element of a sequence. -/
def Represents (shape : Shape) (ref : SourceRef) (w : World) (document : Json)
    (element : Value) : Prop :=
  ∃ d, w.Shows element d ∧ shape.Stands ref document d ∧ shape.Reads document d

/-- What the document is read as, a value or the fields of an item. -/
def GivesBack (ref : SourceRef) (w : World) (document : Json) (v : Value) : Shape → Prop
  | .stored _ => ∃ item row, v = .item item ∧ item.source = ref ∧
      Document.toRow ref.schema document = .ok row ∧
        w.cell? item = some { source := ref, slots := World.loadedSlots row }
  | .object _ | .scalar _ => Document.toValue document = v

theorem Represents.givesBack (h : shape.Represents ref w document element) :
    shape.GivesBack ref w document element := by
  obtain ⟨d, hshows, hstands, hreads⟩ := h
  cases shape with
  | stored type =>
      obtain ⟨-, row, ds, rfl, hstores⟩ := hstands
      obtain ⟨item, vs, rfl, hsource, hcell, -, hfields⟩ := World.shows_item_iff.1 hshows
      refine ⟨item, row, rfl, hsource, hstores.reads, ?_⟩
      rw [hcell]
      rw [World.eq_of_forall₂_shows (Document.isItemFree_toRow hstores.reads) (hstores.shows w) hfields]
  | object type =>
      have hfree : d.bare.isItemFree = true := by
        rw [← show _ = d.bare from hreads]
        exact Document.isItemFree_toValue document
      exact hreads.trans (Datum.eq_bare_of_shows hfree hshows).symm
  | scalar type =>
      have hfree : d.bare.isItemFree = true := by
        rw [← show _ = d.bare from hreads]
        exact Document.isItemFree_toValue document
      exact hreads.trans (Datum.eq_bare_of_shows hfree hshows).symm

theorem reads_ofType {t : DataType} {d : Datum} :
    (ofType t).Reads document d ↔ Document.toValue document = d.bare := by
  cases t <;> exact .rfl

section Steps

variable {projection : Expr} {operand : Operand} {t : DataType} {projected : Shape}

/-- The projection fails for the element, or gives a number that no document holds. -/
def Refuses (projection : Expr) (w : World) (element : Value) : Prop :=
  (∃ error w', (do (← projection.runValue .live element).intoValue).run w =
      (.error (.raised error), w')) ∨
    ∃ result w', (do (← projection.runValue .live element).intoValue).run w = (.ok result, w') ∧
      result.isFinite = false

/-- The document stands for what the projection gives for the element, and gives it back. -/
def Yields (projected : Shape) (ref : SourceRef) (projection : Expr) (w : World) (element : Value)
    (output : Json) : Prop :=
  ∃ result w', (do (← projection.runValue .live element).intoValue).run w = (.ok result, w') ∧
    projected.Represents ref w' output result ∧ projected.GivesBack ref w' output result

/-- What is made of the document is what the projection makes of its element. -/
def Projects (projected : Shape) (ref : SourceRef) (projection : Expr) (w : World)
    (element : Value) : Except Error Json → Prop
  | .ok output => projected.Yields ref projection w element output
  | .error _ => Refuses projection w element

/-- Running a projection over an element gives what it means. -/
theorem endsAs_denoteValue {d : Datum} (hshows : w.Shows element d)
    (hsingle : ∀ v, projection.HasLiteral v → v.isSingle = true) :
    ∃ x w', (do (← projection.runValue .live element).intoValue).run w = (x, w') ∧
      EndsAs w'.Shows x (projection.denoteValue .ofValue [.value d]) := by
  have hholds : w.Holds .empty := fun _ _ h => by cases h
  have hsettles := (Expr.runValue_settles ItemAccess.live_readsLoaded hholds hshows
    fun v hv => w.shows_ofValue (hsingle v hv)).intoValue
  obtain ⟨_, _, _, _, hends⟩ := hsettles
  exact ⟨_, _, rfl, hends⟩

/-- A step does what the projection does if it gives documents that read as the data that the
projection means, and fails only with the projection or for a number that is not finite. -/
theorem projects_of_tells {d : Datum} (hshows : w.Shows element d)
    (hsingle : ∀ v, projection.HasLiteral v → v.isSingle = true) {v : Except Error Value}
    (hagrees : Agrees (fun v d => v.Tells t d) v (projection.denoteValue .ofValue [.value d]))
    {step : Except Error Json}
    (hstep : ∀ output, step = .ok output → v = .ok (Document.toValue output))
    (hrefused : ∀ error, step = .error error → ∀ u, v = .ok u → u.isFinite = false) :
    (ofType t).Projects ref projection w element step := by
  obtain ⟨x, w', hrun, hends⟩ := endsAs_denoteValue hshows hsingle
  cases step with
  | ok output =>
      obtain rfl := hstep output rfl
      cases hmeans : projection.denoteValue .ofValue [.value d] with
      | error kind =>
          rw [hmeans] at hagrees
          exact hagrees.elim
      | ok r =>
          rw [hmeans] at hagrees hends
          obtain ⟨result, rfl, hresult⟩ := hends.ok_right
          have hrepresents : (ofType t).Represents ref w' output result :=
            ⟨r, hresult, stands_of_tells hagrees, reads_ofType.2 hagrees.bare.symm⟩
          exact ⟨result, w', hrun, hrepresents, hrepresents.givesBack⟩
  | error error =>
      cases hmeans : projection.denoteValue .ofValue [.value d] with
      | error kind =>
          rw [hmeans] at hends
          obtain ⟨e, rfl, -⟩ := hends.error_right
          exact .inl ⟨e, w', hrun⟩
      | ok r =>
          rw [hmeans] at hagrees hends
          cases v with
          | error e => exact hagrees.elim
          | ok u =>
              obtain ⟨result, rfl, hresult⟩ := hends.ok_right
              refine .inr ⟨result, w', hrun, ?_⟩
              have htells : u.Tells t r := hagrees
              have hu := hrefused error rfl u rfl
              rw [Datum.eq_bare_of_shows htells.isTold.isItemFree hresult, htells.bare]
              exact hu

/-- A value that tells its datum has no document if and only if a number in it is not finite. -/
theorem isFinite_of_error {v : Value} {d : Datum} (h : v.Tells t d) {error : Error}
    (herror : Document.ofValue v = .error error) : v.isFinite = false := by
  have hfree : v.isItemFree = true := by
    rw [← h.bare]
    exact h.isTold.isItemFree
  refine Bool.eq_false_iff.2 fun hfinite => ?_
  obtain ⟨document, hdocument⟩ := Document.exists_ofValue hfree hfinite
  rw [hdocument] at herror
  cases herror

theorem replace_projects (hoperand : IsOperand shape projection operand t)
    (hproper : projection.Proper) (h : shape.Represents ref w document element) :
    (ofType t).Projects ref projection w element (operand.document document) := by
  obtain ⟨d, hshows, hstands, -⟩ := h
  have hcomputes : Computes .ofValue [] document d projection operand t :=
    hoperand.computes hstands ⟨fun _ _ _ => rfl, hproper⟩
  have told {u : Value} (hu : operand.eval document = .ok u) : ∃ r, u.Tells t r := by
    rw [Computes, hu] at hcomputes
    obtain ⟨r, -, hr⟩ := Agrees.ok_left hcomputes
    exact ⟨r, hr⟩
  refine projects_of_tells hshows (fun v hv => hoperand.isSingle hv) hcomputes
    (fun output houtput => ?_) fun error herror u hu => ?_
  · obtain ⟨u, hu, houtput⟩ := bind_ok_iff.1 houtput
    obtain ⟨r, hr⟩ := told hu
    rw [hu, hr.reads houtput]
  · obtain ⟨r, hr⟩ := told hu
    rw [Operand.document, hu] at herror
    exact isFinite_of_error hr herror

/-- Computing the fields one by one, each with its document, is computing them all first. -/
theorem mapM_document {operands : Fields Operand} {values : Fields Value}
    (h : Operand.evalFields document operands = .ok values) :
    (operands.mapM fun field => do return (field.1, ← field.2.document document)) =
      Document.ofFields values := by
  induction operands generalizing values with
  | nil =>
      cases h
      rfl
  | cons field rest ih =>
      obtain ⟨name, operand⟩ := field
      rw [Operand.evalFields] at h
      obtain ⟨v, hv, h⟩ := bind_ok_iff.1 h
      obtain ⟨others, hothers, h⟩ := bind_ok_iff.1 h
      cases h
      have hdocument : operand.document document = Document.ofValue v := by
        rw [Operand.document, hv]
        rfl
      rw [List.mapM_cons, ih hothers, Document.ofFields]
      simp only [hdocument, bind_assoc, pure_bind]
      rfl

theorem exists_evalFields {operands : Fields Operand} {members : Fields Json}
    (h : (operands.mapM fun field => do return (field.1, ← field.2.document document)) =
      .ok members) : ∃ values, Operand.evalFields document operands = .ok values := by
  induction operands generalizing members with
  | nil => exact ⟨[], rfl⟩
  | cons field rest ih =>
      obtain ⟨name, operand⟩ := field
      rw [List.mapM_cons] at h
      obtain ⟨first, hfirst, h⟩ := bind_ok_iff.1 h
      obtain ⟨others, hothers, -⟩ := bind_ok_iff.1 h
      obtain ⟨output, houtput, -⟩ := bind_ok_iff.1 hfirst
      obtain ⟨v, hv, -⟩ := bind_ok_iff.1 houtput
      obtain ⟨values, hvalues⟩ := ih hothers
      exact ⟨(name, v) :: values, by rw [Operand.evalFields, hv, hvalues]; rfl⟩

section Extension

variable {operands : Fields Operand} {members : Fields Json} {values : Fields Value}

/-- To extend an object is to merge it with the record of the added fields. -/
theorem eval_extension (hmembers : members.names.Nodup) (hvalues : values.names.Nodup)
    (h : Operand.evalFields (.object members) operands = .ok values) :
    Operand.eval (.object members) (.merge [.root, .object operands]) =
      .ok (.record (Fields.insertAll (Document.toFields members) values)) := by
  have hread : (Document.toFields members).map Prod.fst = members.names :=
    Document.names_toFields members
  have hmerge : Operand.eval (.object members) (.merge [.root, .object operands]) =
      .ok (.record (Fields.insertAll (Fields.ofList (Document.toFields members))
        (Fields.ofList values))) := by
    simp only [Operand.eval, Operand.mergeAll, h]
    rfl
  rw [hmerge, Fields.ofList_eq_self hvalues, Fields.ofList_eq_self]
  rw [Fields.names, hread]
  exact hmembers

theorem extend_eq (h : Operand.evalFields (.object members) operands = .ok values) :
    Pipeline.extend operands (.object members) =
      (Document.ofFields values).map fun additions => .object (members.insertAll additions) := by
  rw [Pipeline.extend, mapM_document h]
  cases Document.ofFields values <;> rfl

theorem fieldsFinite_of_insertAll {fields : Fields Value} (hvalues : values.names.Nodup)
    (h : Value.fieldsFinite (fields.insertAll values) = true) :
    Value.fieldsFinite values = true := by
  refine Value.fieldsFinite_iff.2 fun field hfield => ?_
  have hget : (fields.insertAll values).get? field.1 = some field.2 := by
    rw [Fields.get?_insertAll hvalues, Fields.get?_eq_some_of_mem hvalues hfield]
    rfl
  exact Value.fieldsFinite_iff.1 h field (Fields.mem_of_get? hget)

end Extension

section Told

variable {left : Expr} {fields : List (String × Expr)} {type type' : DataType}
  {operands : Fields Operand} {types : Fields DataType} {whole : RecordType} {d : Datum}
  {lit : Value → Datum}

/-- The values of the fields of a record tell their data. -/
theorem AreOperands.told (hfields : AreOperands shape fields operands types)
    (hstands : shape.Stands ref document d) (hregular : (Expr.record fields type).Regular lit)
    {values : Fields Value} (hvalues : Operand.evalFields document operands = .ok values) :
    ∃ es, values = Datum.bareFields es ∧ values.names.Nodup ∧
      (Value.record values).Tells (.record types false) (.record es) := by
  have hdistinct : types.names.Nodup := by
    rw [hfields.names]
    exact hregular.proper.records [] fields type rfl
  have heach : Agrees (fun values ds => TellsEach values ds types)
      (Operand.evalFields document operands) (Expr.denoteFields lit [.value d] fields) :=
    hfields.computes hstands fun field hfield => hregular.part
      (show (field.2, ChildScope.same) ∈ _ from List.mem_map.2 ⟨field, hfield, rfl⟩)
  rw [hvalues] at heach
  obtain ⟨es, -, rfl, hfits, htold⟩ := heach.ok_left
  have hfields := Datum.fieldsFit_of_forall₂ hdistinct hfits
  refine ⟨es, rfl, ?_, Value.tells_record hfields htold⟩
  rw [Datum.bareFields_eq_map, Fields.names, List.map_map]
  exact hfields.names

theorem object_of_whole (hwhole : shape.wholeElement? = some whole)
    (hstands : shape.Stands ref document d) :
    ∃ members : Fields Json, document = .object members ∧ members.names.Nodup := by
  obtain ⟨ds, hds⟩ := hstands.whole hwhole
  obtain ⟨members, rfl, hmembers⟩ := Document.object_of_toValue hds.bare
  refine ⟨members, rfl, ?_⟩
  rw [← Document.names_toFields, hmembers, Datum.bareFields_eq_map, Fields.names, List.map_map]
  exact hds.fits.names

/-- The extended document reads as the merge of the document with the added fields. -/
theorem eval_of_extend (hwhole : shape.wholeElement? = some whole)
    (hfields : AreOperands shape fields operands types)
    (hregular : (Expr.record fields type).Regular lit) (hstands : shape.Stands ref document d)
    {output : Json} (houtput : Pipeline.extend operands document = .ok output) :
    Operand.eval document (.merge [.root, .object operands]) = .ok (Document.toValue output) := by
  obtain ⟨members, rfl, hnames⟩ := object_of_whole hwhole hstands
  obtain ⟨_, hadditions, -⟩ := bind_ok_iff.1 houtput
  obtain ⟨values, hvalues⟩ := exists_evalFields hadditions
  obtain ⟨es, -, hdistinct, htells⟩ := hfields.told hstands hregular hvalues
  rw [extend_eq hvalues] at houtput
  obtain ⟨additions, hadditions, rfl⟩ := map_ok_iff.1 houtput
  have hmade : Document.ofValue (.record values) = .ok (.object additions) := by
    rw [Document.ofValue, hadditions]
    rfl
  have hadded : Document.toFields additions = values := Value.record.inj (htells.reads hmade)
  rw [eval_extension hnames hdistinct hvalues, Document.toValue, Document.toFields_insertAll,
    hadded]

theorem isOperand_extension (hwhole : shape.wholeElement? = some whole)
    (hleft : left.isElement = true) (hfields : AreOperands shape fields operands types) :
    IsOperand shape (.merge left (.record fields type) type') (.merge [.root, .object operands])
      (.record (whole.fields.insertAll types) whole.isOpen) := by
  obtain ⟨leftType, rfl⟩ := eq_context_of_isElement hleft
  exact .merge (.element hwhole) (.record (.record hfields))

end Told

theorem extend_projects {left : Expr} {fields : List (String × Expr)} {type type' : DataType}
    {operands : Fields Operand} {types : Fields DataType} {whole : RecordType}
    (hwhole : shape.wholeElement? = some whole) (hleft : left.isElement = true)
    (hfields : AreOperands shape fields operands types)
    (hproper : (Expr.merge left (.record fields type) type').Proper)
    (h : shape.Represents ref w document element) :
    (Shape.object { whole with fields := whole.fields.insertAll types }).Projects ref
      (.merge left (.record fields type) type') w element (Pipeline.extend operands document) := by
  have hoperand : IsOperand shape (.merge left (.record fields type) type') _ _ :=
    isOperand_extension hwhole hleft hfields
  have hregular : (Expr.merge left (.record fields type) type').Regular .ofValue :=
    ⟨fun _ _ _ => rfl, hproper⟩
  have hrecord : (Expr.record fields type).Regular .ofValue := hregular.part
    (show (Expr.record fields type, ChildScope.same) ∈ _ by simp [Expr.children])
  obtain ⟨d, hshows, hstands, -⟩ := h
  refine projects_of_tells (t := .record (whole.fields.insertAll types) whole.isOpen)
    hshows (fun v hv => hoperand.isSingle hv) (hoperand.computes hstands hregular)
    (fun output houtput => eval_of_extend hwhole hfields hrecord hstands houtput)
    fun error herror u hu => ?_
  obtain ⟨members, rfl, hnames⟩ := object_of_whole hwhole hstands
  cases hvalues : Operand.evalFields (.object members) operands with
  | error e =>
      have hmerge : Operand.eval (.object members) (.merge [.root, .object operands]) =
          .error e := by
        simp only [Operand.eval, Operand.mergeAll, hvalues]
        rfl
      rw [hmerge] at hu
      cases hu
  | ok values =>
      obtain ⟨es, -, hdistinct, htells⟩ := hfields.told hstands hrecord hvalues
      rw [eval_extension hnames hdistinct hvalues] at hu
      cases hu
      rw [extend_eq hvalues] at herror
      cases hadditions : Document.ofFields values with
      | ok additions =>
          rw [hadditions] at herror
          cases herror
      | error e =>
          have hrefuses : Document.ofValue (.record values) = .error e := by
            rw [Document.ofValue, hadditions]
            rfl
          have hrefused := isFinite_of_error htells hrefuses
          refine Bool.eq_false_iff.2 fun hfinite => ?_
          exact Bool.eq_false_iff.1 hrefused (fieldsFinite_of_insertAll hdistinct hfinite)

/-- A projection to the element itself leaves documents as they are. -/
theorem element_yields (helement : projection.isElement = true)
    (h : shape.Represents ref w document element) :
    shape.Yields ref projection w element document := by
  obtain ⟨type, rfl⟩ := eq_context_of_isElement helement
  obtain ⟨d, hshows, hstands, hreads⟩ := h
  obtain ⟨x, w', hrun, hends⟩ := endsAs_denoteValue hshows
    fun v (hv : (Expr.context 0 type).HasLiteral v) => (not_hasLiteral_context hv).elim
  rw [denoteValue_element] at hends
  obtain ⟨result, rfl, hresult⟩ := hends.ok_right
  have hrepresents : shape.Represents ref w' document result := ⟨d, hresult, hstands, hreads⟩
  exact ⟨result, w', hrun, hrepresents, hrepresents.givesBack⟩

end Steps

end Shape

namespace Segment

open Shape

variable {segment projected : Segment} {projection : Expr} {ref : SourceRef} {w : World}
  {documents : List Json} {elements : List Value} {view : ItemRef → String}

/-- What is made of each document decides what is made of all. -/
theorem mapM_projects {shape projected : Shape} {f : Json → Except Error Json}
    (h : List.Forall₂ (shape.Represents ref w) documents elements)
    (step : ∀ document element, shape.Represents ref w document element →
      projected.Projects ref projection w element (f document)) :
    match documents.mapM f with
    | .ok outputs => List.Forall₂ (projected.Yields ref projection w) elements outputs
    | .error _ => ∃ element ∈ elements, Refuses projection w element := by
  induction h with
  | nil => exact .nil
  | @cons document element documents elements hfirst _ ih =>
      have hstep := step document element hfirst
      rw [List.mapM_cons]
      cases hf : f document with
      | error e =>
          rw [hf] at hstep
          exact ⟨element, List.mem_cons_self, hstep⟩
      | ok output =>
          rw [hf] at hstep
          cases hrest : documents.mapM f with
          | error e =>
              rw [hrest] at ih
              obtain ⟨other, hother, hrefuses⟩ := ih
              exact ⟨other, List.mem_cons_of_mem _ hother, hrefuses⟩
          | ok outputs =>
              rw [hrest] at ih
              exact .cons hstep ih

theorem replace?_eq_some (h : segment.replace? projection = some projected) :
    ∃ operand t, IsOperand segment.shape projection operand t ∧
      projected.pipeline = segment.pipeline ++ [.replaceWith operand] ∧
        projected.shape = .ofType t := by
  obtain ⟨⟨operand, t⟩, hoperand, h⟩ := Option.bind_eq_some_iff.1 h
  cases h
  exact ⟨operand, t, isOperand_of_operand? hoperand, rfl, rfl⟩

theorem extend?_eq_some {fields : List (String × Expr)}
    (h : segment.extend? fields = some projected) :
    ∃ whole operands types, segment.shape.wholeElement? = some whole ∧
      AreOperands segment.shape fields operands types ∧
        projected.pipeline = segment.pipeline ++ [.addFields operands] ∧
          projected.shape = .object { whole with fields := whole.fields.insertAll types } := by
  obtain ⟨whole, hwhole, h⟩ := Option.bind_eq_some_iff.1 h
  obtain ⟨⟨operands, types⟩, hoperands, h⟩ := Option.bind_eq_some_iff.1 h
  cases h
  exact ⟨whole, operands, types, hwhole,
    areOperands_of_fieldOperands? (fun _ _ _ _ => isOperand_of_operand?) hoperands, rfl, rfl⟩

/-- The ways in which documents are projected. -/
theorem map?_cases (h : segment.map? projection = some projected) :
    (projection.isElement = true ∧ projected = segment) ∨
      (∃ stage operand t, IsOperand segment.shape projection operand t ∧
        projected.pipeline = segment.pipeline ++ [stage] ∧ projected.shape = .ofType t ∧
          ∀ documents, Pipeline.Stage.run stage documents = documents.mapM operand.document) ∨
        ∃ left fields type type' whole operands types,
          projection = .merge left (.record fields type) type' ∧ left.isElement = true ∧
            segment.shape.wholeElement? = some whole ∧
              AreOperands segment.shape fields operands types ∧
                projected.pipeline = segment.pipeline ++ [.addFields operands] ∧
                  projected.shape =
                    .object { whole with fields := whole.fields.insertAll types } := by
  have replaced (h : segment.replace? projection = some projected) :
      ∃ stage operand t, IsOperand segment.shape projection operand t ∧
        projected.pipeline = segment.pipeline ++ [stage] ∧ projected.shape = .ofType t ∧
          ∀ documents, Pipeline.Stage.run stage documents = documents.mapM operand.document := by
    obtain ⟨operand, t, hoperand, hpipeline, hshape⟩ := replace?_eq_some h
    exact ⟨_, operand, t, hoperand, hpipeline, hshape, fun _ => rfl⟩
  by_cases helement : projection.isElement = true
  · unfold map? at h
    rw [if_pos helement] at h
    exact .inl ⟨helement, (Option.some.inj h).symm⟩
  · unfold map? at h
    rw [if_neg helement] at h
    refine .inr ?_
    cases projection with
    | record fields type =>
        obtain ⟨⟨operands, types⟩, hoperands, h⟩ := Option.bind_eq_some_iff.1 h
        cases h
        refine .inl ⟨_, .object operands, .record types false, .record ?_, rfl, rfl, fun _ => rfl⟩
        exact areOperands_of_fieldOperands? (fun _ _ _ _ => isOperand_of_operand?) hoperands
    | merge left right type =>
        cases right with
        | record fields type =>
            by_cases hleft : left.isElement = true
            · simp only at h
              rw [if_pos hleft] at h
              obtain ⟨whole, operands, types, hwhole, hoperands, hpipeline, hshape⟩ :=
                extend?_eq_some h
              exact .inr ⟨left, fields, _, _, whole, operands, types, rfl, hleft, hwhole,
                hoperands, hpipeline, hshape⟩
            · simp only at h
              rw [if_neg hleft] at h
              exact .inl (replaced h)
        | _ => exact .inl (replaced h)
    | _ => exact .inl (replaced h)

/-- A projection of documents gives back, for each of them in order, what the projection gives
for the element that the document stands for. It fails only if the projection fails for one of
the elements or gives a number for it that is not finite. -/
theorem map_projects (hmap : segment.map? projection = some projected)
    (hbuilt : projection.Built view)
    (h : List.Forall₂ (segment.shape.Represents ref w) documents elements) :
    ∃ stages, projected.pipeline = segment.pipeline ++ stages ∧
      match Pipeline.run stages documents with
      | .ok outputs => List.Forall₂ (projected.shape.Yields ref projection w) elements outputs
      | .error _ => ∃ element ∈ elements, Refuses projection w element := by
  have hproper := hbuilt.carriesType_and_proper.2
  have run_single (stage : Pipeline.Stage) :
      Pipeline.run [stage] documents = stage.run documents := by
    rw [Pipeline.run, List.foldlM_cons]
    exact bind_pure _
  rcases map?_cases hmap with ⟨helement, rfl⟩ | ⟨stage, operand, t, hoperand, hpipeline, hshape,
    hrun⟩ | ⟨left, fields, type, type', whole, operands, types, rfl, hleft, hwhole, hoperands,
    hpipeline, hshape⟩
  · refine ⟨[], (List.append_nil _).symm, ?_⟩
    exact List.Forall₂.flip (h.imp fun document element => element_yields helement)
  · refine ⟨[stage], hpipeline, ?_⟩
    rw [run_single, hrun, hshape]
    exact mapM_projects h fun document element hrepresents =>
      replace_projects hoperand hproper hrepresents
  · refine ⟨[.addFields operands], hpipeline, ?_⟩
    rw [run_single, hshape]
    exact mapM_projects h fun document element hrepresents =>
      extend_projects hwhole hleft hoperands hproper hrepresents

/-- A task marked as late. -/
def markedLate : Expr :=
  .merge .element
    (.record [("late", .literal (.bool true))] (.record [("late", .boolean)] false))
    (.record [("late", .boolean)] true)

theorem built_markedLate (view : ItemRef → String) : markedLate.Built view := by
  have mark : Expr.mkRecord view [("late", .literal (.bool true))] =
      .ok (.record [("late", .literal (.bool true))] (.record [("late", .boolean)] false)) := rfl
  have marked : Expr.mkMerge view .element
      (.record [("late", .literal (.bool true))] (.record [("late", .boolean)] false)) =
    .ok markedLate := rfl
  refine .merge (.outer 0) (.record (fun field hfield => ?_) mark) marked
  obtain rfl := List.mem_singleton.1 hfield
  exact .literal _

/-- The stored document of a task becomes one that reads as the marked task. -/
theorem map_projects_task :
    ∃ projected stages, (Segment.ofSchema tasks.schema).map? markedLate = some projected ∧
      projected.pipeline = stages ∧
        match Pipeline.run stages [.object [("done", .null)]] with
        | .ok outputs =>
            List.Forall₂ (projected.shape.Yields tasks markedLate taskState) [unknownTask] outputs
        | .error _ => ∃ element ∈ [unknownTask], Refuses markedLate taskState element := by
  have hrepresents : (Segment.ofSchema tasks.schema).shape.Represents tasks taskState
      (.object [("done", .null)]) unknownTask :=
    ⟨_, shows_unknownTask, stands_unknownTask, trivial⟩
  obtain ⟨stages, hpipeline, hyields⟩ := map_projects (show (ofSchema tasks.schema).map? _ = some _
    from rfl) (built_markedLate Datum.unseen) (.cons hrepresents .nil)
  exact ⟨_, stages, rfl, hpipeline, hyields⟩

end Segment

end RecordAlgebra
