import RecordAlgebra.Proofs.Expr.Denotation
import RecordAlgebra.Proofs.Typing.Mappings
import RecordAlgebra.Proofs.Typing.Typed

/-!
# Progress of typed expressions

If all types of an expression are settled and the data around it fit them, its
meaning is a result of its type or a tolerated error. This goes by induction on
the typing: a part that sees one more binding is used for the elements of its
source only, and these fit.
-/

namespace RecordAlgebra

open Datum (AllProgress)

/-- The result has this type, up to tolerated errors of its elements. -/
def Result.Fits (t : DataType) : Result → Prop
  | .value d => d.Fits t
  | .sequence xs => ∃ element, t = .list element ∧ AllProgress element xs

namespace Result

variable {r : Result} {t element : DataType}

theorem Fits.intoValue (h : r.Fits t) : Progresses (fun d => d.Fits t) r.intoValue := by
  cases r with
  | value d => exact h
  | sequence xs =>
      obtain ⟨element, rfl, hxs⟩ := h
      exact (Datum.Elements.collect_progresses hxs).map fun ds hds => .list hds

theorem list_of_elementType (ht : t.isSettled = true) (h : t.elementType = .ok element) :
    t = .list element := by
  rcases t with s | t | ⟨fields, isOpen⟩ | schema
  · cases s <;> cases ht <;> cases h
  · cases h
    rfl
  · cases h
  · cases h

theorem isSettled_of_elementType (ht : t.isSettled = true) (h : t.elementType = .ok element) :
    element.isSettled = true := by
  rw [list_of_elementType ht h] at ht
  exact ht

theorem Fits.intoSequence (h : r.Fits t) (ht : t = .list element) :
    Progresses (AllProgress element) r.intoSequence := by
  subst ht
  cases r with
  | value d =>
      obtain ⟨ds, rfl, hds⟩ := Datum.fits_list h
      exact Datum.Elements.allProgress_ofData hds
  | sequence xs =>
      obtain ⟨_, heq, hxs⟩ := h
      cases heq
      exact hxs

end Result

/-- What is bound fits the types of the bindings. The input is bound around them. -/
structure ScopeFits (data : List Datum) (scopes : List DataType) (meanings : List Meaning) :
    Prop where
  bound : ∀ (depth : Nat) (t : DataType), scopes[depth]? = some t →
    ∃ d : Datum, meanings[depth]? = some (Meaning.value d) ∧ d.Fits t
  input : meanings[scopes.length]? = some (Meaning.input data)

theorem scopeFits_nil (data : List Datum) : ScopeFits data [] [.input data] where
  bound depth t h := by simp at h
  input := rfl

theorem ScopeFits.cons {data : List Datum} {scopes : List DataType} {meanings : List Meaning}
    (h : ScopeFits data scopes meanings) {d : Datum} {t : DataType} (hd : d.Fits t) :
    ScopeFits data (t :: scopes) (.value d :: meanings) where
  bound depth u hu := by
    cases depth with
    | zero =>
        cases hu
        exact ⟨d, rfl, hd⟩
    | succ depth => exact h.bound depth u hu
  input := h.input

namespace Expr

section

variable {lit : Value → Datum} {scope : List Meaning}

/-- The meaning of the expression is a result of this type or a tolerated error. -/
def DenotesIn (lit : Value → Datum) (scope : List Meaning) (e : Expr) (t : DataType) : Prop :=
  Progresses (Result.Fits t) (denote lit scope e)

variable {e : Expr} {t u : DataType}

theorem DenotesIn.value (h : DenotesIn lit scope e t) :
    Progresses (fun d => d.Fits t) (denote lit scope e >>= Result.intoValue) :=
  Progresses.bind h fun _ hr => hr.intoValue

theorem DenotesIn.withValue {α : Type} {P : α → Prop} {f : Datum → Except ErrorKind α}
    (h : DenotesIn lit scope e t) (step : ∀ d, d.Fits t → Progresses P (f d)) :
    Progresses P (do f (← (← denote lit scope e).intoValue)) :=
  Progresses.bind h fun _ hr => hr.intoValue.bind step

theorem DenotesIn.withElements {α : Type} {P : α → Prop}
    {f : List Datum.Element → Except ErrorKind α} (h : DenotesIn lit scope e t)
    (ht : t.isSettled = true) (helement : t.elementType = .ok u)
    (step : ∀ xs, AllProgress u xs → Progresses P (f xs)) :
    Progresses P (do f (← (← denote lit scope e).intoSequence)) :=
  Progresses.bind h fun _ hr =>
    (hr.intoSequence (Result.list_of_elementType ht helement)).bind step

theorem denoteOperands_progresses {op : BooleanOp} {operands : List Expr} (sawNull : Bool)
    (h : ∀ e ∈ operands, DenotesIn lit scope e .boolean) :
    Progresses (fun d => d.Fits .boolean) (denoteOperands lit scope op sawNull operands) := by
  induction operands generalizing sawNull with
  | nil =>
      rw [denoteOperands]
      cases sawNull <;> exact .scalar rfl
  | cons e rest ih =>
      obtain ⟨he, hrest⟩ := List.forall_mem_cons.1 h
      rw [denoteOperands]
      refine he.withValue fun d hd => ?_
      rcases Datum.fits_boolean hd with rfl | ⟨b, rfl⟩
      · exact ih true hrest
      · show Progresses _ (if b == op.decisive then _ else _)
        split
        · exact Datum.fits_bool b
        · exact ih sawNull hrest

theorem denoteFields_progresses {fields : List (String × Expr)} {types : Expr → DataType}
    (h : ∀ field ∈ fields, DenotesIn lit scope field.2 (types field.2)) :
    Progresses (fun ds => List.Forall₂ (fun d (t : String × DataType) =>
      d.1 = t.1 ∧ d.2.Fits t.2) ds (fields.map fun field => (field.1, types field.2)))
      (denoteFields lit scope fields) := by
  induction fields with
  | nil =>
      rw [denoteFields]
      exact .nil
  | cons field rest ih =>
      obtain ⟨name, e⟩ := field
      obtain ⟨he, hrest⟩ := List.forall_mem_cons.1 h
      rw [denoteFields]
      exact he.withValue fun d hd => (ih hrest).bind fun ds hds => .cons ⟨rfl, hd⟩ hds

theorem denoteKeys_progresses {keys : List (Expr × Direction)} {types : Expr → DataType}
    (h : ∀ key ∈ keys, DenotesIn lit scope key.1 (types key.1))
    (hsettled : ∀ key ∈ keys, (types key.1).isSettled = true)
    (horderable : ∀ key ∈ keys, (types key.1).isOrderable = true) :
    Progresses (Datum.KeysFit (keys.map fun key => types key.1)) (denoteKeys lit scope keys) := by
  induction keys with
  | nil =>
      rw [denoteKeys]
      exact .nil
  | cons key rest ih =>
      obtain ⟨e, direction⟩ := key
      obtain ⟨he, hrest⟩ := List.forall_mem_cons.1 h
      obtain ⟨hs, hsettled⟩ := List.forall_mem_cons.1 hsettled
      obtain ⟨ho, horderable⟩ := List.forall_mem_cons.1 horderable
      rw [denoteKeys]
      exact he.withValue fun d hd =>
        (ih hrest hsettled horderable).bind fun ds hds => .cons ⟨hd, hs, ho⟩ hds

end

/-- All types are settled, and literals and the input with these data fit them. -/
def settled (lit : Value → Datum) (data : List Datum) : Facts where
  type t := t.isSettled = true
  input := (Datum.list data).Fits
  literal v := (lit v).Fits v.datatype
  merge _ _ := True

variable {lit : Value → Datum} {data : List Datum} {scopes : List DataType} {e : Expr}
  {t : DataType}

/-- An expression of settled types denotes a result of its type or a tolerated error. -/
theorem Typed.progresses (h : Typed (settled lit data) scopes e t) {meanings : List Meaning}
    (hscope : ScopeFits data scopes meanings) : DenotesIn lit meanings e t := by
  induction h generalizing meanings with
  | @bound scopes depth type t hbound _ =>
      obtain ⟨d, hd, hfits⟩ := hscope.bound depth t hbound
      rw [DenotesIn, denote, hd]
      exact hfits
  | @input scopes type hdeclared hgood =>
      rw [DenotesIn, denote, hscope.input]
      cases type with
      | list element =>
          obtain ⟨_, heq, hds⟩ := Datum.fits_list hdeclared
          cases heq
          exact ⟨element, rfl, Datum.Elements.allProgress_ofData hds⟩
      | scalar s =>
          have hadmits := Datum.fits_scalar hdeclared
          cases s <;> cases hgood <;> cases hadmits
      | record => cases hdeclared
      | item => cases hdeclared
  | unbound _ hany => cases hany
  | literal hknown _ =>
      rw [DenotesIn, denote_literal]
      exact hknown
  | field hbase hfield _ ih =>
      rw [DenotesIn, denote]
      exact (ih hscope).withValue fun d hd =>
        (Datum.field_progresses hbase.isGood hd hfield).bind fun _ h => h
  | comparison hleft hright hcomparable _ ihl ihr =>
      rw [DenotesIn, denote]
      exact (ihl hscope).withValue fun d hd => (ihr hscope).withValue fun e he =>
        (Datum.compare_progresses hleft.isGood hright.isGood hcomparable hd he).bind fun _ h => h
  | boolean types hoperands hlike _ ih =>
      rw [DenotesIn, denote]
      refine (denoteOperands_progresses false fun e he => ?_).bind fun _ h => h
      have hboolean := Datum.boolean_of_isBooleanLike (hlike e he) (hoperands e he).isGood
      exact hboolean ▸ ih e he hscope
  | not hoperand hlike _ ih =>
      have hboolean := Datum.boolean_of_isBooleanLike hlike hoperand.isGood
      subst hboolean
      rw [DenotesIn, denote]
      exact (ih hscope).withValue fun d hd => (Datum.not_progresses hd).bind fun _ h => h
  | minus hoperand hlike ih =>
      have hnumeric := Datum.numeric_of_isNumericLike hlike hoperand.isGood
      rw [DenotesIn, denote]
      exact (ih hscope).withValue fun d hd =>
        (Datum.minus_progresses hnumeric hd).bind fun _ h => h
  | arithmetic hleft hright hresult hgood ihl ihr =>
      rw [DenotesIn, denote]
      exact (ihl hscope).withValue fun d hd => (ihr hscope).withValue fun e he =>
        (Datum.apply_progresses hleft.isGood hright.isGood hgood hresult hd he).bind fun _ h => h
  | merge hleft hright ha hb _ _ ihl ihr =>
      rw [DenotesIn, denote]
      exact (ihl hscope).withValue fun d hd => (ihr hscope).withValue fun e he =>
        (Datum.merge_progresses hleft.isGood hright.isGood ha hb hd he).bind fun _ h => h
  | @record scopes fields type types hnodup _ _ ih =>
      rw [DenotesIn, denote]
      refine (denoteFields_progresses fun field hfield => ih field hfield hscope).bind
        fun ds hds => ?_
      have hnames : (Fields.names (fields.map fun field => (field.1, types field.2))).Nodup := by
        rw [Fields.names, List.map_map]
        exact hnodup
      exact (Datum.fieldsFit_of_forall₂ hnames hds).ofList.record
  | function hinput haccepts _ ih =>
      rw [DenotesIn, denote]
      exact (ih hscope).withValue fun d hd =>
        (Datum.function_progresses hinput.isGood haccepts hd).bind fun _ h => h
  | @filter scopes source predicate s element t hsource helement hpredicate hlike _ ihs ihp =>
      have hboolean := Datum.boolean_of_isBooleanLike hlike hpredicate.isGood
      subst hboolean
      rw [DenotesIn, denote]
      refine (ihs hscope).withElements hsource.isGood helement fun xs hxs => ?_
      refine ⟨element, rfl, Datum.Elements.filter_progresses (fun d hd => ?_) hxs⟩
      exact (ihp (hscope.cons hd)).withValue fun b hb => Datum.predicate_progresses hb
  | map hsource helement _ _ ihs ihp =>
      rw [DenotesIn, denote]
      refine (ihs hscope).withElements hsource.isGood helement fun xs hxs => ?_
      refine ⟨_, rfl, Datum.Elements.map_progresses (fun d hd => ?_) hxs⟩
      exact (ihp (hscope.cons hd)).value
  | @sort scopes source keys s element types hsource helement hkeys horderable _ ihs ihk =>
      rw [DenotesIn, denote]
      refine (ihs hscope).withElements hsource.isGood helement fun xs hxs => ?_
      refine ⟨element, rfl, Datum.Elements.settle_progresses ?_⟩
      have hrows := Datum.Elements.fold_progresses
        (P := Datum.RowsFit (keys.map fun key => types key.1) element)
        (f := fun rows d => do
          let found ← denoteKeys lit (.value d :: meanings) keys
          .ok ((found, d) :: rows))
        (fun rows d hrows hd => (denoteKeys_progresses
          (fun key hkey => ihk key hkey (hscope.cons hd)) (fun key hkey => (hkeys key hkey).isGood)
          horderable).bind fun found hfound => List.forall_mem_cons.2 ⟨⟨hfound, hd⟩, hrows⟩)
        hxs (s := []) (by simp [Datum.RowsFit])
      refine hrows.bind fun rows hrows => ?_
      have hrows : Datum.RowsFit (keys.map fun key => types key.1) element rows.reverse :=
        fun row hrow => hrows row (List.mem_reverse.1 hrow)
      exact Datum.sort_progresses _ hrows
  | @groupBy scopes source key total type s element k t hsource helement _ _ _ ihs ihk iht =>
      rw [DenotesIn, denote]
      refine (ihs hscope).withElements hsource.isGood helement fun xs hxs => ?_
      refine ⟨_, rfl, Datum.Elements.settle_progresses ?_⟩
      have hgroups := Datum.Elements.fold_progresses (P := Datum.GroupsFit k element)
        (f := fun groups d => do
          let found ← (← denote lit (.value d :: meanings) key).intoValue
          .ok (Datum.addToGroups found d groups))
        (fun groups d hgroups hd => (ihk (hscope.cons hd)).withValue fun found hfound =>
          Datum.addToGroups_fit hfound hd hgroups)
        hxs (s := []) (by simp [Datum.GroupsFit])
      refine hgroups.bind fun groups hgroups => mapM_progresses (fun group hgroup => ?_) hgroups
      have hmembers : (Datum.list group.2.reverse).Fits (.list element) :=
        .list fun d hd => hgroup.2 d (List.mem_reverse.1 hd)
      exact (iht (hscope.cons hmembers)).withValue fun result hresult =>
        (Datum.fieldsFit_of_forall₂ (by simp [Fields.names, groupKeyField, groupValueField])
          (.cons ⟨rfl, hgroup.1⟩ (.cons ⟨rfl, hresult⟩ .nil))).record
  | aggregate hsource helement hresult _ ihs =>
      rw [DenotesIn, denote]
      refine (ihs hscope).withElements hsource.isGood helement fun xs hxs => ?_
      have ht := Result.isSettled_of_elementType hsource.isGood helement
      exact (Datum.Elements.aggregate_progresses false ht hresult hxs).bind fun _ h => h
  | @aggregateOf scopes op source projection type s element p t hsource helement hprojection
      hresult _ ihs ihp =>
      rw [DenotesIn, denote]
      refine (ihs hscope).withElements hsource.isGood helement fun xs hxs => ?_
      have hprojected := Datum.Elements.map_progresses
        (fun d hd => (ihp (hscope.cons hd)).value) hxs
      exact (Datum.Elements.aggregate_progresses true hprojection.isGood hresult
        hprojected).bind fun _ h => h
  | distinct hsource helement _ ihs =>
      rw [DenotesIn, denote]
      refine (ihs hscope).withElements hsource.isGood helement fun xs hxs => ?_
      exact ⟨_, rfl, fun x hx => hxs x (Datum.Elements.mem_of_mem_distinct hx)⟩
  | slice hsource helement _ ihs =>
      rw [DenotesIn, denote]
      refine (ihs hscope).withElements hsource.isGood helement fun xs hxs => ?_
      exact ⟨_, rfl, fun x hx => hxs x (Datum.Elements.mem_of_mem_window hx)⟩
  | one hsource helement _ ihs =>
      rw [DenotesIn, denote]
      refine (ihs hscope).withElements hsource.isGood helement fun xs hxs => ?_
      refine (Datum.Elements.only_progresses hxs).bind fun found hfound => ?_
      cases found with
      | none => exact .inr (.inr rfl)
      | some d => exact hfound d rfl
  | oneOr hsource helement hdefault hunify ihs ihd =>
      rw [DenotesIn, denote]
      have ht := Result.isSettled_of_elementType hsource.isGood helement
      refine (ihs hscope).withElements hsource.isGood helement fun xs hxs => ?_
      refine (Datum.Elements.only_progresses hxs).bind fun found hfound => ?_
      cases found with
      | none =>
          exact (ihd hscope).withValue fun d hd =>
            Datum.fits_unify ht hdefault.isGood hunify (.inr hd)
      | some d => exact Datum.fits_unify ht hdefault.isGood hunify (.inl (hfound d rfl))

end Expr

end RecordAlgebra
