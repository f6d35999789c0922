import RecordAlgebra.Proofs.Datum.Concurring
import RecordAlgebra.Proofs.Expr.Denotation

/-!
# Expressions that mean the same

Expressions that are the same but for types and for literals that are twins mean the same: twins
come out of them wherever twins are bound, or errors of the same kind.
-/

namespace RecordAlgebra

open Datum (Twin TwinRow TwinGroup Namesake)
open Datum.Elements (Twins)

namespace Result

def Twin : Result → Result → Prop
  | .value d, .value e => d.Twin e
  | .sequence xs, .sequence ys => Twins xs ys
  | _, _ => False

theorem intoValue_concurs {r t : Result} (h : r.Twin t) :
    Concur Datum.Twin r.intoValue t.intoValue := by
  cases r with
  | value d =>
      cases t with
      | value e => exact h
      | sequence ys => exact h.elim
  | sequence xs =>
      cases t with
      | value e => exact h.elim
      | sequence ys => exact (Datum.Elements.collect_concurs h).map fun _ _ => Datum.twin_list.2

theorem intoSequence_concurs {r t : Result} (h : r.Twin t) :
    Concur Twins r.intoSequence t.intoSequence := by
  cases r with
  | value d =>
      cases t with
      | value e =>
          have hde : d.Twin e := h
          cases d with
          | list as =>
              obtain ⟨bs, rfl, hbs⟩ := Datum.twin_list_iff.1 hde
              exact Datum.Elements.twins_ofData hbs
          | _ => cases hde <;> exact rfl
      | sequence ys => exact h.elim
  | sequence xs =>
      cases t with
      | value e => exact h.elim
      | sequence ys => exact h

end Result

/-- Twins that are bound, or inputs whose data are. -/
def Meaning.Twin : Meaning → Meaning → Prop
  | .value d, .value e => d.Twin e
  | .input as, .input bs => List.Forall₂ Datum.Twin as bs
  | _, _ => False

namespace Expr

/-- The same expressions but for types and literals, whose literals are twins. -/
inductive Twin (lit : Value → Datum) : Expr → Expr → Prop
  | context {depth : Nat} {s t : DataType} : Twin lit (.context depth s) (.context depth t)
  | literal {v u : Value} : (lit v).Twin (lit u) → Twin lit (.literal v) (.literal u)
  | field {a b : Expr} {name : String} {s t : DataType} : Twin lit a b →
      Twin lit (.field a name s) (.field b name t)
  | comparison {op : ComparisonOp} {a b a' b' : Expr} : Twin lit a a' → Twin lit b b' →
      Twin lit (.comparison op a b) (.comparison op a' b')
  | boolean {op : BooleanOp} {as bs : List Expr} : as.length = bs.length →
      (∀ (i : Nat) (h : i < as.length) (h' : i < bs.length), Twin lit as[i] bs[i]) →
      Twin lit (.boolean op as) (.boolean op bs)
  | negation {op : NegationOp} {a b : Expr} : Twin lit a b →
      Twin lit (.negation op a) (.negation op b)
  | arithmetic {op : ArithmeticOp} {a b a' b' : Expr} {s t : DataType} : Twin lit a a' →
      Twin lit b b' → Twin lit (.arithmetic op a b s) (.arithmetic op a' b' t)
  | merge {a b a' b' : Expr} {s t : DataType} : Twin lit a a' → Twin lit b b' →
      Twin lit (.merge a b s) (.merge a' b' t)
  | record {as bs : List (String × Expr)} {s t : DataType} : as.length = bs.length →
      (∀ (i : Nat) (h : i < as.length) (h' : i < bs.length), as[i].1 = bs[i].1) →
      (∀ (i : Nat) (h : i < as.length) (h' : i < bs.length), Twin lit as[i].2 bs[i].2) →
      Twin lit (.record as s) (.record bs t)
  | function {f : ScalarFunction} {a b : Expr} : Twin lit a b →
      Twin lit (.function f a) (.function f b)
  | filter {a b a' b' : Expr} : Twin lit a a' → Twin lit b b' →
      Twin lit (.filter a b) (.filter a' b')
  | map {a b a' b' : Expr} {s t : DataType} : Twin lit a a' → Twin lit b b' →
      Twin lit (.map a b s) (.map a' b' t)
  | sort {a b : Expr} {as bs : List (Expr × Direction)} : Twin lit a b →
      as.map Prod.snd = bs.map Prod.snd →
      (∀ (i : Nat) (h : i < as.length) (h' : i < bs.length), Twin lit as[i].1 bs[i].1) →
      Twin lit (.sort a as) (.sort b bs)
  | groupBy {a b c a' b' c' : Expr} {s t : DataType} : Twin lit a a' → Twin lit b b' →
      Twin lit c c' → Twin lit (.groupBy a b c s) (.groupBy a' b' c' t)
  | aggregateAll {op : AggregateOp} {a b : Expr} {s t : DataType} : Twin lit a b →
      Twin lit (.aggregate op a none s) (.aggregate op b none t)
  | aggregateOf {op : AggregateOp} {a b a' b' : Expr} {s t : DataType} : Twin lit a a' →
      Twin lit b b' → Twin lit (.aggregate op a (some b) s) (.aggregate op a' (some b') t)
  | distinct {a b : Expr} : Twin lit a b → Twin lit (.distinct a) (.distinct b)
  | slice {a b : Expr} {start : Nat} {stop : Option Nat} : Twin lit a b →
      Twin lit (.slice a start stop) (.slice b start stop)
  | one {a b : Expr} {s t : DataType} : Twin lit a b → Twin lit (.one a none s) (.one b none t)
  | oneOr {a b a' b' : Expr} {s t : DataType} : Twin lit a a' → Twin lit b b' →
      Twin lit (.one a (some b) s) (.one a' (some b') t)

variable {lit : Value → Datum}

/-- Wherever twins are bound, the meanings are twins. -/
def MeansAlike (lit : Value → Datum) (e e' : Expr) : Prop :=
  ∀ scope scope', List.Forall₂ Meaning.Twin scope scope' →
    Concur Result.Twin (denote lit scope e) (denote lit scope' e')

section Parts

variable {scope scope' : List Meaning} {e e' : Expr}

theorem MeansAlike.value (h : MeansAlike lit e e') (hscope : List.Forall₂ Meaning.Twin scope scope') :
    Concur Datum.Twin (do (← denote lit scope e).intoValue)
      (do (← denote lit scope' e').intoValue) :=
  (h scope scope' hscope).bind fun _ _ => Result.intoValue_concurs

theorem MeansAlike.withValue {γ δ : Type} {S : γ → δ → Prop} (h : MeansAlike lit e e')
    (hscope : List.Forall₂ Meaning.Twin scope scope') {f : Datum → Except ErrorKind γ}
    {g : Datum → Except ErrorKind δ} (step : ∀ d d', d.Twin d' → Concur S (f d) (g d')) :
    Concur S (do f (← (← denote lit scope e).intoValue))
      (do g (← (← denote lit scope' e').intoValue)) :=
  (h scope scope' hscope).bind fun _ _ hr => (Result.intoValue_concurs hr).bind step

theorem MeansAlike.withSequence {γ δ : Type} {S : γ → δ → Prop} (h : MeansAlike lit e e')
    (hscope : List.Forall₂ Meaning.Twin scope scope')
    {f : List Datum.Element → Except ErrorKind γ} {g : List Datum.Element → Except ErrorKind δ}
    (step : ∀ xs ys, Twins xs ys → Concur S (f xs) (g ys)) :
    Concur S (do f (← (← denote lit scope e).intoSequence))
      (do g (← (← denote lit scope' e').intoSequence)) :=
  (h scope scope' hscope).bind fun _ _ hr => (Result.intoSequence_concurs hr).bind step

theorem bound_element {d d' : Datum} (hd : d.Twin d')
    (hscope : List.Forall₂ Meaning.Twin scope scope') :
    List.Forall₂ Meaning.Twin (.value d :: scope) (.value d' :: scope') :=
  .cons hd hscope

theorem concurs_value {r t : Except ErrorKind Datum} (h : Concur Datum.Twin r t) :
    Concur Result.Twin (do return .value (← r)) (do return .value (← t)) :=
  h.bind fun _ _ hab => hab

theorem operands_concur {op : BooleanOp} {as bs : List Expr} (sawNull : Bool)
    (h : List.Forall₂ (MeansAlike lit) as bs) (hscope : List.Forall₂ Meaning.Twin scope scope') :
    Concur Datum.Twin (denoteOperands lit scope op sawNull as)
      (denoteOperands lit scope' op sawNull bs) := by
  induction h generalizing sawNull with
  | nil =>
      cases sawNull <;> exact .single rfl
  | @cons a b as bs hab _ ih =>
      rw [denoteOperands, denoteOperands]
      refine hab.withValue hscope fun d d' hd => ?_
      cases hd with
      | @single d hsingle =>
          cases d with
          | bool b =>
              simp only
              split
              · exact .single rfl
              · exact ih sawNull
          | null => exact ih true
          | _ => exact rfl
      | _ => exact rfl

theorem fields_concur {as bs : List (String × Expr)}
    (h : List.Forall₂ (fun a b => a.1 = b.1 ∧ MeansAlike lit a.2 b.2) as bs)
    (hscope : List.Forall₂ Meaning.Twin scope scope') :
    Concur (List.Forall₂ (Namesake Datum.Twin)) (denoteFields lit scope as)
      (denoteFields lit scope' bs) := by
  induction h with
  | nil => exact .nil
  | @cons a b as bs hab _ ih =>
      obtain ⟨name, a⟩ := a
      obtain ⟨_, b⟩ := b
      obtain ⟨rfl, hab⟩ := hab
      rw [denoteFields, denoteFields]
      refine hab.withValue hscope fun d d' hd => ih.bind fun _ _ hrest => ?_
      exact .cons ⟨rfl, hd⟩ hrest

theorem keys_concur {as bs : List (Expr × Direction)}
    (h : List.Forall₂ (fun a b => MeansAlike lit a.1 b.1) as bs)
    (hscope : List.Forall₂ Meaning.Twin scope scope') :
    Concur (List.Forall₂ Datum.Twin) (denoteKeys lit scope as) (denoteKeys lit scope' bs) := by
  induction h with
  | nil => exact .nil
  | @cons a b as bs hab _ ih =>
      rw [denoteKeys, denoteKeys]
      exact hab.withValue hscope fun d d' hd => ih.bind fun _ _ hrest => .cons hd hrest

theorem elements_map {a b : Expr} (h : MeansAlike lit a b)
    (hscope : List.Forall₂ Meaning.Twin scope scope') {xs ys : List Datum.Element}
    (hxs : Twins xs ys) :
    Twins
      (Datum.Elements.map (fun d => do (← denote lit (.value d :: scope) a).intoValue) xs)
      (Datum.Elements.map (fun d => do (← denote lit (.value d :: scope') b).intoValue) ys) :=
  Datum.Elements.map_twins (fun _ _ hd => h.value (bound_element hd hscope)) hxs

end Parts

section Nodes

variable {source source' part part' total total' : Expr}

theorem field_meansAlike (h : MeansAlike lit part part') (name : String) (s t : DataType) :
    MeansAlike lit (.field part name s) (.field part' name t) := by
  intro scope scope' hscope
  rw [denote, denote]
  exact h.withValue hscope fun _ _ hd => concurs_value (Datum.field_concurs hd name)

theorem comparison_meansAlike (h : MeansAlike lit source source') (h' : MeansAlike lit part part')
    (op : ComparisonOp) :
    MeansAlike lit (.comparison op source part) (.comparison op source' part') := by
  intro scope scope' hscope
  rw [denote, denote]
  refine h.withValue hscope fun _ _ hd => h'.withValue hscope fun _ _ he => ?_
  exact concurs_value (Datum.compare_concurs op hd he)

theorem arithmetic_meansAlike (h : MeansAlike lit source source') (h' : MeansAlike lit part part')
    (op : ArithmeticOp) (s t : DataType) :
    MeansAlike lit (.arithmetic op source part s) (.arithmetic op source' part' t) := by
  intro scope scope' hscope
  rw [denote, denote]
  refine h.withValue hscope fun _ _ hd => h'.withValue hscope fun _ _ he => ?_
  exact concurs_value (Datum.apply_concurs op hd he)

theorem merge_meansAlike (h : MeansAlike lit source source') (h' : MeansAlike lit part part')
    (s t : DataType) : MeansAlike lit (.merge source part s) (.merge source' part' t) := by
  intro scope scope' hscope
  rw [denote, denote]
  refine h.withValue hscope fun _ _ hd => h'.withValue hscope fun _ _ he => ?_
  exact concurs_value (Datum.merge_concurs hd he)

theorem filter_meansAlike (h : MeansAlike lit source source') (h' : MeansAlike lit part part') :
    MeansAlike lit (.filter source part) (.filter source' part') := by
  intro scope scope' hscope
  rw [denote, denote]
  refine h.withSequence hscope fun xs ys hxs => ?_
  refine Datum.Elements.filter_twins (fun d d' hd => Concur.eq ?_) hxs
  exact h'.withValue (bound_element hd hscope) fun _ _ hresult =>
    .of_eq (Datum.predicate_eq hresult)

theorem sort_meansAlike (h : MeansAlike lit source source') {as bs : List (Expr × Direction)}
    (hdirections : as.map Prod.snd = bs.map Prod.snd)
    (hkeys : List.Forall₂ (fun a b => MeansAlike lit a.1 b.1) as bs) :
    MeansAlike lit (.sort source as) (.sort source' bs) := by
  intro scope scope' hscope
  rw [denote, denote, hdirections]
  refine h.withSequence hscope fun xs ys hxs => Datum.Elements.settle_twins ?_
  refine (Datum.Elements.fold_concurs (S := List.Forall₂ TwinRow) ?_ .nil hxs).bind ?_
  · intro rows rows' d d' hrows hd
    refine (keys_concur hkeys (bound_element hd hscope)).bind fun _ _ hfound => ?_
    exact .cons ⟨hfound, hd⟩ hrows
  · exact fun _ _ hrows => Datum.sort_concurs _ (List.rel_reverse hrows)

theorem groupBy_meansAlike (h : MeansAlike lit source source') (hkey : MeansAlike lit part part')
    (htotal : MeansAlike lit total total') (s t : DataType) :
    MeansAlike lit (.groupBy source part total s) (.groupBy source' part' total' t) := by
  intro scope scope' hscope
  rw [denote, denote]
  refine h.withSequence hscope fun xs ys hxs => Datum.Elements.settle_twins ?_
  refine (Datum.Elements.fold_concurs (S := List.Forall₂ TwinGroup) ?_ .nil hxs).bind ?_
  · intro groups groups' d d' hgroups hd
    refine hkey.withValue (bound_element hd hscope) fun _ _ hfound => ?_
    exact Datum.addToGroups_twin hfound hd hgroups
  · refine fun _ _ hgroups => .mapM (fun group group' hgroup => ?_) hgroups
    have hmembers := Datum.twin_list.2 (List.rel_reverse hgroup.2)
    refine htotal.withValue (bound_element hmembers hscope) fun d d' hd => ?_
    refine Datum.twin_record.2 (Datum.twinFields_of_forall₂ ?_ ?_)
    · simp [Fields.names, groupKeyField, groupValueField]
    · exact .cons ⟨rfl, hgroup.1⟩ (.cons ⟨rfl, hd⟩ .nil)

theorem aggregate_meansAlike (h : MeansAlike lit source source') (op : AggregateOp)
    (s t : DataType) :
    MeansAlike lit (.aggregate op source none s) (.aggregate op source' none t) := by
  intro scope scope' hscope
  rw [denote, denote]
  refine h.withSequence hscope fun xs ys hxs => ?_
  exact concurs_value (Datum.Elements.aggregate_concurs op false hxs)

theorem aggregateOf_meansAlike (h : MeansAlike lit source source') (h' : MeansAlike lit part part')
    (op : AggregateOp) (s t : DataType) :
    MeansAlike lit (.aggregate op source (some part) s) (.aggregate op source' (some part') t) := by
  intro scope scope' hscope
  rw [denote, denote]
  refine h.withSequence hscope fun xs ys hxs => ?_
  exact concurs_value (Datum.Elements.aggregate_concurs op true (elements_map h' hscope hxs))

theorem one_meansAlike (h : MeansAlike lit source source') (s t : DataType) :
    MeansAlike lit (.one source none s) (.one source' none t) := by
  intro scope scope' hscope
  rw [denote, denote]
  refine h.withSequence hscope fun xs ys hxs => ?_
  refine (Datum.Elements.only_concurs hxs).bind fun a b hab => ?_
  cases a with
  | none =>
      cases b with
      | none => exact rfl
      | some => exact hab.elim
  | some d =>
      cases b with
      | none => exact hab.elim
      | some d' => exact hab

theorem oneOr_meansAlike (h : MeansAlike lit source source') (h' : MeansAlike lit part part')
    (s t : DataType) :
    MeansAlike lit (.one source (some part) s) (.one source' (some part') t) := by
  intro scope scope' hscope
  rw [denote, denote]
  refine h.withSequence hscope fun xs ys hxs => ?_
  refine (Datum.Elements.only_concurs hxs).bind fun a b hab => ?_
  cases a with
  | none =>
      cases b with
      | none => exact h'.withValue hscope fun _ _ hd => hd
      | some => exact hab.elim
  | some d =>
      cases b with
      | none => exact hab.elim
      | some d' => exact hab

theorem context_meansAlike (depth : Nat) (s t : DataType) :
    MeansAlike lit (.context depth s) (.context depth t) := by
  intro scope scope' hscope
  rw [denote, denote]
  induction hscope generalizing depth with
  | nil => exact rfl
  | @cons meaning meaning' scope scope' hmeaning _ ih =>
      cases depth with
      | succ depth => exact ih depth
      | zero =>
          cases meaning with
          | value d =>
              cases meaning' with
              | value d' => exact hmeaning
              | input data' => exact hmeaning.elim
          | input data =>
              cases meaning' with
              | value d' => exact hmeaning.elim
              | input data' => exact Datum.Elements.twins_ofData hmeaning

end Nodes

/-- Twins mean the same wherever twins are bound. -/
theorem Twin.meansAlike {e e' : Expr} (h : Twin lit e e') : MeansAlike lit e e' := by
  induction h with
  | context => exact context_meansAlike _ _ _
  | literal h =>
      intro scope scope' _
      rw [denote, denote]
      exact h
  | field _ ih => exact field_meansAlike ih _ _ _
  | comparison _ _ ih ih' => exact comparison_meansAlike ih ih' _
  | boolean hlength _ ih =>
      intro scope scope' hscope
      rw [denote, denote]
      exact concurs_value
        (operands_concur false (List.forall₂_iff_get.2 ⟨hlength, ih⟩) hscope)
  | @negation op _ _ _ ih =>
      intro scope scope' hscope
      rw [denote, denote]
      exact ih.withValue hscope fun _ _ hd => concurs_value (Datum.negated_concurs op hd)
  | arithmetic _ _ ih ih' => exact arithmetic_meansAlike ih ih' _ _ _
  | merge _ _ ih ih' => exact merge_meansAlike ih ih' _ _
  | @record as bs _ _ hlength hnames _ ih =>
      intro scope scope' hscope
      rw [denote, denote]
      have hfields : List.Forall₂ (fun a b => a.1 = b.1 ∧ MeansAlike lit a.2 b.2) as bs :=
        List.forall₂_iff_get.2 ⟨hlength, fun i hi hi' => ⟨hnames i hi hi', ih i hi hi'⟩⟩
      exact (fields_concur hfields hscope).bind fun _ _ h => Datum.twin_ofList h
  | @function f _ _ _ ih =>
      intro scope scope' hscope
      rw [denote, denote]
      exact ih.withValue hscope fun _ _ hd => concurs_value (Datum.function_concurs f hd)
  | filter _ _ ih ih' => exact filter_meansAlike ih ih'
  | map _ _ ih ih' =>
      intro scope scope' hscope
      rw [denote, denote]
      exact ih.withSequence hscope fun _ _ hxs => elements_map ih' hscope hxs
  | sort _ hdirections _ ih ih' =>
      refine sort_meansAlike ih hdirections (List.forall₂_iff_get.2 ⟨?_, ih'⟩)
      simpa using congrArg List.length hdirections
  | groupBy _ _ _ ih ih' ih'' => exact groupBy_meansAlike ih ih' ih'' _ _
  | aggregateAll _ ih => exact aggregate_meansAlike ih _ _ _
  | aggregateOf _ _ ih ih' => exact aggregateOf_meansAlike ih ih' _ _ _
  | distinct _ ih =>
      intro scope scope' hscope
      rw [denote, denote]
      exact ih.withSequence hscope fun _ _ hxs => Datum.Elements.distinct_twins .nil hxs
  | slice _ ih =>
      intro scope scope' hscope
      rw [denote, denote]
      exact ih.withSequence hscope fun _ _ hxs => Datum.Elements.window_twins _ _ _ hxs
  | one _ ih => exact one_meansAlike ih _ _
  | oneOr _ _ ih ih' => exact oneOr_meansAlike ih ih' _ _

end Expr

end RecordAlgebra
