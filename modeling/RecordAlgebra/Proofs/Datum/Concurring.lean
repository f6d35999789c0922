import RecordAlgebra.Proofs.Datum.Elements
import RecordAlgebra.Proofs.Datum.Twins
import RecordAlgebra.Proofs.Sequence.Gathering

/-!
# Operations on twins

No operation tells twins apart: from twins it gives twins, or errors of the same kind. So do
the stages and aggregates of sequences whose elements are twins one by one.
-/

namespace RecordAlgebra

/-- The outcomes are related results, or errors of one kind. -/
def Concur {α β : Type} (R : α → β → Prop) : Except ErrorKind α → Except ErrorKind β → Prop
  | .ok a, .ok b => R a b
  | .error kind, .error other => kind = other
  | _, _ => False

namespace Concur

variable {α β γ δ : Type} {R : α → β → Prop} {S : γ → δ → Prop} {r : Except ErrorKind α}
  {t : Except ErrorKind β}

theorem elim (h : Concur R r t) : (∃ kind, r = .error kind ∧ t = .error kind) ∨
    ∃ a b, r = .ok a ∧ t = .ok b ∧ R a b := by
  cases r with
  | ok a =>
      cases t with
      | ok b => exact .inr ⟨a, b, rfl, rfl, h⟩
      | error kind => exact False.elim h
  | error kind =>
      cases t with
      | ok b => exact False.elim h
      | error other => exact .inl ⟨kind, rfl, congrArg _ (Eq.symm h)⟩

theorem mono {T : α → β → Prop} (h : Concur R r t) (step : ∀ a b, R a b → T a b) :
    Concur T r t := by
  rcases h.elim with ⟨kind, rfl, rfl⟩ | ⟨a, b, rfl, rfl, hab⟩
  · exact rfl
  · exact step a b hab

theorem bind (h : Concur R r t) {f : α → Except ErrorKind γ} {g : β → Except ErrorKind δ}
    (step : ∀ a b, R a b → Concur S (f a) (g b)) : Concur S (r >>= f) (t >>= g) := by
  rcases h.elim with ⟨kind, rfl, rfl⟩ | ⟨a, b, rfl, rfl, hab⟩
  · exact rfl
  · exact step a b hab

theorem map (h : Concur R r t) {f : α → γ} {g : β → δ} (step : ∀ a b, R a b → S (f a) (g b)) :
    Concur S (r.map f) (t.map g) := by
  rcases h.elim with ⟨kind, rfl, rfl⟩ | ⟨a, b, rfl, rfl, hab⟩
  · exact rfl
  · exact step a b hab

theorem of_agrees {r : Except Error α} {t : Except Error β}
    (h : Agrees R r (Datum.ofResult t)) : Concur R (Datum.ofResult r) (Datum.ofResult t) := by
  cases r <;> cases t <;> exact h

theorem of_eq {r t : Except ErrorKind α} (h : r = t) : Concur Eq r t := by
  subst h
  cases r <;> exact rfl

theorem eq {r t : Except ErrorKind α} (h : Concur Eq r t) : r = t := by
  rcases h.elim with ⟨kind, rfl, rfl⟩ | ⟨a, b, rfl, rfl, rfl⟩ <;> rfl

theorem mapM {f : α → Except ErrorKind γ} {g : β → Except ErrorKind δ}
    (step : ∀ a b, R a b → Concur S (f a) (g b)) {as : List α} {bs : List β}
    (h : List.Forall₂ R as bs) : Concur (List.Forall₂ S) (as.mapM f) (bs.mapM g) := by
  induction h with
  | nil => exact .nil
  | cons hab _ ih =>
      rw [List.mapM_cons, List.mapM_cons]
      exact (step _ _ hab).bind fun _ _ hfirst => ih.bind fun _ _ hrest => .cons hfirst hrest

end Concur

namespace Datum

open Value (outlined)

variable {d d' e e' : Datum}

section Operations

theorem field_concurs (h : d.Twin d') (name : String) :
    Concur Twin (d.field name) (d'.field name) := by
  have found {as bs : Fields Datum} (h : Option.Rel Twin (as.get? name) (bs.get? name)) :
      Concur Twin ((record as).field name) ((record bs).field name) := by
    rw [field, field]
    generalize as.get? name = a, bs.get? name = b at h ⊢
    cases h with
    | none => exact rfl
    | some hab => exact hab
  cases d with
  | record as =>
      obtain ⟨bs, rfl, hfields⟩ := twin_record_iff.1 h
      exact found (hfields.get? name)
  | item source as =>
      obtain ⟨bs, rfl, -, hfields⟩ := twin_item_iff.1 h
      exact found (Fields.rel_get?_of_forall₂ hfields name)
  | _ => cases h <;> exact rfl

theorem entries_concurs (h : d.Twin d') : Concur TwinFields d.entries d'.entries := by
  cases d with
  | record as =>
      obtain ⟨bs, rfl, hfields⟩ := twin_record_iff.1 h
      exact hfields
  | item source as =>
      obtain ⟨bs, rfl, hdistinct, hfields⟩ := twin_item_iff.1 h
      exact twinFields_of_forall₂ hdistinct hfields
  | _ => cases h <;> exact rfl

theorem TwinFields.insertAll {as bs as' bs' : Fields Datum} (h : TwinFields as bs)
    (h' : TwinFields as' bs') :
    TwinFields ((Fields.ofList as).insertAll as') ((Fields.ofList bs).insertAll bs') := by
  have hdistinct {as as' : Fields Datum} : ((Fields.ofList as).insertAll as').names.Nodup :=
    Fields.nodup_names_insertAll (Fields.nodup_names_ofList _) _
  have hmem {as as' : Fields Datum} {name : String} :
      name ∈ ((Fields.ofList as).insertAll as').names ↔ name ∈ as.names ∨ name ∈ as'.names := by
    rw [Fields.names_insertAll, Fields.ofList, Fields.names_insertAll]
    simp [Fields.names]
  refine ⟨hdistinct, ?_, fun name a b ha hb => ?_⟩
  · refine (List.perm_ext_iff_of_nodup hdistinct hdistinct).2 fun name => ?_
    rw [hmem, hmem, h.names.mem_iff, h'.names.mem_iff]
  · rw [Fields.get?_insertAll h'.distinct, Fields.get?_ofList h.distinct] at ha
    rw [Fields.get?_insertAll h'.distinct', Fields.get?_ofList h.distinct'] at hb
    have hget := h'.get? name
    generalize as'.get? name = c, bs'.get? name = c' at ha hb hget
    cases hget with
    | none => exact h.twins name a b ha hb
    | some htwin =>
        rw [Option.some_or, Option.some.injEq] at ha hb
        exact ha ▸ hb ▸ htwin

theorem merge_concurs (hd : d.Twin d') (he : e.Twin e') : Concur Twin (merge d e) (merge d' e') :=
  (entries_concurs hd).bind fun _ _ hfields => (entries_concurs he).bind fun _ _ hadditions =>
    twin_record.2 (hfields.insertAll hadditions)

/-- Fields that are written one by one. -/
theorem twin_ofList {as bs : Fields Datum} (h : List.Forall₂ (Namesake Twin) as bs) :
    (record (Fields.ofList as)).Twin (record (Fields.ofList bs)) := by
  have hwritten : List.Forall₂ (Namesake Twin) (Fields.ofList as) (Fields.ofList bs) :=
    Fields.forall₂_insertAll .nil h
  exact twin_record.2 (twinFields_of_forall₂ (Fields.nodup_names_ofList _) hwritten)

/-- Single results with the same outline. -/
theorem concurs_of_outlined {r r' : Except Error Value} (h : outlined r = outlined r')
    (single : ∀ v, r = .ok v → v.isSingle = true) :
    Concur Twin ((ofResult r).map ofValue) ((ofResult r').map ofValue) := by
  cases r with
  | error e =>
      cases r' with
      | error e' => exact Except.error.inj h
      | ok v' => cases h
  | ok v =>
      cases r' with
      | error e' => cases h
      | ok v' =>
          have hsingle := single v rfl
          have houtline : v.outline = v'.outline := Except.ok.inj h
          cases v with
          | float x =>
              cases v' with
              | float y => exact .float (Binary64.oneZero_eq_iff.1 (Value.float.inj houtline))
              | _ => cases houtline
          | list | record | item => cases hsingle
          | _ => cases v' <;> cases houtline; exact .single rfl

/-- Results of an operation that sees no more of its operands than their outlines. -/
theorem concurs_of_outlines {op : Value → Value → Except Error Value}
    (outlines : ∀ v u, outlined (op v.outline u.outline) = outlined (op v u))
    (single : ∀ r, op d.bare e.bare = .ok r → r.isSingle = true) (hd : d.Twin d')
    (he : e.Twin e') : Concur Twin ((ofResult (op d.bare e.bare)).map ofValue)
      ((ofResult (op d'.bare e'.bare)).map ofValue) := by
  refine concurs_of_outlined ?_ single
  rw [← outlines d.bare e.bare, ← outlines d'.bare e'.bare, hd.outline_eq, he.outline_eq]

theorem apply_concurs (op : ArithmeticOp) (hd : d.Twin d') (he : e.Twin e') :
    Concur Twin (apply op d e) (apply op d' e') := by
  by_cases lists : ∃ as bs, op = .add ∧ d = .list as ∧ e = .list bs
  · obtain ⟨as, bs, rfl, rfl, rfl⟩ := lists
    obtain ⟨as', rfl, has⟩ := twin_list_iff.1 hd
    obtain ⟨bs', rfl, hbs⟩ := twin_list_iff.1 he
    exact twin_list.2 (List.rel_append has hbs)
  · have hop {d e : Datum} (h : ¬∃ as bs, op = .add ∧ d = .list as ∧ e = .list bs) :
        apply op d e = (ofResult (Value.apply unseen op d.bare e.bare)).map ofValue := by
      unfold apply
      split
      · exact absurd ⟨_, _, rfl, rfl, rfl⟩ h
      · rfl
    have lists' : ¬∃ as bs, op = .add ∧ d' = .list as ∧ e' = .list bs := by
      rintro ⟨as, bs, rfl, rfl, rfl⟩
      obtain ⟨as', rfl, -⟩ := twin_list_iff.1 hd.symm
      obtain ⟨bs', rfl, -⟩ := twin_list_iff.1 he.symm
      exact lists ⟨as', bs', rfl, rfl, rfl⟩
    rw [hop lists, hop lists']
    refine concurs_of_outlines (Value.apply_outline op) (fun r hr => ?_) hd he
    refine Value.isSingle_of_apply (fun as bs hlists => ?_) hr
    obtain ⟨rfl, has, hbs⟩ := hlists
    cases d <;> cases has
    cases e <;> cases hbs
    exact lists ⟨_, _, rfl, rfl, rfl⟩

theorem negated_concurs (op : NegationOp) (h : d.Twin d') :
    Concur Twin (negated op d) (negated op d') := by
  cases op with
  | not =>
      have hbool : ofResult (d.bare.toBool unseen) = ofResult (d'.bare.toBool unseen) := by
        rw [← Value.toBool_outline, h.outline_eq, Value.toBool_outline]
      rw [negated, negated, h.isNull_eq, hbool]
      split
      · exact .single rfl
      · refine (Concur.of_eq rfl).map ?_
        rintro b _ rfl
        exact .single rfl
  | minus =>
      refine concurs_of_outlined ?_ fun v hv => Value.isSingle_of_negate hv
      rw [← Value.negate_outline, h.outline_eq, Value.negate_outline]

theorem function_concurs (f : ScalarFunction) (h : d.Twin d') :
    Concur Twin (function f d) (function f d') := by
  refine concurs_of_outlined ?_ fun v hv => Value.isSingle_of_function hv
  rw [outlined, outlined, ← Value.function_outline, h.outline_eq, Value.function_outline]

theorem predicate_eq (h : d.Twin d') : d.predicate = d'.predicate := by
  rw [predicate, predicate, ← Value.toPredicate_outline, h.outline_eq, Value.toPredicate_outline]

theorem order_eq (hd : d.Twin d') (he : e.Twin e') : order d e = order d' e' := by
  rw [order, order, ← Value.order_outline, hd.outline_eq, he.outline_eq, Value.order_outline]

theorem compare_concurs (op : ComparisonOp) (hd : d.Twin d') (he : e.Twin e') :
    Concur Twin (compare op d e) (compare op d' e') := by
  have hordered : Concur Twin
      (if d.isNull || e.isNull then .ok .null else (order d e).map fun o => .bool (op.holds o))
      (if d'.isNull || e'.isNull then .ok .null
        else (order d' e').map fun o => .bool (op.holds o)) := by
    rw [hd.isNull_eq, he.isNull_eq, order_eq hd he]
    split
    · exact .single rfl
    · refine (Concur.of_eq rfl).map ?_
      rintro o _ rfl
      exact .single rfl
  cases op with
  | equal =>
      rw [compare, compare, hd.equal_congr he]
      exact .single rfl
  | notEqual =>
      rw [compare, compare, hd.equal_congr he]
      exact .single rfl
  | _ => exact hordered

end Operations

section Aggregates

theorem addToSum_concurs (hd : d.Twin d') (he : e.Twin e') :
    Concur Twin (addToSum d e) (addToSum d' e') := by
  have numbers := apply_concurs .add hd he
  cases he with
  | @single e hsingle => cases e <;> first | exact hd | exact numbers | exact rfl
  | float => exact numbers
  | _ => exact rfl

/-- Means of as many numbers with the same sum. -/
def TwinMean (mean mean' : Value.Mean) : Prop :=
  Binary64.orderKey mean.sum = Binary64.orderKey mean'.sum ∧ mean.count = mean'.count

theorem addToMean_concurs {mean mean' : Value.Mean} (hmean : TwinMean mean mean')
    (h : d.Twin d') : Concur TwinMean (addToMean mean d) (addToMean mean' d') := by
  have added {x y : Float} (hxy : Binary64.orderKey x = Binary64.orderKey y) :
      TwinMean { sum := mean.sum + x, count := mean.count + 1 }
        { sum := mean'.sum + y, count := mean'.count + 1 } :=
    ⟨Binary64.orderKey_add hmean.1 hxy, congrArg (· + 1) hmean.2⟩
  cases h with
  | @single d hsingle => cases d <;> first | exact hmean | exact added rfl | exact rfl
  | float h => exact added h
  | _ => exact rfl

theorem value?_twin {mean mean' : Value.Mean} (h : TwinMean mean mean') :
    (mean.value? = none ∧ mean'.value? = none) ∨
      ∃ v v', mean.value? = some v ∧ mean'.value? = some v' ∧ (ofValue v).Twin (ofValue v') := by
  rw [Value.Mean.value?, Value.Mean.value?, h.2]
  split
  · exact .inl ⟨rfl, rfl⟩
  · exact .inr ⟨_, _, rfl, rfl, .float (Binary64.orderKey_div h.1 _)⟩

/-- The best data so far. -/
def TwinOption : Option Datum → Option Datum → Prop
  | none, none => True
  | some d, some e => d.Twin e
  | _, _ => False

theorem better_concurs (wanted : Ordering) {best best' : Option Datum}
    (hbest : TwinOption best best') (h : d.Twin d') :
    Concur TwinOption (better wanted best d) (better wanted best' d') := by
  unfold better
  rw [h.isNull_eq]
  split
  · exact hbest
  · cases best with
    | none =>
        cases best' with
        | none => exact h
        | some => exact False.elim hbest
    | some current =>
        cases best' with
        | none => exact False.elim hbest
        | some current' =>
            have horder : order d current = order d' current' := order_eq h hbest
            simp only [horder]
            refine (Concur.of_eq rfl).bind ?_
            rintro o _ rfl
            split
            · exact h
            · exact hbest

theorem addToCount_eq (skipNulls : Bool) (n : Nat) (h : d.Twin d') :
    addToCount skipNulls n d = addToCount skipNulls n d' := by
  rw [addToCount, addToCount, ← Value.addToCount_outline, h.outline_eq, Value.addToCount_outline]

end Aggregates

section Gathering

/-- Keys in the same order, as far as they can be ordered at all. -/
theorem orderedAlike_outlines (directions : List Direction) :
    Value.OrderedAlike directions fun as bs => Value.outlines as = Value.outlines bs := by
  constructor
  · intro a b a' b' h h'
    rw [← Value.totalOrderKeys_outline, h, h', Value.totalOrderKeys_outline]
  · intro a b a' b' h h'
    rw [← Value.orderKeys_outline, h, h', Value.orderKeys_outline]

theorem outlines_bares_eq {as bs : List Datum} (h : List.Forall₂ Twin as bs) :
    Value.outlines (bares as) = Value.outlines (bares bs) := by
  rw [bares_eq_map, bares_eq_map, Value.outlines_eq_map, Value.outlines_eq_map, List.map_map,
    List.map_map]
  exact map_eq_map_of_forall₂ (h.imp fun _ _ hab => hab.outline_eq)

/-- Rows of twins with keys that are twins. -/
def TwinRow (row row' : List Datum × Datum) : Prop :=
  List.Forall₂ Twin row.1 row'.1 ∧ row.2.Twin row'.2

theorem sort_concurs (directions : List Direction) {rows rows' : List (List Datum × Datum)}
    (h : List.Forall₂ TwinRow rows rows') :
    Concur (List.Forall₂ Twin) (sort directions rows) (sort directions rows') := by
  refine .of_agrees (Value.sortKeyed_agrees (orderedAlike_outlines directions) ?_)
  refine List.forall₂_map_left_iff.2 (List.forall₂_map_right_iff.2 ?_)
  exact h.imp fun _ _ hrow => ⟨outlines_bares_eq hrow.1, hrow.2⟩

/-- Groups of twins with keys that are twins. -/
def TwinGroup (group group' : Datum × List Datum) : Prop :=
  group.1.Twin group'.1 ∧ List.Forall₂ Twin group.2 group'.2

theorem addToGroups_twin {groups groups' : Groups} (hkey : d.Twin d') (hmember : e.Twin e')
    (h : List.Forall₂ TwinGroup groups groups') :
    List.Forall₂ TwinGroup (addToGroups d e groups) (addToGroups d' e' groups') := by
  induction h with
  | nil => exact .cons ⟨hkey, .cons hmember .nil⟩ .nil
  | @cons group group' rest rest' hgroup hrest ih =>
      obtain ⟨other, members⟩ := group
      obtain ⟨other', members'⟩ := group'
      rw [addToGroups, addToGroups, hkey.sameKey_congr hgroup.1]
      split
      · exact .cons ⟨hgroup.1, .cons hmember hgroup.2⟩ hrest
      · exact .cons hgroup ih

end Gathering

namespace Elements

/-- Sequences that are twins element by element. -/
abbrev Twins : List Element → List Element → Prop := List.Forall₂ (Concur Twin)

variable {xs ys : List Element}

theorem twins_ofData {as bs : List Datum} (h : List.Forall₂ Twin as bs) :
    Twins (ofData as) (ofData bs) :=
  List.forall₂_map_left_iff.2 (List.forall₂_map_right_iff.2 h)

theorem fold_concurs {σ τ : Type} {S : σ → τ → Prop} {f : σ → Datum → Except ErrorKind σ}
    {g : τ → Datum → Except ErrorKind τ}
    (step : ∀ s t d d', S s t → d.Twin d' → Concur S (f s d) (g t d')) {s : σ} {t : τ}
    (hst : S s t) (h : Twins xs ys) : Concur S (fold f s xs) (fold g t ys) := by
  induction h generalizing s t with
  | nil => exact hst
  | @cons x y xs ys hxy _ ih =>
      rcases hxy.elim with ⟨kind, rfl, rfl⟩ | ⟨d, d', rfl, rfl, hd⟩
      · exact rfl
      · exact (step s t d d' hst hd).bind fun _ _ hst' => ih hst'

theorem collect_concurs (h : Twins xs ys) :
    Concur (List.Forall₂ Twin) (collect xs) (collect ys) := by
  induction h with
  | nil => exact .nil
  | @cons x y xs ys hxy _ ih =>
      rcases hxy.elim with ⟨kind, rfl, rfl⟩ | ⟨d, d', rfl, rfl, hd⟩
      · exact rfl
      · exact ih.map fun _ _ hrest => .cons hd hrest

theorem filter_twins {keep keep' : Datum → Except ErrorKind Bool}
    (step : ∀ d d', d.Twin d' → keep d = keep' d') (h : Twins xs ys) :
    Twins (filter keep xs) (filter keep' ys) := by
  induction h with
  | nil => exact .nil
  | @cons x y xs ys hxy _ ih =>
      rcases hxy.elim with ⟨kind, rfl, rfl⟩ | ⟨d, d', rfl, rfl, hd⟩
      · exact .cons rfl ih
      · rw [filter, filter, step d d' hd]
        split
        · exact .cons hd ih
        · exact ih
        · exact .cons rfl ih

theorem map_twins {project project' : Datum → Except ErrorKind Datum}
    (step : ∀ d d', d.Twin d' → Concur Twin (project d) (project' d')) (h : Twins xs ys) :
    Twins (map project xs) (map project' ys) :=
  List.forall₂_map_left_iff.2 <| List.forall₂_map_right_iff.2 <|
    h.imp fun _ _ hxy => hxy.bind step

theorem any_sameKey_eq (h : d.Twin d') {seen seen' : List Datum}
    (hseen : List.Forall₂ Twin seen seen') :
    seen.any (sameKey d) = seen'.any (sameKey d') := by
  induction hseen with
  | nil => rfl
  | cons hab _ ih => rw [List.any_cons, List.any_cons, ih, h.sameKey_congr hab]

theorem distinct_twins {seen seen' : List Datum} (hseen : List.Forall₂ Twin seen seen')
    (h : Twins xs ys) : Twins (distinct seen xs) (distinct seen' ys) := by
  induction h generalizing seen seen' with
  | nil => exact .nil
  | @cons x y xs ys hxy _ ih =>
      rcases hxy.elim with ⟨kind, rfl, rfl⟩ | ⟨d, d', rfl, rfl, hd⟩
      · exact .cons rfl (ih hseen)
      · rw [distinct, distinct, any_sameKey_eq hd hseen]
        split
        · exact ih hseen
        · exact .cons hd (ih (List.rel_append hseen (.cons hd .nil)))

theorem window_twins (start position : Nat) (left : Option Nat) (h : Twins xs ys) :
    Twins (window start position left xs) (window start position left ys) := by
  induction h generalizing position left with
  | nil => exact .nil
  | @cons x y xs ys hxy _ ih =>
      rw [window.eq_def, window.eq_def start position left (y :: ys)]
      simp only
      split
      · exact .nil
      · rcases hxy.elim with ⟨kind, rfl, rfl⟩ | ⟨d, d', rfl, rfl, hd⟩
        · exact .cons rfl (ih _ _)
        · simp only
          split
          · exact .cons hd (ih _ _)
          · exact ih _ _

theorem settle_twins {r t : Except ErrorKind (List Datum)} (h : Concur (List.Forall₂ Twin) r t) :
    Twins (settle r) (settle t) := by
  rcases h.elim with ⟨kind, rfl, rfl⟩ | ⟨as, bs, rfl, rfl, hdata⟩
  · exact .cons rfl .nil
  · exact twins_ofData hdata

theorem only_concurs (h : Twins xs ys) : Concur TwinOption (only xs) (only ys) := by
  cases h with
  | nil => exact True.intro
  | @cons x y xs ys hxy hrest =>
      rcases hxy.elim with ⟨kind, rfl, rfl⟩ | ⟨d, d', rfl, rfl, hd⟩
      · exact rfl
      · cases hrest with
        | nil => exact hd
        | @cons x y xs ys hxy' _ =>
            rcases hxy'.elim with ⟨kind, rfl, rfl⟩ | ⟨_, _, rfl, rfl, -⟩ <;> exact rfl

theorem best_concurs (wanted : Ordering) (h : Twins xs ys) :
    Concur Twin (best wanted xs) (best wanted ys) := by
  have hfold : Concur TwinOption (fold (better wanted) none xs) (fold (better wanted) none ys) :=
    fold_concurs (fun _ _ _ _ hbest hd => better_concurs wanted hbest hd) True.intro h
  refine hfold.bind fun a b hab => ?_
  cases a with
  | none =>
      cases b with
      | none => exact rfl
      | some => exact hab.elim
  | some d =>
      cases b with
      | none => exact hab.elim
      | some d' => exact hab

theorem count_concurs (skipNulls : Bool) (h : Twins xs ys) :
    Concur Twin (count skipNulls xs) (count skipNulls ys) := by
  have hfold : Concur Eq (fold (fun n d => .ok (addToCount skipNulls n d)) 0 xs)
      (fold (fun n d => .ok (addToCount skipNulls n d)) 0 ys) := by
    refine fold_concurs ?_ rfl h
    rintro n _ d d' rfl hd
    exact addToCount_eq skipNulls n hd
  refine hfold.map ?_
  rintro n _ rfl
  exact .single rfl

theorem mean_concurs (h : Twins xs ys) :
    Concur Twin (aggregate .avg projected xs) (aggregate .avg projected ys) := by
  have hfold : Concur TwinMean (fold addToMean {} xs) (fold addToMean {} ys) :=
    fold_concurs (fun _ _ _ _ hmean hd => addToMean_concurs hmean hd) ⟨rfl, rfl⟩ h
  refine hfold.bind fun mean mean' hmean => ?_
  rcases value?_twin hmean with ⟨hnone, hnone'⟩ | ⟨v, v', hv, hv', htwin⟩
  · rw [hnone, hnone']
    exact rfl
  · rw [hv, hv']
    exact htwin

theorem aggregate_concurs (op : AggregateOp) (projected : Bool) (h : Twins xs ys) :
    Concur Twin (aggregate op projected xs) (aggregate op projected ys) := by
  cases op with
  | len => exact count_concurs false h
  | count => exact count_concurs projected h
  | sum => exact fold_concurs (fun _ _ _ _ hsum hd => addToSum_concurs hsum hd) (.single rfl) h
  | avg => exact mean_concurs h
  | min => exact best_concurs .lt h
  | max => exact best_concurs .gt h

end Elements

end Datum

end RecordAlgebra
