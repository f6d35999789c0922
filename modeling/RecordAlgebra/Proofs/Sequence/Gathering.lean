import RecordAlgebra.Proofs.Sequence.Folds

/-!
# Sorting and grouping

Sorting and grouping read all elements first. Sorting looks at values only
through their order, which is that of their bare values, and grouping only
through their keys.
-/

namespace RecordAlgebra

namespace Value

variable {α β : Type} {K : List Value → List Value → Prop} {R : α → β → Prop}
  {directions : List Direction}

/-- Keys that are related are in the same order. -/
structure OrderedAlike (directions : List Direction) (K : List Value → List Value → Prop) :
    Prop where
  total : ∀ a b a' b', K a b → K a' b' →
    totalOrderKeys directions a a' = totalOrderKeys directions b b'
  order : ∀ a b a' b', K a b → K a' b' →
    Datum.ofResult (orderKeys directions a a') = Datum.ofResult (orderKeys directions b b')

theorem orderedAlike_bares (directions : List Direction) :
    OrderedAlike directions fun a b => b = bares a := by
  constructor
  · rintro a _ a' _ rfl rfl
    exact (totalOrderKeys_bare directions a a').symm
  · rintro a _ a' _ rfl rfl
    rw [orderKeys_bare]

/-- Rows with related keys and related values. -/
def RelatedRows (K : List Value → List Value → Prop) (R : α → β → Prop) (a : Keyed α)
    (b : Keyed β) : Prop :=
  K a.keys b.keys ∧ R a.value b.value

section

variable (alike : OrderedAlike directions K)

include alike

theorem insertSorted_related {a : Keyed α} {b : Keyed β} (hab : RelatedRows K R a b)
    {as : List (Keyed α)} {bs : List (Keyed β)} (h : List.Forall₂ (RelatedRows K R) as bs) :
    List.Forall₂ (RelatedRows K R)
      (insertSorted (fun a a' => totalOrderKeys directions a.keys a'.keys == .lt) a as)
      (insertSorted (fun b b' => totalOrderKeys directions b.keys b'.keys == .lt) b bs) := by
  induction h with
  | nil => exact .cons hab .nil
  | cons hfirst hrest ih =>
      rw [insertSorted, insertSorted, alike.total _ _ _ _ hab.1 hfirst.1]
      split
      · exact .cons hfirst ih
      · exact .cons hab (.cons hfirst hrest)

theorem insertAllSorted_related {as : List (Keyed α)} {bs : List (Keyed β)}
    (h : List.Forall₂ (RelatedRows K R) as bs) {done : List (Keyed α)} {done' : List (Keyed β)}
    (hdone : List.Forall₂ (RelatedRows K R) done done') :
    List.Forall₂ (RelatedRows K R)
      (as.foldl (fun sorted a => insertSorted
        (fun a a' => totalOrderKeys directions a.keys a'.keys == .lt) a sorted) done)
      (bs.foldl (fun sorted b => insertSorted
        (fun b b' => totalOrderKeys directions b.keys b'.keys == .lt) b sorted) done') := by
  induction h generalizing done done' with
  | nil => exact hdone
  | cons hab _ ih => exact ih (insertSorted_related alike hab hdone)

theorem insertionSort_related {as : List (Keyed α)} {bs : List (Keyed β)}
    (h : List.Forall₂ (RelatedRows K R) as bs) :
    List.Forall₂ (RelatedRows K R)
      (insertionSort (fun a a' => totalOrderKeys directions a.keys a'.keys == .lt) as)
      (insertionSort (fun b b' => totalOrderKeys directions b.keys b'.keys == .lt) bs) :=
  List.rel_reverse (insertAllSorted_related alike h .nil)

theorem checkNeighbours_related {as : List (Keyed α)} {bs : List (Keyed β)}
    (h : List.Forall₂ (RelatedRows K R) as bs) :
    Datum.ofResult (checkNeighbours directions as) =
      Datum.ofResult (checkNeighbours directions bs) := by
  induction h with
  | nil => rfl
  | cons hab hrest ih =>
      cases hrest with
      | nil => rfl
      | cons hab' hrest =>
          rw [checkNeighbours, checkNeighbours, Datum.ofResult_bind, Datum.ofResult_bind, ih,
            alike.order _ _ _ _ hab.1 hab'.1]

theorem sortKeyed_agrees {as : List (Keyed α)} {bs : List (Keyed β)}
    (h : List.Forall₂ (RelatedRows K R) as bs) :
    Agrees (List.Forall₂ R) (sortKeyed directions as)
      (Datum.ofResult (sortKeyed directions bs)) := by
  have hsorted : List.Forall₂ (RelatedRows K R)
      (insertionSort (fun a a' => totalOrderKeys directions a.keys a'.keys == .lt) as)
      (insertionSort (fun b b' => totalOrderKeys directions b.keys b'.keys == .lt) bs) :=
    insertionSort_related alike h
  have hchecked := World.agrees_of_eq (checkNeighbours_related alike hsorted)
  rw [sortKeyed, sortKeyed, Datum.ofResult_bind]
  refine hchecked.bind fun _ _ _ => ?_
  refine List.forall₂_map_left_iff.2 (List.forall₂_map_right_iff.2 ?_)
  exact hsorted.imp fun _ _ hab => hab.2

end

end Value

namespace World

/-- A row with its keys shows a datum with its keys. -/
def ShowsKeyed (w : World) (row : Value.Keyed Value) (data : List Datum × Datum) : Prop :=
  List.Forall₂ w.Shows row.keys data.1 ∧ w.Shows row.value data.2

theorem ShowsKeyed.mono {w w' : World} {row : Value.Keyed Value} {data : List Datum × Datum}
    (h : w.ShowsKeyed row data) (hw : w.Extends w') : w'.ShowsKeyed row data :=
  ⟨forall₂_shows_mono h.1 hw, h.2.mono hw⟩

theorem sort_agrees {w : World} (directions : List Direction) {rows : List (Value.Keyed Value)}
    {data : List (List Datum × Datum)} (h : List.Forall₂ w.ShowsKeyed rows data) :
    Agrees (List.Forall₂ w.Shows) (Value.sortKeyed directions rows)
      (Datum.sort directions data) := by
  refine Value.sortKeyed_agrees (Value.orderedAlike_bares directions)
    (List.forall₂_map_right_iff.2 ?_)
  exact h.imp fun _ _ hrow => ⟨(bares_eq_of_forall₂ hrow.1).symm, hrow.2⟩

/-- A group shows a group of data. -/
def ShowsGroup (w : World) (group : Value.Key × List Value) (data : Datum × List Datum) : Prop :=
  w.ShowsKey group.1 data.1 ∧ List.Forall₂ w.Shows group.2 data.2

theorem ShowsGroup.mono {w w' : World} {group : Value.Key × List Value}
    {data : Datum × List Datum} (h : w.ShowsGroup group data) (hw : w.Extends w') :
    w'.ShowsGroup group data :=
  ⟨h.1.mono hw, forall₂_shows_mono h.2 hw⟩

end World

theorem addToGroups_eq (key member : Datum) (groups : Datum.Groups) :
    Datum.addToGroups key member groups =
      match groups.findIdx? fun group => Datum.sameKey key group.1 with
      | none => groups ++ [(key, [member])]
      | some position =>
          groups.modify position fun (key, members) => (key, member :: members) := by
  induction groups with
  | nil => rfl
  | cons group rest ih =>
      rw [Datum.addToGroups, List.findIdx?_cons]
      cases Datum.sameKey key group.1 with
      | true => rfl
      | false =>
          rw [ih]
          cases rest.findIdx? fun group => Datum.sameKey key group.1 with
          | none => rfl
          | some position => rfl

theorem forall₂_modify {α β : Type} {R : α → β → Prop} {f : α → α} {g : β → β}
    (step : ∀ a b, R a b → R (f a) (g b)) {as : List α} {bs : List β}
    (h : List.Forall₂ R as bs) (position : Nat) :
    List.Forall₂ R (as.modify position f) (bs.modify position g) := by
  induction h generalizing position with
  | nil => simp
  | cons hab hrest ih =>
      cases position with
      | zero => exact .cons (step _ _ hab) hrest
      | succ position => exact .cons hab (ih position)

section

variable {access : ItemAccess EvalM} (reads : access.ReadsLoaded) {shared : Shared}

include reads

theorem findKey_run {w : World} {key : Value.Key} {d : Datum} (hkey : w.ShowsKey key d)
    {groups : Groups} {data : Datum.Groups} (h : List.Forall₂ w.ShowsGroup groups data) :
    (key.find? access groups).run w =
      (.ok (data.findIdx? fun group => Datum.sameKey d group.1), w) := by
  induction h with
  | nil => rfl
  | @cons group data groups rest hgroup _ ih =>
      obtain ⟨other, members⟩ := group
      rw [Value.Key.find?, EvalM.run_bind_ok (World.keyEqual_run reads hkey hgroup.1),
        List.findIdx?_cons]
      cases Datum.sameKey d data.1 with
      | true => rfl
      | false =>
          simp only [Bool.false_eq_true, if_false]
          rw [EvalM.run_bind_ok ih]
          rfl

theorem computes_addToGroups {w : World} {key : Value.Key} {d : Datum} (hkey : w.ShowsKey key d)
    {v : Value} {e : Datum} (hv : w.Shows v e) {groups : Groups} {data : Datum.Groups}
    (h : List.Forall₂ w.ShowsGroup groups data) :
    Computes shared none w (groups.add access key v) (fun w => List.Forall₂ w.ShowsGroup)
      (.ok (Datum.addToGroups d e data)) := by
  have hfind : Computes shared none w (key.find? access groups) (fun _ => Eq)
      (.ok (data.findIdx? fun group => Datum.sameKey d group.1)) := .of_run_eq
    (fun w' hw => findKey_run reads (World.ShowsKey.mono hkey hw)
      (h.imp fun _ _ hgroup => hgroup.mono hw)) fun _ _ => rfl
  refine hfind.bind_ok (.first none) ?_
  rintro _ w' hw rfl
  rw [addToGroups_eq]
  cases data.findIdx? fun group => Datum.sameKey d group.1 with
  | none =>
      refine .pure fun w'' hw' => ?_
      have hw'' := hw.trans hw'
      exact List.rel_append (h.imp fun _ _ hgroup => hgroup.mono hw'')
        (.cons ⟨World.ShowsKey.mono hkey hw'', .cons (hv.mono hw'') .nil⟩ .nil)
  | some position =>
      refine .pure fun w'' hw' => ?_
      have hw'' := hw.trans hw'
      refine forall₂_modify ?_ (h.imp fun _ _ hgroup => hgroup.mono hw'') position
      exact fun group data hgroup => ⟨hgroup.1, .cons (hv.mono hw'') hgroup.2⟩

end

/-- Actions in a row compute a list. -/
theorem computes_mapM {α β γ δ : Type} {shared : Shared} {start : World} {R : World → α → β → Prop}
    {S : World → γ → δ → Prop} {f : α → EvalM γ} {g : β → Except ErrorKind δ}
    (monoR : ∀ w w' a b, World.Extends w w' → R w a b → R w' a b)
    (monoS : ∀ w w' c d, World.Extends w w' → S w c d → S w' c d)
    (step : ∀ w a b, start.Extends w → R w a b → Computes shared none w (f a) S (g b))
    {as : List α} {bs : List β} (h : List.Forall₂ (R start) as bs) :
    Computes shared none start (as.mapM f) (fun w => List.Forall₂ (S w)) (bs.mapM g) := by
  induction as generalizing start bs with
  | nil =>
      cases h
      exact .pure fun _ _ => .nil
  | cons a as ih =>
      cases h with
      | @cons _ b _ bs hab hrest =>
          rw [List.mapM_cons, List.mapM_cons]
          refine (step start a b (.refl start) hab).bind (.first none) fun c d w hw hcd => ?_
          refine Computes.bind (.first none) (ih (fun w' a b h => step w' a b (hw.trans h))
            (hrest.imp fun _ _ hab => monoR _ _ _ _ hw hab)) fun cs ds w' hw' hrest => ?_
          exact .pure fun w'' hw'' => .cons (monoS _ _ _ _ (hw'.trans hw'') hcd)
            (hrest.imp fun _ _ hcd => monoS _ _ _ _ hw'' hcd)

end RecordAlgebra
