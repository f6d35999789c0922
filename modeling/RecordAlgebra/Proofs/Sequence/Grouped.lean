import RecordAlgebra.Proofs.Item.Coherence
import RecordAlgebra.Proofs.Sequence.Partition
import RecordAlgebra.Proofs.Sequence.Sorted

/-!
# Grouped sequences

Grouping reads its source on the first pull and compares each key with those of the groups so
far. Keys may be items, so to make and compare them may change the state. Whatever the source,
the key and the loaders do, the groups are a partition of the elements by their keys, and the
aggregate is evaluated for one group after the other. The first error is the only element.
-/

namespace RecordAlgebra

namespace EvalM

variable {α β : Type} {J J₁ J' : World → Prop} {m : EvalM α} {f : α → EvalM β}

/-- From every state of the one family the action ends like this, in a state of the other. -/
def Leads (J : World → Prop) (m : EvalM α) (outcome : Except Stop α) (J' : World → Prop) : Prop :=
  ∀ w, J w → ∃ w', m.run w = (outcome, w') ∧ J' w'

theorem Leads.bind {a : α} {outcome : Except Stop β} (h : Leads J m (.ok a) J₁)
    (step : Leads J₁ (f a) outcome J') : Leads J (m >>= f) outcome J' := by
  intro w hw
  obtain ⟨w₁, hrun, hw₁⟩ := h w hw
  obtain ⟨w', hrun', hw'⟩ := step w₁ hw₁
  exact ⟨w', by rw [run_bind_ok hrun, hrun'], hw'⟩

theorem Leads.bind_error {stop : Stop} (h : Leads J m (.error stop) J') :
    Leads J (m >>= f) (.error stop) J' := by
  intro w hw
  obtain ⟨w', hrun, hw'⟩ := h w hw
  exact ⟨w', run_bind_error hrun f, hw'⟩

theorem leads_of_finds {a : α} (h : Finds J (· = a) m) : Leads J m (.ok a) J := by
  intro w hw
  obtain ⟨_, w', hrun, hw', rfl⟩ := h w hw
  exact ⟨w', hrun, hw'⟩

end EvalM

open EvalM (Leads)

/-- A value with what it stands for. -/
structure Meant where
  value : Value
  datum : Datum

namespace Meant

def key (k : Meant) : Value.Key := { value := k.value, digest := k.datum.digest }

/-- Whether the keys of two values are equal. -/
def same (a b : Meant) : Bool := a.datum.sameKey b.datum

theorem same_self {k : Meant} (h : k.datum.IsFormed) : k.same k = true := by
  rw [same, Datum.sameKey, Digest.same_self, h.equal_self, Bool.and_self]

theorem same_swap {a b : Meant} (ha : a.datum.IsFormed) (hb : b.datum.IsFormed)
    (hsources : a.datum.ShareSources b.datum) : b.same a = a.same b := by
  rw [same, same, Datum.sameKey, Datum.sameKey, ha.equal_swap hb hsources]
  congr 1
  exact Bool.eq_iff_iff.2
    ⟨fun h => Digest.same_iff_eq.2 (Digest.same_iff_eq.1 h).symm,
      fun h => Digest.same_iff_eq.2 (Digest.same_iff_eq.1 h).symm⟩

end Meant

/-- No item is held. -/
def Holdings.empty : Holdings where
  fields? _ := none
  names := nofun
  formed := nofun

theorem Holdings.empty_loads (J : World → Prop) : Holdings.empty.Loads J 0 where
  reads _ := nofun
  room _ := nofun

namespace Groups

/-- The groups that are kept for these groups, with the members of each in reverse. -/
def kept (groups : List (Meant × List Value)) : Groups :=
  groups.map fun (key, members) => (key.key, members.reverse)

/-- A value is read into the groups. -/
def gather (access : ItemAccess EvalM) (keyOf : Value → EvalM Value) (groups : Groups)
    (v : Value) : EvalM Groups := do
  let found ← keyOf v
  Groups.add groups access (← found.toKey access) v

theorem kept_addRow (groups : List (Meant × List Value)) (row : Meant × Value) :
    kept (addRow Meant.same groups row) =
      match home? Meant.same groups row.1 with
      | none => kept groups ++ [(row.1.key, [row.2])]
      | some i => (kept groups).modify i fun (key, members) => (key, row.2 :: members) := by
  rw [addRow]
  cases home? Meant.same groups row.1 with
  | none => simp [kept]
  | some i =>
      refine List.ext_getElem? fun j => ?_
      simp only [kept, List.getElem?_map, List.getElem?_modify]
      cases groups[j]? with
      | none => rfl
      | some group =>
          simp only [Option.map_eq_map, Option.map_some]
          split <;> simp

section Keys

variable {held : Holdings} {J : World → Prop} {level : Nat} (loads : held.Loads J level)

include loads

theorem key_equal_finds {a b : Meant} (ha : held.Means a.value a.datum)
    (hb : held.Means b.value b.datum) :
    Finds J (· = a.same b) (a.key.equal ItemAccess.live b.key) := by
  rw [Value.Key.equal, Meant.same, Datum.sameKey]
  show Finds J _ (if a.datum.digest.same b.datum.digest then _ else _)
  cases a.datum.digest.same b.datum.digest with
  | true => exact loads.equal_finds ha hb
  | false => exact .pure rfl

theorem find?_finds {key : Meant} (hkey : held.Means key.value key.datum)
    {groups : List (Meant × List Value)}
    (hgroups : ∀ group ∈ groups, held.Means group.1.value group.1.datum) :
    Finds J (· = home? Meant.same groups key) (key.key.find? ItemAccess.live (kept groups)) := by
  induction groups with
  | nil => exact .pure rfl
  | cons group rest ih =>
      obtain ⟨hgroup, hrest⟩ := List.forall_mem_cons.1 hgroups
      show Finds J _ (Value.Key.find? _ _ ((group.1.key, group.2.reverse) :: kept rest))
      rw [Value.Key.find?, home?, List.findIdx?_cons]
      refine (key_equal_finds loads hkey hgroup).bind fun same hsame => ?_
      rw [hsame]
      cases key.same group.1 with
      | true => exact .pure rfl
      | false => exact (ih hrest).bind fun found hfound => .pure (by rw [hfound]; rfl)

theorem add_finds {row : Meant × Value} (hrow : held.Means row.1.value row.1.datum)
    {groups : List (Meant × List Value)}
    (hgroups : ∀ group ∈ groups, held.Means group.1.value group.1.datum) :
    Finds J (· = kept (addRow Meant.same groups row))
      (Groups.add (kept groups) ItemAccess.live row.1.key row.2) := by
  rw [Groups.add, kept_addRow]
  refine (find?_finds loads hrow hgroups).bind fun found hfound => ?_
  rw [hfound]
  cases home? Meant.same groups row.1 with
  | none => exact .pure rfl
  | some i => exact .pure rfl

end Keys

end Groups

namespace Sequence

/-- Pulling gives values, of each of which the key is found before the next one is pulled, and
then the end or the first error. Whenever a key is compared with those before it, all of them
stand for the same data as they did before. -/
inductive ReadsKeys (keyOf : Value → EvalM Value) :
    List (Meant × Value) → Sequence → (World → Prop) → Except Error (List (Meant × Value)) →
      (World → Prop) → Prop
  | done {before : List (Meant × Value)} {s : Sequence} {J J' : World → Prop}
      (h : Leads J s.next (.ok none) J') : ReadsKeys keyOf before s J (.ok before) J'
  | more {before : List (Meant × Value)} {s rest : Sequence} {J J₁ J₂ J' : World → Prop}
      {v : Value} {key : Meant} {held : Holdings} {level : Nat}
      {outcome : Except Error (List (Meant × Value))}
      (h : Leads J s.next (.ok (some (.ok v, rest))) J₁)
      (hkey : Leads J₁ (keyOf v) (.ok key.value) J₂) (loads : held.Loads J₂ level)
      (hkeys : ∀ row ∈ before ++ [(key, v)], held.Means row.1.value row.1.datum)
      (hrest : ReadsKeys keyOf (before ++ [(key, v)]) rest J₂ outcome J') :
      ReadsKeys keyOf before s J outcome J'
  | broken {before : List (Meant × Value)} {s rest : Sequence} {J J' : World → Prop} {e : Error}
      (h : Leads J s.next (.ok (some (.error e, rest))) J') :
      ReadsKeys keyOf before s J (.error e) J'
  | unkeyed {before : List (Meant × Value)} {s rest : Sequence} {J J₁ J' : World → Prop}
      {v : Value} {e : Error} (h : Leads J s.next (.ok (some (.ok v, rest))) J₁)
      (hkey : Leads J₁ (do (← keyOf v).toKey ItemAccess.live) (.error (.raised e)) J') :
      ReadsKeys keyOf before s J (.error e) J'

namespace ReadsKeys

variable {keyOf : Value → EvalM Value} {before : List (Meant × Value)} {s : Sequence}
  {J J' : World → Prop} {outcome : Except Error (List (Meant × Value))}

/-- The keys that are found are formed, and so equal to themselves. -/
theorem isFormed {rows : List (Meant × Value)} (h : ReadsKeys keyOf before s J outcome J')
    (hrows : outcome = .ok rows) (hbefore : ∀ row ∈ before, row.1.datum.IsFormed) :
    ∀ row ∈ rows, row.1.datum.IsFormed := by
  induction h with
  | done _ =>
      cases hrows
      exact hbefore
  | more _ _ _ hkeys _ ih => exact ih hrows fun row hrow => (hkeys row hrow).isFormed
  | broken _ => cases hrows
  | unkeyed _ _ => cases hrows

end ReadsKeys

/-- What reading into groups ends with. -/
def gathered : Except Error (List (Meant × Value)) → Except Stop Groups
  | .ok rows => .ok (Groups.kept (rows.foldl (addRow Meant.same) []))
  | .error e => .error (.raised e)

theorem gather_step {keyOf : Value → EvalM Value} {before : List (Meant × Value)}
    {J₁ J₂ : World → Prop} {v : Value} {key : Meant} {held : Holdings} {level : Nat}
    (hkey : Leads J₁ (keyOf v) (.ok key.value) J₂) (loads : held.Loads J₂ level)
    (hkeys : ∀ row ∈ before ++ [(key, v)], held.Means row.1.value row.1.datum) :
    Leads J₁ (Groups.gather ItemAccess.live keyOf
        (Groups.kept (before.foldl (addRow Meant.same) [])) v)
      (.ok (Groups.kept ((before ++ [(key, v)]).foldl (addRow Meant.same) []))) J₂ := by
  have hself : ∀ row ∈ before, Meant.same row.1 row.1 = true := fun row hrow =>
    Meant.same_self (hkeys row (List.mem_append_left _ hrow)).isFormed
  have hpartition := IsPartition.nil.foldl hself
  rw [List.nil_append] at hpartition
  have hrow := hkeys (key, v) (List.mem_append_right _ (List.mem_singleton_self _))
  have hgroups : ∀ group ∈ before.foldl (addRow Meant.same) [],
      held.Means group.1.value group.1.datum := by
    intro group hgroup
    obtain ⟨row, hmem, heq⟩ := hpartition.exists_row hgroup
    rw [heq]
    exact hkeys row (List.mem_append_left _ hmem)
  rw [List.foldl_append, List.foldl_cons, List.foldl_nil, Groups.gather]
  refine hkey.bind ((EvalM.leads_of_finds (loads.toKey_finds hrow)).bind ?_)
  exact EvalM.leads_of_finds (Groups.add_finds loads hrow hgroups)

/-- The fold of grouping reads the rows as they are pulled, unless an endless feed goes on for
too long. -/
theorem foldWithin_gather {keyOf : Value → EvalM Value} {before : List (Meant × Value)}
    {s : Sequence} {J J' : World → Prop} {outcome : Except Error (List (Meant × Value))}
    (h : ReadsKeys keyOf before s J outcome J') (steps : Nat) {w : World} (hw : J w) :
    (s.isFinite = false ∧ ((s.foldWithin (Groups.gather ItemAccess.live keyOf) steps
        (Groups.kept (before.foldl (addRow Meant.same) []))).run w).1 = .error .diverged) ∨
      ∃ w', (s.foldWithin (Groups.gather ItemAccess.live keyOf) steps
        (Groups.kept (before.foldl (addRow Meant.same) []))).run w = (gathered outcome, w') ∧
          J' w' := by
  induction h generalizing steps w with
  | done h | broken h =>
      obtain ⟨w₁, hrun, hw₁⟩ := h w hw
      exact (foldWithin_next hrun steps _).imp_right fun hfold => ⟨w₁, hfold, hw₁⟩
  | unkeyed h hkey =>
      obtain ⟨w₁, hrun, hw₁⟩ := h w hw
      refine (foldWithin_next hrun steps _).imp_right ?_
      rintro ⟨left, hfold⟩
      rw [hfold, Groups.gather]
      simp only [← bind_assoc]
      exact hkey.bind_error.bind_error w₁ hw₁
  | more h hkey loads hkeys _ ih =>
      obtain ⟨w₁, hrun, hw₁⟩ := h w hw
      rcases foldWithin_next hrun steps _ with hdiverged | ⟨left, hfold⟩
      · exact .inl hdiverged
      · obtain ⟨w₂, hstep, hw₂⟩ := gather_step hkey loads hkeys w₁ hw₁
        rw [hfold, EvalM.run_bind_ok hstep]
        refine (ih left hw₂).imp_left ?_
        rintro ⟨hrest, hdiverged⟩
        refine ⟨Bool.eq_false_iff.2 fun hfinite => ?_, hdiverged⟩
        rw [isFinite_of_next hfinite hrun] at hrest
        cases hrest

/-- Grouping comes to an end unless it reads an endless feed for too long. -/
def GroupingEnds (keyOf : Value → EvalM Value) (s : Sequence) (w : World) : Prop :=
  s.isFinite = true ∨
    ((s.fold (Groups.gather ItemAccess.live keyOf) []).run w).1 ≠ .error .diverged

theorem fold_gather {keyOf : Value → EvalM Value} {s : Sequence} {J J' : World → Prop}
    {outcome : Except Error (List (Meant × Value))} (h : ReadsKeys keyOf [] s J outcome J')
    {w : World} (hw : J w) (hends : s.GroupingEnds keyOf w) :
    ∃ w', (s.fold (Groups.gather ItemAccess.live keyOf) []).run w = (gathered outcome, w') ∧
      J' w' := by
  rw [GroupingEnds, fold_eq_foldWithin] at hends
  rw [fold_eq_foldWithin]
  refine (foldWithin_gather h patience hw).resolve_left ?_
  rintro ⟨hendless, hdiverged⟩
  rcases hends with hfinite | hends
  · rw [hfinite] at hendless
    cases hendless
  · exact hends hdiverged

end Sequence

namespace Expr

/-- The key of an element. -/
def keyIn (scope : Scope) (key : Expr) (v : Value) : EvalM Value := do
  (← eval ItemAccess.live .empty (.value v :: scope) key).intoValue

theorem gather_keyIn (scope : Scope) (key : Expr) :
    Groups.gather ItemAccess.live (keyIn scope key) = (fun (groups : Groups) v => do
      let found ← (← eval ItemAccess.live .empty (.value v :: scope) key).intoValue
      Groups.add groups ItemAccess.live (← found.toKey ItemAccess.live) v) := by
  funext groups v
  rw [Groups.gather, keyIn, bind_assoc]

/-- The record of a group, whose value is the aggregate with the members as its context. -/
def groupRecord (scope : Scope) (total : Expr) (key : Value) (members : List Value) :
    EvalM Value := do
  let result ← (← eval ItemAccess.live .empty (.value (.list members) :: scope) total).intoValue
  pure (.record [(groupKeyField, key), (groupValueField, result)])

/-- The groups in which the elements come, once all of them are read. -/
def grouped (scope : Scope) (key total : Expr) (s : Sequence) : Sequence :=
  .ofDeferred do
    let groups ← s.fold (Groups.gather ItemAccess.live (keyIn scope key)) []
    groups.mapM fun group => groupRecord scope total group.1.value group.2.reverse

theorem mapM_kept (scope : Scope) (total : Expr) (groups : List (Meant × List Value)) :
    (Groups.kept groups).mapM (fun group =>
      groupRecord scope total group.1.value group.2.reverse) =
        groups.mapM fun group => groupRecord scope total group.1.value group.2 := by
  rw [Groups.kept, List.mapM_map]
  congr 1
  funext group
  simp [Meant.key]

/-- What grouping gives when it is pulled from a state, has read these rows and has come to
another state. It then evaluates the aggregate for one group after the other. -/
structure GroupsRows (scope : Scope) (total : Expr) (rows : List (Meant × Value))
    (J' : World → Prop) (found : Sequence) (w : World) (groups : List (Meant × List Value))
    (w' : World) : Prop where
  read : J' w'
  partition : IsPartition Meant.same rows groups
  records {records : List Value} {w'' : World}
    (h : (groups.mapM fun group => groupRecord scope total group.1.value group.2).run w' =
      (.ok records, w'')) :
    found.Delivers w (records.map .ok) w''
  failure {e : Error} {w'' : World}
    (h : (groups.mapM fun group => groupRecord scope total group.1.value group.2).run w' =
      (.error (.raised e), w'')) :
    found.Delivers w [.error e] w''
  apart (h : ∀ row ∈ rows, ∀ other ∈ rows, row.1.datum.ShareSources other.1.datum) :
    (groups.map Prod.fst).Pairwise fun key other => key.same other = false ∧ other.same key = false
  classes (h : ∀ row ∈ rows, ∀ other ∈ rows, row.1.datum.ShareSources other.1.datum)
    (htrans : ∀ row ∈ rows, ∀ between ∈ rows, ∀ other ∈ rows, row.1.same between.1 = true →
      between.1.same other.1 = true → row.1.same other.1 = true) :
    ∀ row ∈ rows, ∀ other ∈ rows,
      (home? Meant.same groups row.1 = home? Meant.same groups other.1 ↔
        row.1.same other.1 = true)

section Grouped

variable {scope : Scope} {key total : Expr} {s : Sequence} {J J' : World → Prop} {w : World}

theorem grouped_of_error {e : Error} (h : s.ReadsKeys (keyIn scope key) [] J (.error e) J')
    (hw : J w) (hends : s.GroupingEnds (keyIn scope key) w) :
    ∃ w', (grouped scope key total s).Delivers w [.error e] w' ∧ J' w' := by
  obtain ⟨w', hfold, hw'⟩ := Sequence.fold_gather h hw hends
  exact ⟨w', Sequence.delivers_ofDeferred_error (EvalM.run_bind_error hfold _), hw'⟩

theorem grouped_of_rows {rows : List (Meant × Value)}
    (h : s.ReadsKeys (keyIn scope key) [] J (.ok rows) J') (hw : J w)
    (hends : s.GroupingEnds (keyIn scope key) w) :
    ∃ groups w', GroupsRows scope total rows J' (grouped scope key total s) w groups w' := by
  obtain ⟨w', hfold, hw'⟩ := Sequence.fold_gather h hw hends
  have hformed := h.isFormed rfl nofun
  have hself : ∀ row ∈ rows, Meant.same row.1 row.1 = true := fun row hrow =>
    Meant.same_self (hformed row hrow)
  have hpartition := IsPartition.nil.foldl hself
  rw [List.nil_append] at hpartition
  have hrun := EvalM.run_bind_ok hfold fun groups =>
    groups.mapM fun group => groupRecord scope total group.1.value group.2.reverse
  rw [mapM_kept] at hrun
  refine ⟨_, w', hw', hpartition, ?_, ?_, ?_, ?_⟩
  · exact fun h => Sequence.delivers_ofDeferred (hrun.trans h)
  · exact fun h => Sequence.delivers_ofDeferred_error (hrun.trans h)
  · intro hsources
    refine (List.pairwise_map.1 hpartition.apart).imp_of_mem ?_ |> List.pairwise_map.2
    intro group other hgroup hother hapart
    obtain ⟨row, hrow, hkey⟩ := hpartition.exists_row hgroup
    obtain ⟨row', hrow', hkey'⟩ := hpartition.exists_row hother
    have hswap := Meant.same_swap (hformed row hrow) (hformed row' hrow')
      (hsources row hrow row' hrow')
    rw [hkey, hkey'] at hapart ⊢
    exact ⟨hswap.symm.trans hapart, hapart⟩
  · intro hsources htrans row hrow other hother
    refine hpartition.home?_eq_iff (fun row hrow other hother hsame => ?_) htrans hrow hother
    rw [Meant.same_swap (hformed row hrow) (hformed other hother) (hsources row hrow other hother),
      hsame]

end Grouped

/-- Grouping reads all elements with their keys, and gives the groups, a partition of the
elements by their keys, in the order of their first elements. Each record has the key of its
group and the aggregate of its members, around which the bindings are those around the
expression. Where equality of the keys is an equivalence, two elements are in one group exactly
if their keys are equal. The first error is the only element. -/
theorem eval_groupBy_partitions {substitution : Substitution} {scope : Scope} {source : Expr}
    (key total : Expr) (type : DataType) {s : Sequence} {w₀ w₁ : World}
    (hnone : substitution [] = none)
    (hsource : (do (← eval .live (inPart substitution 0) scope source).intoSequence :
      EvalM Sequence).run w₀ = (.ok s, w₁)) :
    (∀ members depth binding, scope.lookup depth = .ok binding →
      Scope.lookup (.value members :: scope) (depth + 1) = .ok binding) ∧
    ∃ found, (eval .live substitution scope (.groupBy source key total type)).run w₀ =
        (.ok (.sequence found), w₁) ∧
      ∀ J J' w, J w → s.GroupingEnds (keyIn scope key) w →
        (∀ rows, s.ReadsKeys (keyIn scope key) [] J (.ok rows) J' →
          ∃ groups w', GroupsRows scope total rows J' found w groups w') ∧
        ∀ e, s.ReadsKeys (keyIn scope key) [] J (.error e) J' →
          ∃ w', found.Delivers w [.error e] w' ∧ J' w' := by
  refine ⟨fun members depth binding h => ?_, grouped scope key total s, ?_, ?_⟩
  · rw [Scope.lookup] at h ⊢
    rw [List.getElem?_cons_succ]
    cases hbinding : scope[depth]? with
    | none => rw [hbinding] at h; cases h
    | some found => rw [hbinding] at h; exact h
  · obtain ⟨output, w₂, houtput, hsequence⟩ := EvalM.exists_of_run_bind hsource
    rw [eval, hnone]
    simp only
    rw [EvalM.run_bind_ok houtput, EvalM.run_bind_ok hsequence, grouped, gather_keyIn]
    simp only [groupRecord]
    rfl
  · intro J J' w hw hends
    exact ⟨fun rows h => grouped_of_rows h hw hends, fun e h => grouped_of_error h hw hends⟩

/-- A whole number and the equal fractional number. -/
theorem eval_groupBy_partitions_numbers :
    let size : Expr := .aggregate .len (.context 0 .any) none .int
    let rows : List (Meant × Value) :=
      [(⟨.int 1, .int 1⟩, .int 1), (⟨.float 1.0, .float 1.0⟩, .float 1.0)]
    ∃ found, (eval .live .empty []
        (.groupBy (.literal (.list [.int 1, .float 1.0])) (.context 0 .any) size .any)).run {} =
          (.ok (.sequence found), {}) ∧
      ∃ groups w', GroupsRows [] size rows (· = {}) found {} groups w' := by
  intro size rows
  have hsource : (do (← eval .live (inPart Substitution.empty 0) []
      (.literal (.list [.int 1, .float 1.0]))).intoSequence : EvalM Sequence).run {} =
        (.ok (.ofValues [.int 1, .float 1.0]), {}) := rfl
  obtain ⟨-, found, hrun, hfound⟩ := eval_groupBy_partitions (.context 0 .any) size .any
    (rfl : Substitution.empty [] = none) hsource
  have leads {α : Type} {m : EvalM α} {a : α} (h : m.run {} = (.ok a, {})) :
      Leads (· = {}) m (.ok a) (· = {}) := by
    rintro _ rfl
    exact ⟨{}, h, rfl⟩
  have loads := Holdings.empty_loads (· = {})
  have hfirst : Holdings.empty.Means (.int 1) (.int 1) := .of_bare rfl rfl
  have hsecond : Holdings.empty.Means (.float 1.0) (.float 1.0) := .of_bare rfl rfl
  have hreads : (Sequence.ofValues [.int 1, .float 1.0]).ReadsKeys
      (keyIn [] (.context 0 .any)) [] (· = {}) (.ok rows) (· = {}) :=
    .more (leads rfl) (leads rfl) loads (List.forall_mem_cons.2 ⟨hfirst, nofun⟩)
      (.more (leads rfl) (leads rfl) loads
        (List.forall_mem_cons.2 ⟨hfirst, List.forall_mem_cons.2 ⟨hsecond, nofun⟩⟩)
        (.done (leads rfl)))
  exact ⟨found, hrun, (hfound (· = {}) (· = {}) {} rfl (.inl rfl)).1 rows hreads⟩

/-- Two of three elements have equal keys, but are in different groups. -/
theorem eval_groupBy_splits :
    let double : Value := .float (.ofBits 0x4340000000000000)
    ∃ found,
      (eval .live .empty [] (.groupBy
        (.literal (.list [.int 9007199254740993, double, .int 9007199254740992]))
        (.context 0 .any) (.aggregate .len (.context 0 .any) none .int) .any)).run {} =
          (.ok (.sequence found), {}) ∧
      found.Delivers {} (List.map .ok
        [.record [(groupKeyField, .int 9007199254740993), (groupValueField, .int 2)],
          .record [(groupKeyField, .int 9007199254740992), (groupValueField, .int 1)]]) {} ∧
      Meant.same ⟨double, .float (.ofBits 0x4340000000000000)⟩
        ⟨.int 9007199254740992, .int 9007199254740992⟩ = true :=
  ⟨_, rfl, Sequence.delivers_ofDeferred rfl, rfl⟩

end Expr

end RecordAlgebra
