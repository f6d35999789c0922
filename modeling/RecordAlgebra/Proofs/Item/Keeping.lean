import RecordAlgebra.Item.Access
import RecordAlgebra.Proofs.Eval.Keeping

/-!
# Items that use up nothing

Items change in four steps: a loader starts, it is counted, a field is assigned and a
field that waits is given its loaded value. What all four keep is kept by whatever is
done with items at any level.
-/

namespace RecordAlgebra

/-- The state in which the loader of a field has just started. -/
def World.startLoading (w : World) (ref : ItemRef) (name : String) : World :=
  { w with history := .loading ref.cell name :: w.history }

/-- The state in which a field has just been assigned. -/
def World.assignSlot (w : World) (ref : ItemRef) (name : String) (v : Value) : World :=
  World.setSlot { w with history := .assigned ref.cell name v :: w.history } ref name (.resolved v)

/-- The steps in which items change keep what is known of the state. -/
structure World.KeptByItems (I : World → Prop) : Prop where
  counted {w : World} (h : I w) (id : Nat) : I { w with calls := w.calls.modify id (· + 1) }
  assigned {w : World} {ref : ItemRef} {name : String} {slot : Slot} (h : I w)
    (hslot : w.slot? ref name = some slot) (v : Value) : I (w.assignSlot ref name v)
  started {w : World} {ref : ItemRef} {name : String} {loader : Loader} (h : I w)
    (hslot : w.slot? ref name = some (.deferred loader)) : I (w.startLoading ref name)
  loaded {w : World} {ref : ItemRef} {name : String} {loader : Loader} (h : I w)
    (hslot : w.slot? ref name = some (.deferred loader)) (v : Value) :
    I (w.setSlot ref name (.resolved v))

/-- The steps in which items change use up nothing. While a field is loaded, another member
of the family says what is known since then. -/
structure Allowance.KeptByItems {ι : Type} (F : ι → Allowance) : Prop where
  counted {i : ι} {k : Nat} {w : World} (h : (F i).holds k w) (id : Nat) :
    (F i).holds k { w with calls := w.calls.modify id (· + 1) }
  assigned {i : ι} {k : Nat} {w : World} {ref : ItemRef} {name : String} {slot : Slot}
    (h : (F i).holds k w) (hslot : w.slot? ref name = some slot) (v : Value) :
    (F i).holds k (w.assignSlot ref name v)
  loading {i : ι} {k : Nat} {w : World} {ref : ItemRef} {name : String} {loader : Loader}
    (h : (F i).holds k w) (hslot : w.slot? ref name = some (.deferred loader)) :
    ∃ j l, (F j).holds l (w.startLoading ref name) ∧ (F j).Within l (F i) k ∧
      ∀ w' current v, (F j).holds l w' → w'.slot? ref name = some (.deferred current) →
        (F i).holds k (w'.setSlot ref name (.resolved v))

theorem Allowance.keptByItems_of_steps {A : Allowance}
    (h : ∀ k, World.KeptByItems (A.holds k)) : Allowance.KeptByItems fun _ : Unit => A where
  counted hw id := (h _).counted hw id
  assigned hw hslot v := (h _).assigned hw hslot v
  loading hw hslot :=
    ⟨(), _, (h _).started hw hslot, .refl A _, fun _ _ v hw' hslot' => (h _).loaded hw' hslot' v⟩

namespace Item

section Reading

variable {A : Allowance} {reader : ItemRef → String → EvalM Value}
  (reads : ∀ ref name, Spends A 0 (fun _ => True) (reader ref name))

include reads

theorem readAll_spends (ref : ItemRef) (names : List String) :
    Spends A 0 (fun _ => True) (readAll reader ref names) := by
  induction names with
  | nil => exact .pure trivial
  | cons name rest ih => exact (reads ref name).first fun v _ => ih.map fun _ _ => trivial

theorem identity?_spends (ref : ItemRef) :
    Spends A 0 (fun _ => True) (identity? reader ref) := by
  rw [identity?]
  split
  · exact (readAll_spends reads ref _).map fun _ _ => trivial
  · exact .pure trivial

theorem keyFields_spends (ref : ItemRef) :
    Spends A 0 (fun _ => True) (keyFields reader ref) := by
  refine (identity?_spends reads ref).first fun found _ => ?_
  cases found with
  | some fields => exact .pure trivial
  | none => exact readAll_spends reads ref _

theorem equalByValues_spends {equalValues : ItemRef → ItemRef → EvalM Bool}
    (hvalues : ∀ a b, Spends A 0 (fun _ => True) (equalValues a b)) (a b : ItemRef) :
    Spends A 0 (fun _ => True) (do
      let left ← EvalM.attempt (entries reader a)
      let right ← EvalM.attempt (entries reader b)
      match left, right with
      | .ok left, .ok right => Value.equalEntries equalValues left right
      | _, _ => pure false) := by
  refine (readAll_spends reads a a.schema.names).attempt.first fun left _ => ?_
  refine (readAll_spends reads b b.schema.names).attempt.first fun right _ => ?_
  split
  · exact equalEntries_spends hvalues _ _
  · exact .pure trivial

theorem equal_spends {equalValues : ItemRef → ItemRef → EvalM Bool}
    (hvalues : ∀ a b, Spends A 0 (fun _ => True) (equalValues a b)) (a b : ItemRef) :
    Spends A 0 (fun _ => True) (equal reader equalValues a b) := by
  have hread (ref : ItemRef) (names : List String) := (readAll_spends reads ref names).attempt
  have byValues := equalByValues_spends reads hvalues a b
  rw [equal]
  split
  · exact .pure trivial
  · split
    · refine (hread a _).first fun left _ => (hread b _).first fun right _ => ?_
      split
      · split
        · exact equalEntries_spends hvalues _ _
        · exact byValues
      · exact .pure trivial
    · exact byValues

theorem digest_spends {digests : ItemRef → EvalM Digest}
    (hvalues : ∀ ref, Spends A 0 (fun _ => True) (digests ref)) (ref : ItemRef) :
    Spends A 0 (fun _ => True) (digest reader digests ref) :=
  (keyFields_spends reads ref).first fun fields _ =>
    (digestEntries_spends hvalues fields).map fun _ _ => trivial

end Reading

variable {ι : Type} {F : ι → Allowance} (steps : Allowance.KeptByItems F)
  (admits : ∀ i, (F i).AdmitsFailures)

include steps admits

theorem assign_spends (i : ι) (ref : ItemRef) (name : String) (v : Value) :
    Spends (F i) 0 (fun _ => True) (assign ref name v) := by
  refine .getAt fun k w hw => ?_
  cases hslot : w.slot? ref name with
  | none =>
      exact Spends.raise (n := 0) (P := fun _ => True)
        (admits i _ (by rw [Error.kind_attach]; nofun)) k w hw
  | some slot => exact ⟨steps.assigned hw hslot v, trivial⟩

theorem assignAll_spends (i : ι) (ref : ItemRef) (row : Row) :
    Spends (F i) 0 (fun _ => True) (assignAll ref row) := by
  induction row with
  | nil => exact .pure trivial
  | cons field rest ih => exact (assign_spends steps admits i ref _ _).first fun _ _ => ih

theorem read_spends {run : Loader → ItemRef → EvalM Value}
    (runs : ∀ i loader ref, Spends (F i) 0 (fun _ => True) (run loader ref)) (i : ι) (ref : ItemRef) (name : String) :
    Spends (F i) 0 (fun _ => True) (read run ref name) := by
  refine .getAt fun k w hw => ?_
  cases hslot : w.slot? ref name with
  | none =>
      exact Spends.raise (n := 0) (P := fun _ => True)
        (admits i _ (by rw [Error.kind_attach]; nofun)) k w hw
  | some slot =>
      cases slot with
      | resolved v => exact ⟨hw, trivial⟩
      | deferred loader =>
          obtain ⟨j, l, hstarted, hwithin, hloaded⟩ := steps.loading hw hslot
          have hends := runs j loader ref l _ hstarted
          have hrecord : (record (.loading ref.cell name)).run w =
              (.ok (), w.startLoading ref name) := rfl
          simp only
          rw [EvalM.run_bind_ok hrecord, EvalM.run_bind]
          rcases hrun : (run loader ref).run (w.startLoading ref name) with ⟨(e | _) | v, w'⟩ <;>
            rw [hrun] at hends
          · exact ⟨hwithin.holds w' hends.1, hwithin.error e hends.2⟩
          · exact hwithin.stuck w' hends
          · simp only
            rw [EvalM.run_bind_ok (EvalM.run_get w')]
            split
            · next current hcurrent =>
                split
                · exact ⟨hloaded w' current v hends.1 hcurrent, trivial⟩
                · exact ⟨hwithin.holds w' hends.1, trivial⟩
            · exact ⟨hwithin.holds w' hends.1, trivial⟩

theorem load_spends {access : ItemAccess EvalM} (i : ι) (keeps : access.Keeps (F i))
    (loader : Loader) (ref : ItemRef) :
    Spends (F i) 0 (fun _ => True)
      (load (fun e v => do (← e.runValue access v).intoValue) loader ref) := by
  have hcounted : Spends (F i) 0 (fun _ => True)
      (modify fun w => { w with calls := w.calls.modify loader.id (· + 1) } : EvalM PUnit) :=
    .modified fun k w hw => steps.counted hw loader.id
  refine hcounted.first fun _ _ => (assignAll_spends steps admits i ref loader.assign).first fun _ _ => ?_
  exact (Expr.runValue_spends (admits i) keeps loader.body (.item ref)).last fun _ houtput =>
    houtput.intoValue

end Item

namespace ItemAccess

variable {ι : Type} {F : ι → Allowance} (steps : Allowance.KeptByItems F)
  (admits : ∀ i, (F i).AdmitsFailures)

include steps admits

theorem atLevel_keeps (level : Nat) (i : ι) : (atLevel level).Keeps (F i) := by
  induction level generalizing i with
  | zero => exact ⟨fun _ _ => .diverge, fun _ => .diverge, fun _ _ => .diverge, fun _ => .diverge, rfl⟩
  | succ level ih =>
      have runs (j : ι) := Item.load_spends steps admits j (ih j)
      have reads := Item.read_spends steps admits runs i
      exact ⟨reads, fun ref => Item.readAll_spends reads ref _, Item.equal_spends reads (ih i).equal,
        Item.digest_spends reads (ih i).digest, rfl⟩

/-- Access to items keeps what the steps of items keep. -/
theorem live_keeps (i : ι) : live.Keeps (F i) where
  field ref name := .get fun w => (atLevel_keeps steps admits (levelFor w) i).field ref name
  entries ref := .get fun w => (atLevel_keeps steps admits (levelFor w) i).entries ref
  equal a b := .get fun w => (atLevel_keeps steps admits (levelFor w) i).equal a b
  digest ref := .get fun w => (atLevel_keeps steps admits (levelFor w) i).digest ref
  view := rfl

end ItemAccess

end RecordAlgebra
