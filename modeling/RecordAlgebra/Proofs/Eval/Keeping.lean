import RecordAlgebra.Proofs.Expr.Parts
import RecordAlgebra.Proofs.Sequence.Keeping
import RecordAlgebra.Proofs.Value.Failing

/-!
# What evaluation uses up

Evaluating an expression uses up as many reads of the input as it has direct
references, and what it gives can be pulled for nothing. Predicates, projections and
the like are evaluated again and again, so references from inside of them are only
possible if a read uses up nothing.
-/

namespace RecordAlgebra

/-- Failures of expressions are admissible, apart from internal ones. -/
def Allowance.AdmitsFailures (A : Allowance) : Prop := ∀ e : Error, e.kind ≠ .internal → A.error e

/-- Looking at the output uses up nothing. -/
def Output.Keeps (A : Allowance) : Output → Prop
  | .value _ => True
  | .sequence s => s.Keeps A

variable {A : Allowance} {access : ItemAccess EvalM}

theorem Output.Keeps.intoValue {output : Output} (h : output.Keeps A) :
    Spends A 0 (fun _ => True) output.intoValue := by
  cases output with
  | value v => exact .pure trivial
  | sequence s =>
      have hs : s.Keeps A := h
      exact hs.collect.map fun _ _ => trivial

section Operations

variable (admits : A.AdmitsFailures)

include admits

theorem Spends.fail {α : Type} {P : α → Prop} {n : Nat} {cause : Cause}
    (h : cause.kind ≠ .internal) : Spends A n P (EvalM.fail cause) :=
  .raise (admits _ h)

theorem Spends.throw {α : Type} {P : α → Prop} {n : Nat} {e : Error} (h : e.kind ≠ .internal) :
    Spends A n P (throwThe Error e : EvalM α) :=
  .raise (admits e h)

theorem Allowance.AdmitsFailures.ofValue {α : Type} {r : Except Error α}
    (h : Value.FailsByValue r) {e : Error} (he : r = .error e) : A.error e := by
  refine admits e ?_
  rcases h e he with hkind | hkind <;> rw [hkind] <;> decide

theorem Spends.ofValue {α : Type} {r : Except Error α} (h : Value.FailsByValue r) :
    Spends A 0 (fun _ => True) (EvalM.lift r) :=
  .lift (fun _ _ => trivial) fun _ he => admits.ofValue h he

theorem Output.Keeps.intoSequence {output : Output} (h : output.Keeps A) :
    Spends A 0 (Sequence.Keeps A) output.intoSequence := by
  cases output with
  | sequence s => exact .pure h
  | value v =>
      cases v with
      | list vs => exact .pure (Sequence.keeps_ofValues vs)
      | _ => exact .fail admits nofun

namespace Sequence

variable {s : Sequence}

theorem Keeps.onlyElement (h : s.Keeps A) : Spends A 0 (fun _ => True) (Expr.onlyElement s) := by
  refine h.next.first fun pulled hpulled => ?_
  rcases pulled with _ | ⟨e | v, rest⟩
  · exact .pure trivial
  · exact .raise ((hpulled _ _ rfl).1 e rfl)
  · refine (hpulled _ _ rfl).2.next.first fun pulled hpulled => ?_
    rcases pulled with _ | ⟨e | u, rest⟩
    · exact .pure trivial
    · exact .raise ((hpulled _ _ rfl).1 e rfl)
    · exact .fail admits nofun

omit admits in
theorem Keeps.count (h : s.Keeps A) (skipNulls : Bool) :
    Spends A 0 (fun _ => True) (s.count skipNulls) :=
  (h.fold (fun _ _ => .pure trivial) 0).map fun _ _ => trivial

theorem Keeps.best (h : s.Keeps A) (op : AggregateOp) (wanted : Ordering) :
    Spends A 0 (fun _ => True) (s.best op wanted) := by
  have step (best : Option Value) (v : Value) :
      Spends A 0 (fun _ => True) (EvalM.lift (Value.better wanted best v)) :=
    .ofValue admits (Value.better_fails v wanted best)
  refine (h.fold step none).first fun best _ => ?_
  cases best with
  | none => exact .fail admits nofun
  | some v => exact .pure trivial

theorem Keeps.aggregate (h : s.Keeps A) (op : AggregateOp) (projected : Bool) :
    Spends A 0 (fun _ => True) (s.aggregate op projected) := by
  cases op with
  | len => exact h.count false
  | count => exact h.count projected
  | sum =>
      refine h.fold (fun sum v => .view fun view => ?_) _
      exact .ofValue admits (Value.addToSum_fails view v _ sum)
  | avg =>
      have step (mean : Value.Mean) (v : Value) :
          Spends A 0 (fun _ => True) (EvalM.lift (Value.Mean.add "avg" mean v)) :=
        .ofValue admits (Value.mean_fails v _ mean)
      refine (h.fold step {}).first fun mean _ => ?_
      split
      · exact .pure trivial
      · exact .fail admits nofun
  | min => exact h.best admits .min .lt
  | max => exact h.best admits .max .gt

end Sequence

section Access

variable (keeps : access.Keeps A)

include keeps

theorem field_spends (v : Value) (name : String) :
    Spends A 0 (fun _ => True) (v.field access name) := by
  cases v with
  | item ref => exact keeps.field ref name
  | record fields =>
      simp only [Value.field]
      split
      · exact .pure trivial
      · exact .throw admits nofun
  | _ => exact .throw admits nofun

theorem entries_spends (v : Value) : Spends A 0 (fun _ => True) (v.entries access) := by
  cases v with
  | item ref => exact keeps.entries ref
  | record fields => exact .pure trivial
  | _ =>
      rw [Value.entries, keeps.view]
      · exact .view fun view => .throw admits nofun
      · nofun
      · nofun

omit keeps in
theorem compareOrdered_spends (op : ComparisonOp) (v u : Value) :
    Spends A 0 (fun _ => True)
      (if v.isNull || u.isNull then (pure .null : EvalM Value)
      else
        match Value.order v u with
        | .ok o => pure (.bool (op.holds o))
        | .error e => throwThe Error e) := by
  split
  · exact .pure trivial
  · split
    · exact .pure trivial
    · next e he => exact .raise (admits.ofValue (Value.order_fails v u) he)

theorem compare_spends (op : ComparisonOp) (v u : Value) :
    Spends A 0 (fun _ => True) (Value.compare access op v u) := by
  have ordered := compareOrdered_spends admits op v u
  cases op with
  | equal => exact (equal_spends keeps.equal v u).map fun _ _ => trivial
  | notEqual => exact (equal_spends keeps.equal v u).map fun _ _ => trivial
  | _ => exact ordered

omit admits in
theorem groupsAdd_spends (groups : Groups) (key : Value.Key) (member : Value) :
    Spends A 0 (fun _ => True) (groups.add access key member) := by
  refine (keeps.find? key groups).first fun position _ => ?_
  cases position with
  | none => exact .pure trivial
  | some position => exact .pure trivial

end Access

theorem negated_spends (op : NegationOp) (v : Value) :
    Spends A 0 (fun _ => True) (Expr.negated op v) := by
  cases op with
  | not =>
      simp only [Expr.negated]
      split
      · exact .pure trivial
      · refine .view fun view => ?_
        exact (Spends.ofValue admits (Value.toBool_fails view v)).map fun _ _ => trivial
  | minus => exact .ofValue admits (Value.negate_fails v)

end Operations

/-- Outputs are given for nodes that see the bindings of the whole, and looking at them
uses up nothing. -/
structure Substitution.Keeps (A : Allowance) (substitution : Substitution) (e : Expr) : Prop where
  reaches : ∀ path output, substitution path = some output → (e.sameNode? path).isSome = true
  output : ∀ path output, substitution path = some output → output.Keeps A

namespace Substitution

variable {substitution : Substitution} {e part : Expr} {position : Nat}

/-- The nodes for which there are outputs. -/
def skipped (substitution : Substitution) (path : Path) : Bool := (substitution path).isSome

theorem keeps_empty (e : Expr) : Substitution.empty.Keeps A e := ⟨nofun, nofun⟩

theorem Keeps.inPart_same (h : substitution.Keeps A e)
    (hpart : e.children[position]? = some (part, .same)) :
    Substitution.Keeps A (inPart substitution position) part where
  reaches path output houtput := by
    have hreaches := h.reaches (position :: path) output houtput
    rw [Expr.sameNode?, hpart] at hreaches
    exact hreaches
  output path output houtput := h.output (position :: path) output houtput

/-- There are no outputs inside of predicates and the like. -/
theorem Keeps.inPart_nested (h : substitution.Keeps A e)
    (hpart : e.children[position]? = some (part, .nested)) :
    inPart substitution position = Substitution.empty := by
  funext path
  cases houtput : inPart substitution position path with
  | none => rfl
  | some output =>
      have hreaches := h.reaches (position :: path) output houtput
      rw [Expr.sameNode?, hpart] at hreaches
      cases hreaches

end Substitution

/-- All bindings are values, apart from an input at the given depth. Reading the input
uses up one read at most, and none at all if it can be read again. -/
def Scope.Reads (A : Allowance) (depth : Nat) (again : Prop) (scope : Scope) : Prop :=
  ∀ (n : Nat) (binding : Binding), scope[n]? = some binding →
    (∃ v, binding = .value v) ∨
      n = depth ∧ ∃ input, binding = .input input ∧ Spends A 1 (Sequence.Keeps A) input.read ∧
        (again → Spends A 0 (Sequence.Keeps A) input.read)

theorem Scope.Reads.cons {depth : Nat} {again : Prop} {scope : Scope}
    (h : scope.Reads A depth again) (v : Value) :
    Scope.Reads A (depth + 1) again (.value v :: scope) := by
  intro n binding hbinding
  cases n with
  | zero =>
      cases hbinding
      exact .inl ⟨v, rfl⟩
  | succ n =>
      refine (h n binding hbinding).imp_right ?_
      rintro ⟨rfl, hinput⟩
      exact ⟨rfl, hinput⟩

namespace Spends

variable {β : Type} {Q : β → Prop} {m : EvalM Output} {n k : Nat}

theorem withValue {f : Value → EvalM β} (h : Spends A n (Output.Keeps A) m)
    (step : ∀ v, Spends A k Q (f v)) :
    Spends A (n + k) Q (do f (← (← m).intoValue)) :=
  h.bind fun _ houtput => houtput.intoValue.first fun v _ => step v

theorem withSequence (admits : A.AdmitsFailures) {f : Sequence → EvalM β}
    (h : Spends A n (Output.Keeps A) m) (step : ∀ s : Sequence, s.Keeps A → Spends A k Q (f s)) :
    Spends A (n + k) Q (do f (← (← m).intoSequence)) :=
  h.bind fun _ houtput => (houtput.intoSequence admits).first step

end Spends

namespace Expr

variable {substitution : Substitution} {depth : Nat} {scope : Scope} {again : Prop}

theorem nested_part_le (depth : Nat) {skip : Path → Bool} {e part : Expr} {binding : ChildScope}
    {position : Nat} (hskip : skip [] = false) (he : e.isContext = false)
    (hpart : e.children[position]? = some (part, binding)) :
    (references (inPart skip position) (depth + binding.bindings) part).nested ≤
      (references skip depth e).nested := by
  have inParts (parts : List (Expr × ChildScope)) (first i : Nat)
      (hi : parts[i]? = some (part, binding)) :
      (references (inPart skip (first + i)) (depth + binding.bindings) part).nested ≤
        (partReferences skip depth first parts).nested := by
    induction parts generalizing first i with
    | nil => cases hi
    | cons head rest ih =>
        cases i with
        | zero =>
            cases hi
            exact Nat.le_add_right _ _
        | succ i =>
            have hrest := ih (first + 1) i hi
            rw [Nat.add_assoc, Nat.add_comm 1 i] at hrest
            exact Nat.le_trans hrest (Nat.le_add_left _ _)
  rw [references_parts hskip he]
  have hle := inParts e.children 0 position hpart
  rwa [Nat.zero_add] at hle

/-- What evaluation uses up of the reads of the input. -/
def EvalSpends (A : Allowance) (access : ItemAccess EvalM) (substitution : Substitution)
    (depth : Nat) (scope : Scope) (e : Expr) : Prop :=
  Spends A (references substitution.skipped depth e).direct (Output.Keeps A)
    (eval access substitution scope e)

section Lists

variable (admits : A.AdmitsFailures)

include admits

theorem evalOperands_spends {op : BooleanOp} {operands : List Expr} (sawNull : Bool)
    (position : Nat)
    (h : ∀ i e, operands[i]? = some e →
      EvalSpends A access (inPart substitution (position + i)) depth scope e) :
    Spends A (operandReferences substitution.skipped depth position operands).direct
      (fun _ => True) (evalOperands access substitution scope op sawNull position operands) := by
  induction operands generalizing sawNull position with
  | nil =>
      rw [evalOperands]
      exact .pure trivial
  | cons e rest ih =>
      have hfirst := h 0 e rfl
      have hrest (sawNull : Bool) := ih sawNull (position + 1) fun i e he => by
        have hlater := h (i + 1) e he
        rwa [Nat.add_comm i, ← Nat.add_assoc] at hlater
      rw [evalOperands]
      refine Spends.withValue hfirst fun v => ?_
      split
      · split
        · exact .pure trivial
        · exact hrest sawNull
      · exact hrest true
      · exact .fail admits nofun

omit admits in
theorem evalFields_spends {fields : List (String × Expr)} (position : Nat)
    (h : ∀ i field, fields[i]? = some field →
      EvalSpends A access (inPart substitution (position + i)) depth scope field.2) :
    Spends A (fieldReferences substitution.skipped depth position fields).direct
      (fun _ => True) (evalFields access substitution scope position fields) := by
  induction fields generalizing position with
  | nil =>
      rw [evalFields]
      exact .pure trivial
  | cons field rest ih =>
      have hfirst := h 0 field rfl
      have hrest := ih (position + 1) fun i field hfield => by
        have hlater := h (i + 1) field hfield
        rwa [Nat.add_comm i, ← Nat.add_assoc] at hlater
      rw [evalFields]
      exact Spends.withValue hfirst fun v => hrest.map fun _ _ => trivial

omit admits in
theorem evalKeys_spends {keys : List (Expr × Direction)}
    (h : ∀ key ∈ keys, Spends A 0 (Output.Keeps A) (eval access .empty scope key.1)) :
    Spends A 0 (fun _ => True) (evalKeys access scope keys) := by
  induction keys with
  | nil =>
      rw [evalKeys]
      exact .pure trivial
  | cons key rest ih =>
      obtain ⟨hkey, hrest⟩ := List.forall_mem_cons.1 h
      rw [evalKeys]
      exact hkey.withValue fun v => (ih hrest).map fun _ _ => trivial

end Lists

/-- A context uses up a read only if it stands directly for the input. -/
theorem context_spends (admits : A.AdmitsFailures) {n : Nat} {type : DataType}
    (hnone : substitution [] = none) (hscope : scope.Reads A depth again)
    (hagain : (references substitution.skipped depth (.context n type)).nested = 0 ∨ again) :
    EvalSpends A access substitution depth scope (.context n type) := by
  have hskip : substitution.skipped [] = false := by rw [Substitution.skipped, hnone]; rfl
  rw [EvalSpends, eval, hnone]
  rw [references, hskip] at hagain ⊢
  simp only [Scope.lookup]
  cases hbinding : scope[n]? with
  | none => exact .raise (admits _ fun h => by cases h)
  | some binding =>
      rcases hscope n binding hbinding with ⟨v, rfl⟩ | ⟨rfl, input, rfl, hread, hreadAgain⟩
      · exact .pure trivial
      · have hresult {k : Nat} (h : Spends A k (Sequence.Keeps A) input.read) :
            Spends A k (Output.Keeps A) (do return .sequence (← input.read)) :=
          h.map fun _ hs => hs
        by_cases hdepth : n = 0
        · simp only [hdepth, if_true, Bool.false_eq_true, if_false]
          exact hresult hread
        · simp only [hdepth, if_true, Bool.false_eq_true, if_false] at hagain ⊢
          refine hresult (hreadAgain (hagain.resolve_left ?_))
          decide

/-- What is used up by the parts of an expression: as much as each refers to directly if it
sees the bindings of the whole, and nothing otherwise. -/
structure PartsSpend (A : Allowance) (access : ItemAccess EvalM) (substitution : Substitution)
    (depth : Nat) (scope : Scope) (e : Expr) : Prop where
  same : ∀ (i : Nat) (part : Expr), e.children[i]? = some (part, .same) →
    EvalSpends A access (inPart substitution i) depth scope part
  nested : ∀ (i : Nat) (part : Expr), e.children[i]? = some (part, .nested) → ∀ v,
    Spends A 0 (Output.Keeps A) (eval access .empty (.value v :: scope) part)

theorem node_spends (admits : A.AdmitsFailures) (keeps : access.Keeps A) {e : Expr}
    (hnone : substitution [] = none) (he : e.isContext = false)
    (parts : PartsSpend A access substitution depth scope e) :
    EvalSpends A access substitution depth scope e := by
  have hskip : substitution.skipped [] = false := by rw [Substitution.skipped, hnone]; rfl
  obtain ⟨same, nested⟩ := parts
  rw [EvalSpends]
  cases e with
  | context n type => cases he
  | literal v =>
      rw [eval_literal access hnone]
      exact .pure trivial
  | field base name type =>
      rw [eval, hnone, references, hskip]
      exact (same 0 base rfl).withValue fun v =>
        (field_spends admits keeps v name).map fun _ _ => trivial
  | comparison op left right =>
      rw [eval, hnone, references, hskip]
      refine Spends.withValue (same 0 left rfl) fun v => ?_
      exact Spends.withValue (k := 0) (same 1 right rfl) fun u =>
        (compare_spends admits keeps op v u).map fun _ _ => trivial
  | boolean op operands =>
      rw [eval, hnone, references, hskip]
      refine (evalOperands_spends admits false 0 fun i e he => ?_).map fun _ _ => trivial
      rw [Nat.zero_add]
      exact same i e (by simp [children, he])
  | negation op operand =>
      rw [eval, hnone, references, hskip]
      exact (same 0 operand rfl).withValue fun v =>
        (negated_spends admits op v).map fun _ _ => trivial
  | arithmetic op left right type =>
      rw [eval, hnone, references, hskip]
      refine Spends.withValue (same 0 left rfl) fun v => ?_
      refine Spends.withValue (k := 0) (same 1 right rfl) fun u => .view fun view => ?_
      exact (Spends.ofValue admits (Value.apply_fails view v u op)).map fun _ _ => trivial
  | merge left right type =>
      rw [eval, hnone, references, hskip]
      refine Spends.withValue (same 0 left rfl) fun v => ?_
      refine Spends.withValue (k := 0) (same 1 right rfl) fun u => ?_
      exact (entries_spends admits keeps v).first fun fields _ =>
        (entries_spends admits keeps u).map fun _ _ => trivial
  | record fields type =>
      rw [eval, hnone, references, hskip]
      refine (evalFields_spends 0 fun i field hfield => ?_).map fun _ _ => trivial
      rw [Nat.zero_add]
      exact same i field.2 (by simp [children, hfield])
  | function f input =>
      rw [eval, hnone, references, hskip]
      exact (same 0 input rfl).withValue fun v =>
        (Spends.ofValue admits (Value.function_fails v f)).map fun _ _ => trivial
  | filter source predicate =>
      rw [eval, hnone, references, hskip]
      refine Spends.weaken (Spends.withSequence (k := 0) admits (same 0 source rfl)
        fun s hs => ?_) (Nat.le_add_right _ _)
      have hkeep (v : Value) : Spends A 0 (fun _ => True) (do
          let result ← (← eval access .empty (.value v :: scope) predicate).intoValue
          EvalM.lift (result.toPredicate (← EvalM.view))) :=
        (nested 1 predicate rfl v).withValue fun result => .view fun view =>
          .ofValue admits (Value.toPredicate_fails view result)
      exact .pure (hs.then_ hkeep)
  | map source projection type =>
      rw [eval, hnone, references, hskip]
      refine Spends.weaken (Spends.withSequence (k := 0) admits (same 0 source rfl)
        fun s hs => ?_) (Nat.le_add_right _ _)
      have hproject (v : Value) : Spends A 0 (fun _ => True) (do
          (← eval access .empty (.value v :: scope) projection).intoValue) :=
        (nested 1 projection rfl v).last fun _ houtput => houtput.intoValue
      exact .pure (hs.then_ hproject)
  | sort source keys =>
      rw [eval, hnone, references, hskip]
      refine Spends.weaken (Spends.withSequence (k := 0) admits (same 0 source rfl)
        fun s hs => ?_) (Nat.le_add_right _ _)
      have hkeys (v : Value) :
          Spends A 0 (fun _ => True) (evalKeys access (.value v :: scope) keys) := by
        refine evalKeys_spends fun key hkey => ?_
        obtain ⟨i, hi⟩ := List.getElem?_of_mem hkey
        exact nested (i + 1) key.1 (by simp [children, hi]) v
      have hrows : Spends A 0 (fun _ => True)
          (s.keyed fun v => evalKeys access (.value v :: scope) keys) :=
        (hs.fold (fun _ v => (hkeys v).map fun _ _ => trivial) []).map fun _ _ => trivial
      refine .pure (Sequence.keeps_ofDeferred (hrows.first fun rows _ => ?_))
      exact .ofValue admits (Value.sortKeyed_fails _ rows)
  | groupBy source key total type =>
      rw [eval, hnone, references, hskip]
      refine Spends.weaken (Spends.withSequence (k := 0) admits (same 0 source rfl)
        fun s hs => ?_) (Nat.le_trans (Nat.le_add_right _ _) (Nat.le_add_right _ _))
      refine .pure (Sequence.keeps_ofDeferred ?_)
      refine (hs.fold (fun groups v => ?_) []).first fun groups _ => ?_
      · exact (nested 1 key rfl v).withValue fun found => (keeps.toKey found).first fun key _ =>
          groupsAdd_spends keeps groups key v
      · have hgroup (group : Value.Key × List Value) : Spends A 0 (fun _ => True) (do
            let result ← (← eval access .empty (.value (.list group.2.reverse) :: scope) total).intoValue
            pure (Value.record [(groupKeyField, group.1.value), (groupValueField, result)])) :=
          (nested 2 total rfl _).withValue (k := 0) fun _ => .pure trivial
        exact (Spends.listMapM fun group _ => hgroup group).mono fun _ _ => trivial
  | aggregate op source projection type =>
      cases projection with
      | none =>
          rw [eval, hnone, references, hskip]
          exact Spends.withSequence (k := 0) admits (same 0 source rfl) fun s hs =>
            (hs.aggregate admits op false).map fun _ _ => trivial
      | some projection =>
          rw [eval, hnone, references, hskip]
          refine Spends.weaken (Spends.withSequence (k := 0) admits (same 0 source rfl)
            fun s hs => ?_) (Nat.le_add_right _ _)
          have hproject (v : Value) : Spends A 0 (fun _ => True) (do
              (← eval access .empty (.value v :: scope) projection).intoValue) :=
            (nested 1 projection rfl v).last fun _ houtput => houtput.intoValue
          have hprojected : (s.then_ (.map fun v => do
              (← eval access .empty (.value v :: scope) projection).intoValue)).Keeps A :=
            hs.then_ hproject
          exact (hprojected.aggregate admits op true).map fun _ _ => trivial
  | distinct source =>
      rw [eval, hnone, references, hskip]
      exact Spends.withSequence (k := 0) admits (same 0 source rfl) fun s hs =>
        .pure (hs.then_ keeps)
  | slice source start stop =>
      rw [eval, hnone, references, hskip]
      exact Spends.withSequence (k := 0) admits (same 0 source rfl) fun s hs =>
        .pure (hs.then_ trivial)
  | one source default type =>
      cases default with
      | none =>
          rw [eval, hnone, references, hskip]
          refine Spends.withSequence (k := 0) admits (same 0 source rfl) fun s hs => ?_
          refine (hs.onlyElement admits).first fun found _ => ?_
          cases found with
          | none => exact .fail admits fun h => by cases h
          | some v => exact .pure trivial
      | some default =>
          rw [eval, hnone, references, hskip]
          refine Spends.withSequence admits (same 0 source rfl) fun s hs => ?_
          refine (hs.onlyElement admits).first fun found _ => ?_
          cases found with
          | none => exact Spends.withValue (k := 0) (same 1 default rfl) fun _ => .pure trivial
          | some v => exact .pure trivial

/-- Evaluation uses up as many reads as there are direct references. If there are references
from inside of predicates and the like, the input must be one that can be read again. -/
theorem eval_spends (admits : A.AdmitsFailures) (keeps : access.Keeps A) (e : Expr)
    (hsubstitution : substitution.Keeps A e) (hscope : scope.Reads A depth again)
    (hagain : (references substitution.skipped depth e).nested = 0 ∨ again) :
    EvalSpends A access substitution depth scope e := by
  induction e using childInduction generalizing substitution depth scope with
  | step e ih =>
      cases hnone : substitution [] with
      | some output =>
          rw [EvalSpends, eval_output access hnone]
          exact .pure (hsubstitution.output [] output hnone)
      | none =>
          cases he : e.isContext with
          | true =>
              cases e with
              | context n type => exact context_spends admits hnone hscope hagain
              | _ => cases he
          | false =>
              have hskip : substitution.skipped [] = false := by
                rw [Substitution.skipped, hnone]
                rfl
              have part {i : Nat} {part : Expr} {binding : ChildScope}
                  (hpart : e.children[i]? = some (part, binding)) :
                  (references (inPart substitution.skipped i) (depth + binding.bindings)
                    part).nested = 0 ∨ again :=
                hagain.imp_left fun hzero => by
                  have hle := nested_part_le depth hskip he hpart
                  omega
              refine node_spends admits keeps hnone he ⟨fun i c hc => ?_, fun i c hc v => ?_⟩
              · exact ih (c, .same) (List.mem_of_getElem? hc) (hsubstitution.inPart_same hc)
                  hscope (part hc)
              · have hempty := hsubstitution.inPart_nested hc
                have hagain' := part hc
                have hskipped : inPart substitution.skipped i = Substitution.empty.skipped := by
                  rw [← hempty]
                  rfl
                rw [hskipped] at hagain'
                have hspends := ih (c, .nested) (List.mem_of_getElem? hc)
                  (Substitution.keeps_empty c) (hscope.cons v) hagain'
                rw [EvalSpends, references_direct_nested] at hspends
                exact hspends

/-- Over a single value there is no input to be read. -/
theorem runValue_spends (admits : A.AdmitsFailures) (keeps : access.Keeps A) (e : Expr)
    (v : Value) : Spends A 0 (Output.Keeps A) (e.runValue access v) := by
  have hscope : Scope.Reads A 1 True [.value v] := by
    intro n binding hbinding
    cases n with
    | zero =>
        cases hbinding
        exact .inl ⟨v, rfl⟩
    | succ n => cases hbinding
  have hspends := eval_spends admits keeps e (Substitution.keeps_empty e) hscope (.inr trivial)
  rw [EvalSpends, references_direct_nested] at hspends
  exact hspends

end Expr

end RecordAlgebra
