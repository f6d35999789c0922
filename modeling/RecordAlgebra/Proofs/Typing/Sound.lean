import RecordAlgebra.Proofs.Expr.Denotation
import RecordAlgebra.Proofs.Sequence.Fitting
import RecordAlgebra.Proofs.Typing.Typed

/-!
# Soundness of derived types

Whatever an expression gives fits the type that is derived for it. This goes by
induction on the typing, for all states in which reading items and the input can be
relied on: predicates, projections and keys run later than the expression itself.
-/

namespace RecordAlgebra

namespace Output

variable {known : ItemRef → Prop} {I : World → Prop} {t element : DataType} {output : Output}

/-- A value of the type, or a sequence that sends elements of it. -/
def Fits (known : ItemRef → Prop) (I : World → Prop) (t : DataType) : Output → Prop
  | .value v => v.Fits known t
  | .sequence s =>
      ∃ element, t.elementType = .ok element ∧ s.Sends I fun v => v.Fits known element

theorem fits_list_of_elements {vs : List Value}
    (h : t.elementType = .ok element) (hvs : ∀ v ∈ vs, v.Fits known element) :
    (Value.list vs).Fits known t := by
  rcases t with s | t | ⟨fields, isOpen⟩ | schema
  · cases s <;> cases h
    exact .any (.list fun v hv => (hvs v hv).isKnown)
  · cases h
    exact .list hvs
  · cases h
  · cases h

theorem Fits.intoValue (h : output.Fits known I t) :
    Ensures I (fun v => v.Fits known t) output.intoValue := by
  cases output with
  | value v => exact .pure h
  | sequence s =>
      obtain ⟨element, helement, hs⟩ := h
      exact hs.collect.map fun vs hvs => fits_list_of_elements helement hvs

theorem Fits.intoSequence (h : output.Fits known I t) (helement : t.elementType = .ok element) :
    Ensures I (fun s => s.Sends I fun v => v.Fits known element) output.intoSequence := by
  cases output with
  | value v =>
      cases v with
      | list vs =>
          refine .pure (Sequence.sends_ofValues ?_)
          cases h with
          | any h =>
              cases helement
              exact fun v hv => .any (h.elements v hv)
          | scalar hsingle => cases hsingle
          | list hvs =>
              cases helement
              exact hvs
      | _ => exact .fail _
  | sequence s =>
      obtain ⟨_, heq, hs⟩ := h
      rw [helement] at heq
      cases heq
      exact .pure hs

end Output

/-- Reading the input gives these values or some of them. -/
def Input.Sends (I : World → Prop) (vs : List Value) (input : Input) : Prop :=
  ∀ P : Value → Prop, (∀ v ∈ vs, P v) → Ensures I (fun s => s.Sends I P) input.read

/-- Bindings of these types around an input with these values. -/
structure Scope.Fits (known : ItemRef → Prop) (I : World → Prop) (vs : List Value)
    (types : List DataType) (scope : Scope) : Prop where
  bound : ∀ (depth : Nat) (t : DataType), types[depth]? = some t →
    ∃ v : Value, scope[depth]? = some (Binding.value v) ∧ v.Fits known t
  input : ∀ binding, scope[types.length]? = some binding →
    ∃ input, binding = .input input ∧ input.Sends I vs
  beyond : ∀ depth, types.length < depth → scope[depth]? = none

theorem Scope.Fits.cons {known : ItemRef → Prop} {I : World → Prop} {vs : List Value}
    {types : List DataType} {scope : Scope} (h : scope.Fits known I vs types) {v : Value}
    {t : DataType} (hv : v.Fits known t) :
    Scope.Fits known I vs (t :: types) (.value v :: scope) where
  bound depth u hu := by
    cases depth with
    | zero =>
        cases hu
        exact ⟨v, rfl, hv⟩
    | succ depth => exact h.bound depth u hu
  input := h.input
  beyond depth hdepth := by
    cases depth with
    | zero => exact absurd hdepth (Nat.not_lt_zero _)
    | succ depth => exact h.beyond depth (Nat.lt_of_succ_lt_succ hdepth)

namespace Expr

/-- Literals are made of known items, merged mappings join, and an input with these
values fits. -/
def sound (known : ItemRef → Prop) (vs : List Value) : Facts where
  type _ := True
  input := (Value.list vs).Fits known
  literal v := v.Known known
  merge := RecordType.Joins

section

variable {access : ItemAccess EvalM} {known : ItemRef → Prop} {I : World → Prop} {scope : Scope}
  {e : Expr} {t u : DataType} {β : Type} {Q : β → Prop}

/-- What the expression gives fits the type. -/
def EvalFits (access : ItemAccess EvalM) (known : ItemRef → Prop) (I : World → Prop)
    (scope : Scope) (e : Expr) (t : DataType) : Prop :=
  Ensures I (Output.Fits known I t) (eval access .empty scope e)

theorem EvalFits.withValue {f : Value → EvalM β} (h : EvalFits access known I scope e t)
    (step : ∀ v, v.Fits known t → Ensures I Q (f v)) :
    Ensures I Q (do f (← (← eval access .empty scope e).intoValue)) :=
  h.bind fun _ hv => hv.intoValue.bind step

theorem EvalFits.value (h : EvalFits access known I scope e t) :
    Ensures I (fun v => v.Fits known t) (do (← eval access .empty scope e).intoValue) :=
  h.bind fun _ hv => hv.intoValue

theorem EvalFits.withElements {f : Sequence → EvalM β} (h : EvalFits access known I scope e t)
    (helement : t.elementType = .ok u)
    (step : ∀ s : Sequence, (s.Sends I fun v => v.Fits known u) → Ensures I Q (f s)) :
    Ensures I Q (do f (← (← eval access .empty scope e).intoSequence)) :=
  h.bind fun _ hs => (hs.intoSequence helement).bind step

theorem evalOperands_ensures {op : BooleanOp} {operands : List Expr} (sawNull : Bool)
    (position : Nat) (h : ∀ e ∈ operands, ∃ t, EvalFits access known I scope e t) :
    Ensures I (fun v => v.Fits known .boolean)
      (evalOperands access .empty scope op sawNull position operands) := by
  induction operands generalizing sawNull position with
  | nil =>
      rw [evalOperands]
      split
      · exact .pure (.null _)
      · exact .pure (Value.fits_bool _)
  | cons e rest ih =>
      obtain ⟨⟨t, he⟩, hrest⟩ := List.forall_mem_cons.1 h
      rw [evalOperands]
      refine he.withValue fun v _ => ?_
      split
      · split
        · exact .pure (Value.fits_bool _)
        · exact ih _ _ hrest
      · exact ih _ _ hrest
      · exact .fail _

theorem evalFields_ensures {fields : List (String × Expr)} {types : Expr → DataType}
    (position : Nat) (h : ∀ field ∈ fields, EvalFits access known I scope field.2 (types field.2)) :
    Ensures I (fun vs => List.Forall₂ (fun v (t : String × DataType) =>
      v.1 = t.1 ∧ v.2.Fits known t.2) vs (fields.map fun field => (field.1, types field.2)))
      (evalFields access .empty scope position fields) := by
  induction fields generalizing position with
  | nil =>
      rw [evalFields]
      exact .pure .nil
  | cons field rest ih =>
      obtain ⟨name, e⟩ := field
      obtain ⟨he, hrest⟩ := List.forall_mem_cons.1 h
      rw [evalFields]
      exact he.withValue fun v hv => (ih _ hrest).map fun vs hvs => .cons ⟨rfl, hv⟩ hvs

theorem evalKeys_ensures {keys : List (Expr × Direction)}
    (h : ∀ key ∈ keys, ∃ t, EvalFits access known I scope key.1 t) :
    Ensures I (fun _ => True) (evalKeys access scope keys) := by
  induction keys with
  | nil =>
      rw [evalKeys]
      exact .pure trivial
  | cons key rest ih =>
      obtain ⟨e, direction⟩ := key
      obtain ⟨⟨t, he⟩, hrest⟩ := List.forall_mem_cons.1 h
      rw [evalKeys]
      exact he.withValue fun v _ => (ih hrest).map fun _ _ => trivial

theorem compareOrdered_ensures (op : ComparisonOp) (v u : Value) :
    Ensures I (fun r : Value => r.Fits known .boolean)
      (if v.isNull || u.isNull then (pure .null : EvalM Value)
      else
        match Value.order v u with
        | .ok o => pure (.bool (op.holds o))
        | .error e => throwThe Error e) := by
  split
  · exact .pure (.null _)
  · split
    · exact .pure (Value.fits_bool _)
    · exact .throw _

theorem compare_ensures {access : ItemAccess EvalM} (reads : access.Reads known I)
    {op : ComparisonOp} {v u : Value} (hv : v.Known known) (hu : u.Known known) :
    Ensures I (fun r : Value => r.Fits known .boolean) (Value.compare access op v u) := by
  cases op with
  | equal => exact (equal_ensures reads.equal hv hu).map fun _ _ => Value.fits_bool _
  | notEqual => exact (equal_ensures reads.equal hv hu).map fun _ _ => Value.fits_bool _
  | less => exact compareOrdered_ensures .less v u
  | lessOrEqual => exact compareOrdered_ensures .lessOrEqual v u
  | greater => exact compareOrdered_ensures .greater v u
  | greaterOrEqual => exact compareOrdered_ensures .greaterOrEqual v u

theorem not_ensures (v : Value) :
    Ensures I (fun r : Value => r.Fits known .boolean) (negated .not v) := by
  simp only [negated]
  split
  · exact .pure (.null _)
  · exact .view fun _ => (Ensures.lift (P := fun _ => True) fun _ _ => trivial).map fun _ _ =>
      Value.fits_bool _

theorem fieldsFit_of_forall₂ {vs : Fields Value} {types : Fields DataType}
    (hdistinct : types.names.Nodup)
    (h : List.Forall₂ (fun v t => v.1 = t.1 ∧ v.2.Fits known t.2) vs types) :
    Value.FieldsFit known vs { fields := types, isOpen := false } := by
  have hnames := Fields.names_eq_of_forall₂ h
  refine ⟨.record (hnames ▸ hdistinct) fun field hfield => ?_, hdistinct, fun name t ht => ?_,
    fun name t v ht hv => ?_, fun _ name hname => hnames ▸ hname⟩
  · have hget := Fields.get?_eq_some_of_mem (hnames ▸ hdistinct) hfield
    obtain ⟨t, -, hfits⟩ := Fields.exists_get?_right h hget
    exact hfits.isKnown
  · obtain ⟨v, hv, -⟩ := Fields.exists_get?_left h ht
    exact ⟨v, hv⟩
  · obtain ⟨u, hu, hfits⟩ := Fields.exists_get?_right h hv
    rw [ht, Option.some.injEq] at hu
    exact hu ▸ hfits

end

section

variable {access : ItemAccess EvalM} {known : ItemRef → Prop} {I : World → Prop}
  {vs : List Value} {types : List DataType} {e : Expr} {t : DataType}

theorem context_evalFits (vs : List Value) {depth : Nat} {type : DataType} {scope : Scope}
    (h : ∀ binding, scope[depth]? = some binding →
      (∃ v, binding = .value v ∧ v.Fits known t) ∨
        ∃ input, binding = .input input ∧ (Value.list vs).Fits known t ∧ input.Sends I vs) :
    EvalFits access known I scope (.context depth type) t := by
  rw [EvalFits, eval, show Substitution.empty [] = none from rfl]
  simp only [Scope.lookup]
  cases hbinding : scope[depth]? with
  | none => exact .raise _
  | some binding =>
      rcases h binding hbinding with ⟨v, rfl, hv⟩ | ⟨input, rfl, hvs, hinput⟩
      · exact .pure hv
      · cases hvs with
        | any hvs =>
            have hany : ∀ v ∈ vs, v.Fits known .any := fun v hv => .any (hvs.elements v hv)
            exact (hinput _ hany).map fun s hs => ⟨.any, rfl, hs⟩
        | scalar hsingle => cases hsingle
        | @list _ element hvs => exact (hinput _ hvs).map fun s hs => ⟨element, rfl, hs⟩

/-- What an expression gives fits the type that is derived for it. -/
theorem Typed.evalFits (reads : access.Reads known I) (h : Typed (sound known vs) types e t)
    {scope : Scope} (hscope : scope.Fits known I vs types) :
    EvalFits access known I scope e t := by
  have empty : Substitution.empty [] = none := rfl
  induction h generalizing scope with
  | @bound types depth type t hbound _ =>
      refine context_evalFits vs fun binding hbinding => .inl ?_
      obtain ⟨v, hv, hfits⟩ := hscope.bound depth t hbound
      rw [hv] at hbinding
      cases hbinding
      exact ⟨v, rfl, hfits⟩
  | @input types type hdeclared _ =>
      refine context_evalFits vs fun binding hbinding => .inr ?_
      obtain ⟨input, rfl, hinput⟩ := hscope.input binding hbinding
      exact ⟨input, rfl, hdeclared, hinput⟩
  | @unbound types depth hdepth _ =>
      refine context_evalFits vs fun binding hbinding => ?_
      rw [hscope.beyond depth hdepth] at hbinding
      cases hbinding
  | literal hknown _ =>
      rw [EvalFits, eval_literal access empty]
      exact .pure hknown.fits_datatype
  | field _ hfield _ ih =>
      rw [EvalFits, eval, empty]
      exact (ih hscope).withValue fun v hv =>
        (reads.valueField hv hfield).map fun _ h => h
  | comparison _ _ _ _ ihl ihr =>
      rw [EvalFits, eval, empty]
      exact (ihl hscope).withValue fun v hv => (ihr hscope).withValue fun u hu =>
        (compare_ensures reads hv.isKnown hu.isKnown).map fun _ h => h
  | boolean types _ _ _ ih =>
      rw [EvalFits, eval, empty]
      exact (evalOperands_ensures false 0 fun e he => ⟨_, ih e he hscope⟩).map fun _ h => h
  | not _ _ _ ih =>
      rw [EvalFits, eval, empty]
      exact (ih hscope).withValue fun v _ => (not_ensures v).map fun _ h => h
  | minus _ hlike ih =>
      rw [EvalFits, eval, empty]
      refine (ih hscope).withValue fun v hv => ?_
      exact (Ensures.lift fun r hr => Value.negate_fits hlike hv hr).map fun _ h => h
  | arithmetic _ _ hresult _ ihl ihr =>
      rw [EvalFits, eval, empty]
      refine (ihl hscope).withValue fun v hv => (ihr hscope).withValue fun u hu => .view fun _ => ?_
      exact (Ensures.lift fun r hr => Value.apply_fits hresult hv hu hr).map fun _ h => h
  | merge _ _ ha hb joins _ ihl ihr =>
      rw [EvalFits, eval, empty]
      refine (ihl hscope).withValue fun v hv => (ihr hscope).withValue fun u hu => ?_
      refine (reads.valueEntries hv ha).bind fun fields hfields => ?_
      exact (reads.valueEntries hu hb).map fun additions hadditions =>
        (hfields.ofList.insertAll hadditions joins).record
  | @record types fields type fieldTypes hnodup _ _ ih =>
      rw [EvalFits, eval, empty]
      refine (evalFields_ensures 0 fun field hfield => ih field hfield hscope).map
        fun found hfound => ?_
      have hnames :
          (Fields.names (fields.map fun field => (field.1, fieldTypes field.2))).Nodup := by
        rw [Fields.names, List.map_map]
        exact hnodup
      exact (fieldsFit_of_forall₂ hnames hfound).ofList.record
  | function _ _ _ ih =>
      rw [EvalFits, eval, empty]
      refine (ih hscope).withValue fun v _ => ?_
      exact (Ensures.lift fun r hr => Value.function_fits hr).map fun _ h => h
  | @filter types source predicate s element t _ helement _ _ _ ihs ihp =>
      rw [EvalFits, eval, empty]
      refine (ihs hscope).withElements helement fun s hs => ?_
      refine .pure ⟨element, rfl, hs.then_ ⟨fun _ hv => hv, fun v hv => ?_⟩⟩
      exact (ihp (hscope.cons hv)).withValue fun _ _ => .view fun _ => .lift fun _ _ => trivial
  | @map types source projection type s element t _ helement _ _ ihs ihp =>
      rw [EvalFits, eval, empty]
      refine (ihs hscope).withElements helement fun s hs => ?_
      exact .pure ⟨t, rfl, hs.map fun v hv => (ihp (hscope.cons hv)).value⟩
  | @sort types source keys s element keyTypes _ helement _ _ _ ihs ihk =>
      rw [EvalFits, eval, empty]
      refine (ihs hscope).withElements helement fun s hs => ?_
      refine .pure ⟨element, rfl, Sequence.sends_ofDeferred ?_⟩
      have step (rows : List (Value.Keyed Value)) (v : Value)
          (hrows : ∀ row ∈ rows, row.value.Fits known element) (hv : v.Fits known element) :
          Ensures I (fun rows => ∀ row ∈ rows, (Value.Keyed.value row).Fits known element)
            (do
              let found ← evalKeys access (.value v :: scope) keys
              pure ({ keys := found, value := v : Value.Keyed Value } :: rows)) :=
        (evalKeys_ensures fun key hkey => ⟨_, ihk key hkey (hscope.cons hv)⟩).map fun _ _ =>
          List.forall_mem_cons.2 ⟨hv, hrows⟩
      simp only [Sequence.keyed, bind_assoc, pure_bind]
      refine (hs.fold step (by simp)).bind fun rows hrows => .lift fun sorted hsorted v hv => ?_
      obtain ⟨row, hrow, rfl⟩ := Value.mem_of_sortKeyed hsorted hv
      exact hrows row (List.mem_reverse.1 hrow)
  | @groupBy types source key total type s element k t _ helement _ _ _ ihs ihk iht =>
      rw [EvalFits, eval, empty]
      refine (ihs hscope).withElements helement fun s hs => ?_
      refine .pure ⟨_, rfl, Sequence.sends_ofDeferred ?_⟩
      have step (groups : Groups) (v : Value) (hgroups : Groups.Fit known k element groups)
          (hv : v.Fits known element) : Ensures I (Groups.Fit known k element)
            (do
              let found ← (← eval access .empty (.value v :: scope) key).intoValue
              Groups.add groups access (← found.toKey access) v) := by
        refine (ihk (hscope.cons hv)).withValue fun found hfound => ?_
        have compares := reads.compares (P := fun v => v.Fits known k) fun _ hv => hv.isKnown
        refine (compares.toKey hfound).bind fun key hkey => ?_
        exact Groups.add_ensures reads hgroups (by rw [hkey]; exact hfound) hv
      refine (hs.fold step (by simp [Groups.Fit])).bind fun groups hgroups => ?_
      refine .listMapM fun group hgroup => ?_
      have hmembers : (Value.list group.2.reverse).Fits known (.list element) :=
        .list fun v hv => (hgroups group hgroup).2 v (List.mem_reverse.1 hv)
      refine (iht (hscope.cons hmembers)).withValue fun result hresult => .pure ?_
      exact (fieldsFit_of_forall₂ (by simp [Fields.names, groupKeyField, groupValueField])
        (.cons ⟨rfl, (hgroups group hgroup).1⟩ (.cons ⟨rfl, hresult⟩ .nil))).record
  | aggregate _ helement hresult _ ihs =>
      rw [EvalFits, eval, empty]
      exact (ihs hscope).withElements helement fun s hs =>
        (Sequence.aggregate_ensures false hs hresult).map fun _ h => h
  | aggregateOf _ helement _ hresult _ ihs ihp =>
      rw [EvalFits, eval, empty]
      refine (ihs hscope).withElements helement fun s hs => ?_
      have hprojected := hs.map fun v hv => (ihp (hscope.cons hv)).value
      exact (Sequence.aggregate_ensures true hprojected hresult).map fun _ h => h
  | @distinct types source s element _ helement _ ihs =>
      rw [EvalFits, eval, empty]
      refine (ihs hscope).withElements helement fun s hs => ?_
      have compares := reads.compares (P := fun v => v.Fits known element) fun _ hv => hv.isKnown
      exact .pure ⟨element, rfl, hs.then_ ⟨fun _ hv => hv, compares, by simp⟩⟩
  | @slice types source start stop s element _ helement _ ihs =>
      rw [EvalFits, eval, empty]
      refine (ihs hscope).withElements helement fun s hs => ?_
      exact .pure ⟨element, rfl, hs.window start 0 (stop.map (· - start))⟩
  | one _ helement _ ihs =>
      rw [EvalFits, eval, empty]
      refine (ihs hscope).withElements helement fun s hs => ?_
      refine hs.onlyElement.bind fun found hfound => ?_
      cases found with
      | none => exact .fail _
      | some v => exact .pure (hfound v rfl)
  | oneOr _ helement _ _ ihs ihd =>
      rw [EvalFits, eval, empty]
      refine (ihs hscope).withElements helement fun s hs => ?_
      refine hs.onlyElement.bind fun found hfound => ?_
      cases found with
      | none =>
          exact (ihd hscope).withValue fun v hv => .pure (Value.fits_unify (.inr hv))
      | some v => exact .pure (Value.fits_unify (.inl (hfound v rfl)))

end

end Expr

end RecordAlgebra
