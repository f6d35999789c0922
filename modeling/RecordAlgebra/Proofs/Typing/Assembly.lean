import RecordAlgebra.Proofs.Typing.Built

/-!
# Putting expressions together

An expression is put together from its leaves on, and every node is checked as soon as its
parts are there. The check trusts the types that the parts carry. Here it is compared with one
that derives the types of all nodes below anew. Both put the same expressions together, with
the same types at all nodes, and they fail with the same errors.
-/

namespace RecordAlgebra.Expr

/-- A new node with its type, where no type that a part carries is trusted. -/
def checkedAnew (view : ItemRef → String) (e : Expr) : Except Error Expr :=
  (derive false view [] e).map e.withType

section Assembly

variable (check : Expr → Except Error Expr)

mutual

/-- The expression put together again, where every node passes the check. The types that its
nodes carry do not matter, except those that the input is declared to have. -/
def assemble : Expr → Except Error Expr
  | .context 0 type => .ok (input type)
  | .context (depth + 1) _ => .ok (outer (depth + 1))
  | .literal v => .ok (.literal v)
  | .field base name _ => do
      let base ← assemble base
      check (.field base name .any)
  | .comparison op left right => do
      let left ← assemble left
      let right ← assemble right
      check (.comparison op left right)
  | .boolean op operands => do
      let operands ← assembleAll operands
      if operands.isEmpty then .error (.ofCause (.noOperands op.symbol))
      else check (.boolean op operands)
  | .negation op operand => do
      let operand ← assemble operand
      check (.negation op operand)
  | .arithmetic op left right _ => do
      let left ← assemble left
      let right ← assemble right
      check (.arithmetic op left right .any)
  | .merge left right _ => do
      let left ← assemble left
      let right ← assemble right
      check (.merge left right .any)
  | .record fields _ => do
      let fields ← assembleFields fields
      match repeatedName? [] (fields.map Prod.fst) with
      | some name => .error (.ofCause (.duplicateRecordField name))
      | none => check (.record fields .any)
  | .function f argument => do
      let argument ← assemble argument
      check (.function f argument)
  | .filter source predicate => do
      let source ← assemble source
      let predicate ← assemble predicate
      check (.filter source predicate)
  | .map source projection _ => do
      let source ← assemble source
      let projection ← assemble projection
      check (.map source projection .any)
  | .sort source keys => do
      let source ← assemble source
      let keys ← assembleKeys keys
      if keys.isEmpty then .error (.ofCause .noSortKeys) else check (.sort source keys)
  | .groupBy source key total _ => do
      let source ← assemble source
      let key ← assemble key
      let total ← assemble total
      check (.groupBy source key total .any)
  | .aggregate op source none _ => do
      let source ← assemble source
      check (.aggregate op source none .any)
  | .aggregate op source (some projection) _ => do
      let source ← assemble source
      let projection ← assemble projection
      check (.aggregate op source (some projection) .any)
  | .distinct source => do
      let source ← assemble source
      check (.distinct source)
  | .slice source start stop => do
      let source ← assemble source
      check (.slice source start stop)
  | .one source none _ => do
      let source ← assemble source
      check (.one source none .any)
  | .one source (some default) _ => do
      let source ← assemble source
      let default ← assemble default
      check (.one source (some default) .any)

def assembleAll : List Expr → Except Error (List Expr)
  | [] => .ok []
  | e :: rest => do
      let e ← assemble e
      let rest ← assembleAll rest
      .ok (e :: rest)

def assembleFields : List (String × Expr) → Except Error (List (String × Expr))
  | [] => .ok []
  | (name, e) :: rest => do
      let e ← assemble e
      let rest ← assembleFields rest
      .ok ((name, e) :: rest)

def assembleKeys : List (Expr × Direction) → Except Error (List (Expr × Direction))
  | [] => .ok []
  | (e, direction) :: rest => do
      let e ← assemble e
      let rest ← assembleKeys rest
      .ok ((e, direction) :: rest)

end

end Assembly

section Completeness

variable {check : Expr → Except Error Expr} {view : ItemRef → String}

theorem assemble_withType (e : Expr) (t : DataType) :
    assemble check (e.withType t) = assemble check e := by
  cases e with
  | aggregate op source projection type => cases projection <;> rfl
  | one source default type => cases default <;> rfl
  | _ => rfl

theorem assembleAll_eq {operands : List Expr} (h : ∀ e ∈ operands, assemble check e = .ok e) :
    assembleAll check operands = .ok operands := by
  induction operands with
  | nil => rfl
  | cons e rest ih =>
      obtain ⟨he, hrest⟩ := List.forall_mem_cons.1 h
      rw [assembleAll, he, ih hrest]
      rfl

theorem assembleFields_eq {fields : List (String × Expr)}
    (h : ∀ field ∈ fields, assemble check field.2 = .ok field.2) :
    assembleFields check fields = .ok fields := by
  induction fields with
  | nil => rfl
  | cons field rest ih =>
      obtain ⟨he, hrest⟩ := List.forall_mem_cons.1 h
      rw [assembleFields, he, ih hrest]
      rfl

theorem assembleKeys_eq {keys : List (Expr × Direction)}
    (h : ∀ key ∈ keys, assemble check key.1 = .ok key.1) :
    assembleKeys check keys = .ok keys := by
  induction keys with
  | nil => rfl
  | cons key rest ih =>
      obtain ⟨he, hrest⟩ := List.forall_mem_cons.1 h
      rw [assembleKeys, he, ih hrest]
      rfl

/-- What was built is put together to itself. -/
theorem Built.assemble_eq {e : Expr} (h : Built view e) : assemble (checked view) e = .ok e := by
  -- The check of the node gives the expression, and its type does not matter.
  have node {e built : Expr} (h : checked view e = .ok built)
      (hassemble : assemble (checked view) e = checked view e) :
      assemble (checked view) built = .ok built := by
    obtain ⟨t, rfl⟩ := exists_withType_of_checked h
    rw [assemble_withType, hassemble, h]
  induction h with
  | input type => rfl
  | outer depth => cases depth <;> rfl
  | literal v => rfl
  | field _ h base => exact node h (by rw [assemble, base]; rfl)
  | comparison _ _ h left right => exact node h (by rw [assemble, left, right]; rfl)
  | boolean _ h operands =>
      refine node (checked_of_mkBoolean h) ?_
      rw [assemble, assembleAll_eq operands]
      exact h.trans (checked_of_mkBoolean h).symm
  | negation _ h operand => exact node h (by rw [assemble, operand]; rfl)
  | arithmetic _ _ h left right => exact node h (by rw [assemble, left, right]; rfl)
  | merge _ _ h left right => exact node h (by rw [assemble, left, right]; rfl)
  | record _ h fields =>
      refine node (checked_of_mkRecord h).2 ?_
      rw [assemble, assembleFields_eq fields]
      exact h.trans (checked_of_mkRecord h).2.symm
  | function _ h argument => exact node h (by rw [assemble, argument]; rfl)
  | filter _ _ h source predicate => exact node h (by rw [assemble, source, predicate]; rfl)
  | map _ _ h source projection => exact node h (by rw [assemble, source, projection]; rfl)
  | sort _ _ h source keys =>
      refine node (checked_of_mkSort h) ?_
      rw [assemble, source, assembleKeys_eq keys]
      exact h.trans (checked_of_mkSort h).symm
  | groupBy _ _ _ h source key total => exact node h (by rw [assemble, source, key, total]; rfl)
  | @aggregate op part projection _ _ _ h source of =>
      cases projection with
      | none => exact node h (by rw [assemble, source]; rfl)
      | some projection => exact node h (by rw [assemble, source, of projection rfl]; rfl)
  | distinct _ h source => exact node h (by rw [assemble, source]; rfl)
  | slice _ h source => exact node h (by rw [assemble, source]; rfl)
  | @one part default _ _ _ h source other =>
      cases default with
      | none => exact node h (by rw [assemble, source]; rfl)
      | some default => exact node h (by rw [assemble, source, other default rfl]; rfl)

end Completeness

section Outcomes

variable {α β : Type} {kind : α → Prop} {kind' : β → Prop} {x y : Except Error α}

/-- The two outcomes are the same, and a result is of this kind. -/
def SameOutcome (kind : α → Prop) (x y : Except Error α) : Prop := x = y ∧ ∀ a, x = .ok a → kind a

theorem SameOutcome.ok {a : α} (h : kind a) : SameOutcome kind (.ok a) (.ok a) := by
  refine ⟨rfl, ?_⟩
  rintro _ ⟨⟩
  exact h

theorem SameOutcome.error (error : Error) : SameOutcome kind (.error error) (.error error) := by
  refine ⟨rfl, ?_⟩
  rintro _ ⟨⟩

theorem SameOutcome.bind {f g : α → Except Error β} (h : SameOutcome kind x y)
    (next : ∀ a, kind a → SameOutcome kind' (f a) (g a)) :
    SameOutcome kind' (x >>= f) (y >>= g) := by
  obtain ⟨rfl, hkind⟩ := h
  cases x with
  | error error => exact .error error
  | ok a => exact next a (hkind a rfl)

theorem SameOutcome.guard {c : Prop} [Decidable c] {error : Error}
    (h : ¬c → SameOutcome kind x y) :
    SameOutcome kind (if c then .error error else x) (if c then .error error else y) := by
  by_cases hc : c
  · rw [if_pos hc, if_pos hc]
    exact .error error
  · rw [if_neg hc, if_neg hc]
    exact h hc

end Outcomes

section Agreement

variable {view : ItemRef → String}

/-- Nothing is lost by trusting the types of parts that were built. -/
theorem derive_trusting_of_built {e : Expr} (parts : ∀ part ∈ e.children, Built view part.1)
    (scopes : List DataType) : derive true view scopes e = derive false view scopes e :=
  derive_trusting (fun part hpart => derive_of_built (parts (part, .same) hpart)) scopes

theorem sameOutcome_checked {e : Expr} (parts : ∀ part ∈ e.children, Built view part.1)
    (h : ∀ built, checked view e = .ok built → Built view built) :
    SameOutcome (Built view) (checked view e) (checkedAnew view e) := by
  refine ⟨?_, h⟩
  rw [checked, checkedAnew, derive_trusting_of_built parts]

/-- Whichever check is used, the outcome is the same, and the result is a built expression. -/
def AssemblesAlike (view : ItemRef → String) (tree : Expr) : Prop :=
  SameOutcome (Built view) (assemble (checked view) tree) (assemble (checkedAnew view) tree)

theorem sameOutcome_assembleAll {trees : List Expr} (h : ∀ tree ∈ trees, AssemblesAlike view tree) :
    SameOutcome (fun operands => ∀ e ∈ operands, Built view e) (assembleAll (checked view) trees)
      (assembleAll (checkedAnew view) trees) := by
  induction trees with
  | nil => exact .ok (by simp)
  | cons tree rest ih =>
      obtain ⟨htree, hrest⟩ := List.forall_mem_cons.1 h
      exact htree.bind fun e he => (ih hrest).bind fun operands hoperands =>
        .ok (List.forall_mem_cons.2 ⟨he, hoperands⟩)

theorem sameOutcome_assembleFields {trees : List (String × Expr)}
    (h : ∀ tree ∈ trees, AssemblesAlike view tree.2) :
    SameOutcome (fun fields => ∀ field ∈ fields, Built view field.2)
      (assembleFields (checked view) trees) (assembleFields (checkedAnew view) trees) := by
  induction trees with
  | nil => exact .ok (by simp)
  | cons tree rest ih =>
      obtain ⟨htree, hrest⟩ := List.forall_mem_cons.1 h
      exact htree.bind fun e he => (ih hrest).bind fun fields hfields =>
        .ok (List.forall_mem_cons.2 ⟨he, hfields⟩)

theorem sameOutcome_assembleKeys {trees : List (Expr × Direction)}
    (h : ∀ tree ∈ trees, AssemblesAlike view tree.1) :
    SameOutcome (fun keys => ∀ key ∈ keys, Built view key.1)
      (assembleKeys (checked view) trees) (assembleKeys (checkedAnew view) trees) := by
  induction trees with
  | nil => exact .ok (by simp)
  | cons tree rest ih =>
      obtain ⟨htree, hrest⟩ := List.forall_mem_cons.1 h
      exact htree.bind fun e he => (ih hrest).bind fun keys hkeys =>
        .ok (List.forall_mem_cons.2 ⟨he, hkeys⟩)

theorem assemblesAlike (tree : Expr) : AssemblesAlike view tree := by
  induction tree using childInduction with
  | step tree ih =>
      have same {part : Expr} (h : (part, .same) ∈ tree.children) : AssemblesAlike view part :=
        ih (part, .same) h
      have nested {part : Expr} (h : (part, .nested) ∈ tree.children) : AssemblesAlike view part :=
        ih (part, .nested) h
      unfold AssemblesAlike
      cases tree with
      | context depth type =>
          cases depth with
          | zero => exact .ok (.input type)
          | succ depth => exact .ok (.outer (depth + 1))
      | literal v => exact .ok (.literal v)
      | field base name type =>
          refine (same (by simp [children])).bind fun base hbase => ?_
          exact sameOutcome_checked (by simpa [children] using hbase) fun _ => .field hbase
      | comparison op left right =>
          refine (same (by simp [children])).bind fun left hleft => ?_
          refine (same (by simp [children])).bind fun right hright => ?_
          exact sameOutcome_checked (by simpa [children] using ⟨hleft, hright⟩)
            fun _ => .comparison hleft hright
      | boolean op operands =>
          have htrees : ∀ e ∈ operands, AssemblesAlike view e := fun e he =>
            same (List.mem_map.2 ⟨e, he, rfl⟩)
          refine (sameOutcome_assembleAll htrees).bind fun operands hoperands => ?_
          refine .guard fun hnonempty => ?_
          refine sameOutcome_checked (by simpa [children] using hoperands) fun _ h => ?_
          exact .boolean hoperands ((if_neg hnonempty).trans h)
      | negation op operand =>
          refine (same (by simp [children])).bind fun operand hoperand => ?_
          exact sameOutcome_checked (by simpa [children] using hoperand) fun _ => .negation hoperand
      | arithmetic op left right type =>
          refine (same (by simp [children])).bind fun left hleft => ?_
          refine (same (by simp [children])).bind fun right hright => ?_
          exact sameOutcome_checked (by simpa [children] using ⟨hleft, hright⟩)
            fun _ => .arithmetic hleft hright
      | merge left right type =>
          refine (same (by simp [children])).bind fun left hleft => ?_
          refine (same (by simp [children])).bind fun right hright => ?_
          exact sameOutcome_checked (by simpa [children] using ⟨hleft, hright⟩)
            fun _ => .merge hleft hright
      | record fields type =>
          have htrees : ∀ field ∈ fields, AssemblesAlike view field.2 := fun field hfield =>
            same (List.mem_map.2 ⟨field, hfield, rfl⟩)
          refine (sameOutcome_assembleFields htrees).bind fun fields hfields => ?_
          cases hname : repeatedName? [] (fields.map Prod.fst) with
          | some name => exact .error _
          | none =>
              refine sameOutcome_checked ?_ fun _ h => .record hfields ?_
              · simpa only [children, List.forall_mem_map] using hfields
              · rw [mkRecord, hname]
                exact h
      | function f argument =>
          refine (same (by simp [children])).bind fun argument hargument => ?_
          exact sameOutcome_checked (by simpa [children] using hargument)
            fun _ => .function hargument
      | filter source predicate =>
          refine (same (by simp [children])).bind fun source hsource => ?_
          refine (nested (by simp [children])).bind fun predicate hpredicate => ?_
          exact sameOutcome_checked (by simpa [children] using ⟨hsource, hpredicate⟩)
            fun _ => .filter hsource hpredicate
      | map source projection type =>
          refine (same (by simp [children])).bind fun source hsource => ?_
          refine (nested (by simp [children])).bind fun projection hprojection => ?_
          exact sameOutcome_checked (by simpa [children] using ⟨hsource, hprojection⟩)
            fun _ => .map hsource hprojection
      | sort source keys =>
          have htrees : ∀ key ∈ keys, AssemblesAlike view key.1 := fun key hkey =>
            nested (List.mem_cons_of_mem _ (List.mem_map.2 ⟨key, hkey, rfl⟩))
          refine (same (by simp [children])).bind fun source hsource => ?_
          refine (sameOutcome_assembleKeys htrees).bind fun keys hkeys => ?_
          refine .guard fun hnonempty => ?_
          refine sameOutcome_checked ?_ fun _ h =>
            .sort hsource hkeys ((if_neg hnonempty).trans h)
          simpa only [children, List.forall_mem_cons, List.forall_mem_map] using ⟨hsource, hkeys⟩
      | groupBy source key total type =>
          refine (same (by simp [children])).bind fun source hsource => ?_
          refine (nested (by simp [children])).bind fun key hkey => ?_
          refine (nested (by simp [children])).bind fun total htotal => ?_
          exact sameOutcome_checked (by simpa [children] using ⟨hsource, hkey, htotal⟩)
            fun _ => .groupBy hsource hkey htotal
      | aggregate op source projection type =>
          cases projection with
          | none =>
              refine (same (by simp [children])).bind fun source hsource => ?_
              exact sameOutcome_checked (by simpa [children] using hsource)
                fun _ => .aggregate hsource (by simp)
          | some projection =>
              refine (same (by simp [children])).bind fun source hsource => ?_
              refine (nested (by simp [children])).bind fun projection hprojection => ?_
              exact sameOutcome_checked (by simpa [children] using ⟨hsource, hprojection⟩)
                fun _ => .aggregate hsource (by simpa using hprojection)
      | distinct source =>
          refine (same (by simp [children])).bind fun source hsource => ?_
          exact sameOutcome_checked (by simpa [children] using hsource) fun _ => .distinct hsource
      | slice source start stop =>
          refine (same (by simp [children])).bind fun source hsource => ?_
          exact sameOutcome_checked (by simpa [children] using hsource) fun _ => .slice hsource
      | one source default type =>
          cases default with
          | none =>
              refine (same (by simp [children])).bind fun source hsource => ?_
              exact sameOutcome_checked (by simpa [children] using hsource)
                fun _ => .one hsource (by simp)
          | some default =>
              refine (same (by simp [children])).bind fun source hsource => ?_
              refine (same (by simp [children])).bind fun default hdefault => ?_
              exact sameOutcome_checked (by simpa [children] using ⟨hsource, hdefault⟩)
                fun _ => .one hsource (by simpa using hdefault)

end Agreement

/-- Every node of a built expression carries the type that is derived for it while no type is
trusted. So trust decides nothing: a new node gets the same type or fails with the same error
under any bindings, trees are put together alike, and what can be built is what can be put
together with all types derived anew. -/
theorem carried_types_derived (view : ItemRef → String) :
    (∀ e, Built view e → ∀ path node, e.node? path = some node →
      derive false view [] node = .ok node.datatype) ∧
    (∀ e, (∀ part ∈ e.children, Built view part.1) → ∀ scopes,
      derive true view scopes e = derive false view scopes e) ∧
    (∀ tree, assemble (checked view) tree = assemble (checkedAnew view) tree) ∧
    ∀ e, Built view e ↔ ∃ tree, assemble (checkedAnew view) tree = .ok e := by
  have alike (tree : Expr) : assemble (checked view) tree = assemble (checkedAnew view) tree :=
    (assemblesAlike tree).1
  refine ⟨?_, ?_, alike, ?_⟩
  · intro e built path node hnode
    exact derive_of_built (built.node hnode)
  · intro e parts scopes
    exact derive_trusting_of_built parts scopes
  · intro e
    constructor
    · intro built
      exact ⟨e, (alike e).symm.trans built.assemble_eq⟩
    · rintro ⟨tree, htree⟩
      exact (assemblesAlike tree).2 e ((alike tree).trans htree)

/-- The records whose number is greater than the number of all records. -/
def outnumbering : Expr :=
  .filter (.input (.list (.record [("n", .int)] false)))
    (.comparison .greater (.field (.outer 0) "n" .any) (.aggregate .len (.outer 1) none .int))

theorem built_outnumbering (view : ItemRef → String) : outnumbering.Built view := by
  have number : mkField view (.outer 0) "n" = .ok (.field (.outer 0) "n" .any) := rfl
  have size : mkAggregate view .len (.outer 1) none = .ok (.aggregate .len (.outer 1) none .int) :=
    rfl
  have greater : mkComparison view .greater (.field (.outer 0) "n" .any)
    (.aggregate .len (.outer 1) none .int) = .ok (.comparison .greater (.field (.outer 0) "n" .any)
      (.aggregate .len (.outer 1) none .int)) := rfl
  have filtered : mkFilter view (.input (.list (.record [("n", .int)] false)))
    (.comparison .greater (.field (.outer 0) "n" .any) (.aggregate .len (.outer 1) none .int)) =
      .ok outnumbering := rfl
  exact .filter (.input _) (.comparison (.field (.outer 0) number)
    (.aggregate (.outer 1) (by simp) size) greater) filtered

/-- The number of records is an integer, also inside of a predicate. -/
theorem carried_types_derived_outnumbering :
    outnumbering.Built (fun _ => "") ∧
      outnumbering.node? [1, 1] = some (.aggregate .len (.outer 1) none .int) ∧
      derive false (fun _ => "") [] (.aggregate .len (.outer 1) none .int) = .ok .int ∧
      (∀ scopes, derive true (fun _ => "") scopes outnumbering =
        derive false (fun _ => "") scopes outnumbering) ∧
      ∃ tree, assemble (checkedAnew fun _ => "") tree = .ok outnumbering := by
  obtain ⟨carried, trusted, -, assembled⟩ := carried_types_derived fun _ => ""
  have built := built_outnumbering fun _ => ""
  exact ⟨built, rfl, carried outnumbering built [1, 1] _ rfl, trusted outnumbering built.part,
    (assembled outnumbering).1 built⟩

end RecordAlgebra.Expr
