import RecordAlgebra.Proofs.Eval.Running
import RecordAlgebra.Proofs.Item.Heap
import RecordAlgebra.Proofs.Typing.Built
import RecordAlgebra.Proofs.Typing.Derivation

/-!
# Running typed expressions

What running a built expression gives fits the type that the expression carries. The
one thing to be excluded are merges whose right operand may hold fields that its type
does not list, while the type of the left one says something about them.
-/

namespace RecordAlgebra

variable {known : ItemRef → Prop} {vs : List Value}

/-- Known items fit, and nothing but these values was read from the input in the cell. -/
def World.Reading (known : ItemRef → Prop) (vs : List Value) (cell : Nat) (w : World) : Prop :=
  w.ItemsFit known ∧ ∀ us, w.inputs[cell]? = some (.materialized us) → ∀ u ∈ us, u ∈ vs

/-- What keeps the inputs as they are keeps what is known of them. -/
theorem Ensures.reading {α : Type} {P : α → Prop} {m : EvalM α} {cell : Nat}
    (h : ∀ inputs, Ensures (World.Quiet known inputs) P m) :
    Ensures (World.Reading known vs cell) P m := by
  intro w hw
  obtain ⟨⟨hitems, hinputs⟩, hresult⟩ := h w.inputs w ⟨hw.1, rfl⟩
  refine ⟨⟨hitems, ?_⟩, hresult⟩
  rw [hinputs]
  exact hw.2

theorem ItemAccess.live_reads (cell : Nat) : live.Reads known (World.Reading known vs cell) where
  field ref name href := .reading fun _ => live_reads_quiet.field ref name href
  entries ref href := .reading fun _ => live_reads_quiet.entries ref href
  equal a b ha hb := .reading fun _ => live_reads_quiet.equal a b ha hb
  digest ref href := .reading fun _ => live_reads_quiet.digest ref href
  view := rfl

namespace Input

variable {input : Input}

theorem setState_ensures (state : InputState)
    (hstate : ∀ us, state = .materialized us → ∀ u ∈ us, u ∈ vs) :
    Ensures (World.Reading known vs input.cell) (fun _ => True) (input.setState state) := by
  refine .modified (fun w hw => ⟨fun ref cell => hw.1 ref cell, fun us hus => ?_⟩) trivial
  simp only [Array.getElem?_setIfInBounds] at hus
  split at hus
  · split at hus
    · exact hstate us (Option.some.inj hus)
    · cases hus
  · exact hw.2 us hus

/-- Reading an input gives its values, kept or not. -/
theorem sends_of_source (input : Input) (hsource : input.source = pure (.ofValues vs)) :
    input.Sends (World.Reading known vs input.cell) vs := by
  intro P hP
  refine .get fun w hw => ?_
  split
  · next us hus => exact .pure (Sequence.sends_ofValues fun u hu => hP u (hw.2 us hus u hu))
  · refine (setState_ensures .consumed fun _ h => by cases h).bind fun _ _ => ?_
    rw [hsource, pure_bind]
    split
    · have hcollect : Ensures (World.Reading known vs input.cell) (fun us => ∀ u ∈ us, u ∈ vs)
          (Sequence.ofValues vs).collect :=
        (Sequence.sends_ofValues fun _ hv => hv).collect
      refine hcollect.bind fun us hus => ?_
      refine (setState_ensures (.materialized us) fun _ h => ?_).bind fun _ _ => .pure ?_
      · cases h
        exact hus
      · exact Sequence.sends_ofValues fun u hu => hP u (hus u hu)
    · exact .pure (Sequence.sends_ofValues hP)
  · exact .fail _

end Input

namespace Expr

variable {view : ItemRef → String} {e : Expr} {w w' : World} {v : Value}

/-- The value that a built expression gives for an input fits the type of the
expression, if the input fits the types that are declared for it and all merged
mappings join. -/
theorem run_fits (built : e.Built view) (items : w.ItemsFit known)
    (literals : ∀ v, e.HasLiteral v → v.Known known)
    (declared : ∀ scopes type, Occurs view [] e scopes (.context scopes.length type) →
      (Value.list vs).Fits known type)
    (merges : ∀ scopes left right type l r a b, Occurs view [] e scopes (.merge left right type) →
      derive false view scopes left = .ok l → derive false view scopes right = .ok r →
        l.recordType? = some a → r.recordType? = some b → a.Joins b)
    (h : (do (← e.run .live (.ofValues vs)).intoValue : EvalM Value).run w = (.ok v, w')) :
    v.Fits known e.datatype ∧ w'.ItemsFit known := by
  have checks : Checks view (sound known vs) [] e :=
    ⟨built.carriesType_and_proper.2, fun _ _ _ _ _ => trivial, declared, literals, merges⟩
  have typed := typed_of_derive checks (derive_of_built built)
  have outcome (materialize : Bool) : Ensures (World.Reading known vs w.inputs.size)
      (fun v => v.Fits known e.datatype) (do
        (← eval .live .empty [.input { cell := w.inputs.size, materialize
                                       source := pure (.ofValues vs) }] e).intoValue) := by
    refine EvalFits.value (typed.evalFits (ItemAccess.live_reads _)
      ⟨fun depth t ht => by simp at ht, fun binding hbinding => ?_, fun depth hdepth => ?_⟩)
    · cases hbinding
      exact ⟨_, rfl, Input.sends_of_source
        { cell := w.inputs.size, materialize, source := pure (.ofValues vs) } rfl⟩
    · exact List.getElem?_eq_none hdepth
  have created : World.Reading known vs w.inputs.size (Input.stateCreated w) := by
    refine ⟨fun ref cell => items ref cell, fun us hus => ?_⟩
    rw [Input.stateCreated_self] at hus
    cases hus
  obtain ⟨hafter, hresult⟩ := outcome _ _ created
  rw [run, runWith, EvalM.bind_assoc', EvalM.run_bind_ok (Input.run_create _ _ w)] at h
  rw [h] at hafter hresult
  exact ⟨hresult v rfl, hafter.1⟩

section Merges

/-- The record with one field that is one. -/
def single (name : String) : Expr :=
  .record [(name, .literal (.int 1))] (.record [(name, .int)] false)

theorem built_single (name : String) : (single name).Built view := by
  have hrecord : mkRecord view [(name, .literal (.int 1))] = .ok (single name) := rfl
  refine .record (fun field hfield => ?_) hrecord
  rw [List.mem_singleton.1 hfield]
  exact .literal _

theorem occurs_single {name : String} {scopes s : List DataType} {node : Expr}
    (h : Occurs view scopes (single name) s node) :
    s = scopes ∧ (node = single name ∨ node = .literal (.int 1)) := by
  rcases h.of_same (by simp [single, children]) with ⟨rfl, rfl⟩ | ⟨child, hchild, h⟩
  · exact ⟨rfl, .inl rfl⟩
  · rw [List.mem_singleton.1 hchild] at h
    obtain ⟨rfl, rfl⟩ := h.of_leaf rfl
    exact ⟨rfl, .inr rfl⟩

theorem literal_of_single {name : String} (h : (single name).HasLiteral v) : v = .int 1 := by
  rcases h.part_or_self with h | ⟨part, hpart, h⟩
  · cases h
  · rw [List.mem_singleton.1 hpart] at h
    rcases h.part_or_self with h | ⟨part, hpart, -⟩
    · cases h
      rfl
    · simp [children] at hpart

theorem occurs_of_mapMerge {source left right : Expr} {type merged : DataType}
    {s : List DataType} {node : Expr} (hsource : source.children = [])
    (h : Occurs view [] (.map source (.merge left right merged) type) s node) :
    (s = [] ∧ (node = .map source (.merge left right merged) type ∨ node = source)) ∨
      ∃ t element, derive false view [] source = .ok t ∧ t.elementType = .ok element ∧
        ((s = [element] ∧ node = .merge left right merged) ∨
          Occurs view [element] left s node ∨ Occurs view [element] right s node) := by
  rcases h.of_map with ⟨rfl, rfl⟩ | h | ⟨t, element, ht, helement, h⟩
  · exact .inl ⟨rfl, .inl rfl⟩
  · obtain ⟨rfl, rfl⟩ := h.of_leaf hsource
    exact .inl ⟨rfl, .inr rfl⟩
  · refine .inr ⟨t, element, ht, helement, ?_⟩
    rcases h.of_same (by simp [children]) with ⟨rfl, rfl⟩ | ⟨child, hchild, h⟩
    · exact .inl ⟨rfl, rfl⟩
    · simp only [children, List.mem_cons, List.not_mem_nil, or_false] at hchild
      rcases hchild with rfl | rfl
      · exact .inr (.inl h)
      · exact .inr (.inr h)

theorem literal_of_mapMerge {source left right : Expr} {type merged : DataType}
    (h : (Expr.map source (.merge left right merged) type).HasLiteral v) :
    source.HasLiteral v ∨ left.HasLiteral v ∨ right.HasLiteral v := by
  rcases h.part_or_self with h | ⟨part, hpart, h⟩
  · cases h
  · simp only [children, List.mem_cons, List.not_mem_nil, or_false] at hpart
    rcases hpart with rfl | rfl
    · exact .inl h
    · rcases h.part_or_self with h | ⟨part, hpart, h⟩
      · cases h
      · simp only [children, List.mem_cons, List.not_mem_nil, or_false] at hpart
        rcases hpart with rfl | rfl
        · exact .inr (.inl h)
        · exact .inr (.inr h)

/-- Records with a text, and one more field for each. -/
def tagged : Expr :=
  .map (.input (.list (.record [("a", .text)] false)))
    (.merge (.outer 0) (single "b") (.record [("b", .int)] true))
    (.list (.record [("a", .text), ("b", .int)] false))

theorem built_tagged (view : ItemRef → String) : tagged.Built view := by
  have hmerge : mkMerge view (.outer 0) (single "b") =
    .ok (.merge (.outer 0) (single "b") (.record [("b", .int)] true)) := rfl
  have hmap : mkMap view (.input (.list (.record [("a", .text)] false)))
    (.merge (.outer 0) (single "b") (.record [("b", .int)] true)) = .ok tagged := rfl
  exact .map (.input _) (.merge (.outer 0) (built_single "b") hmerge) hmap

theorem occurs_tagged {scopes : List DataType} {node : Expr}
    (h : Occurs view [] tagged scopes node) :
    (scopes = [] ∧ (node = tagged ∨ node = .input (.list (.record [("a", .text)] false)))) ∨
      (scopes = [.record [("a", .text)] false] ∧
        (node = .merge (.outer 0) (single "b") (.record [("b", .int)] true) ∨ node = .outer 0 ∨
          node = single "b" ∨ node = .literal (.int 1))) := by
  rcases occurs_of_mapMerge rfl h with h | ⟨t, element, ht, helement, h⟩
  · exact .inl h
  · cases ht
    cases helement
    rcases h with ⟨rfl, rfl⟩ | h | h
    · exact .inr ⟨rfl, .inl rfl⟩
    · obtain ⟨rfl, rfl⟩ := h.of_leaf rfl
      exact .inr ⟨rfl, .inr (.inl rfl)⟩
    · obtain ⟨rfl, rfl | rfl⟩ := occurs_single h
      · exact .inr ⟨rfl, .inr (.inr (.inl rfl))⟩
      · exact .inr ⟨rfl, .inr (.inr (.inr rfl))⟩

/-- A field is added to a record with a text. -/
theorem run_tagged_fits :
    (Value.list [.record [("a", .text "x"), ("b", .int 1)]]).Fits (fun _ => False)
      tagged.datatype := by
  have items : World.ItemsFit (fun _ => False) {} := fun _ _ h => h.elim
  have outcome : (do (← tagged.run .live (.ofValues [.record [("a", .text "x")]])).intoValue :
      EvalM Value).run {} = (.ok (.list [.record [("a", .text "x"), ("b", .int 1)]]),
        { inputs := #[.consumed] }) := rfl
  refine (run_fits (built_tagged Datum.unseen) items (fun v hv => ?_) (fun scopes type h => ?_)
    (fun scopes left right type l r a b h _ hr _ hb hopen => ?_) outcome).1
  · rcases literal_of_mapMerge hv with h | h | h
    · rcases h.part_or_self with h | ⟨_, hpart, -⟩
      · cases h
      · simp [input, children] at hpart
    · rcases h.part_or_self with h | ⟨_, hpart, -⟩
      · cases h
      · simp [outer, children] at hpart
    · rw [literal_of_single h]
      exact .single rfl
  · rcases occurs_tagged h with ⟨rfl, h | h⟩ | ⟨rfl, h | h | h | h⟩ <;> cases h
    have row : (Value.record [("a", .text "x")]).Known fun _ => False :=
      .record (by simp [Fields.names]) (by simpa using .single rfl)
    refine .list fun v hv => ?_
    rw [List.mem_singleton.1 hv]
    exact row.fits_datatype
  · rcases occurs_tagged h with ⟨rfl, h | h⟩ | ⟨rfl, h | h | h | h⟩ <;> cases h
    cases hr
    cases hb
    cases hopen

/-- A record on the left, and whatever else a value holds. -/
def overlaid : Expr :=
  .map (.outer 0) (.merge (single "a") (.outer 0) (.record [("a", .int)] true))
    (.list (.record [("a", .int)] true))

theorem built_overlaid (view : ItemRef → String) : overlaid.Built view := by
  have hmerge : mkMerge view (single "a") (.outer 0) =
    .ok (.merge (single "a") (.outer 0) (.record [("a", .int)] true)) := rfl
  have hmap : mkMap view (.outer 0)
    (.merge (single "a") (.outer 0) (.record [("a", .int)] true)) = .ok overlaid := rfl
  exact .map (.outer 0) (.merge (built_single "a") (.outer 0) hmerge) hmap

theorem occurs_overlaid {scopes : List DataType} {node : Expr}
    (h : Occurs view [] overlaid scopes node) :
    (scopes = [] ∧ (node = overlaid ∨ node = .outer 0)) ∨
      (scopes = [.any] ∧ (node = .merge (single "a") (.outer 0) (.record [("a", .int)] true) ∨
        (node = single "a" ∨ node = .literal (.int 1)) ∨ node = .outer 0)) := by
  rcases occurs_of_mapMerge rfl h with h | ⟨t, element, ht, helement, h⟩
  · exact .inl h
  · cases ht
    cases helement
    rcases h with ⟨rfl, rfl⟩ | h | h
    · exact .inr ⟨rfl, .inl rfl⟩
    · obtain ⟨rfl, hnode⟩ := occurs_single h
      exact .inr ⟨rfl, .inr (.inl hnode)⟩
    · obtain ⟨rfl, rfl⟩ := h.of_leaf rfl
      exact .inr ⟨rfl, .inr (.inr rfl)⟩

/-- Where merged mappings do not join, a value need not fit: a text takes the place of an
integer. -/
theorem run_overlaid_misfits :
    overlaid.Built Datum.unseen ∧ World.ItemsFit (fun _ => False) {} ∧
      (∀ v, overlaid.HasLiteral v → v.Known fun _ => False) ∧
      (∀ scopes type, Occurs Datum.unseen [] overlaid scopes (.context scopes.length type) →
        (Value.list [.record [("a", .text "x")]]).Fits (fun _ => False) type) ∧
      (do (← overlaid.run .live (.ofValues [.record [("a", .text "x")]])).intoValue :
        EvalM Value).run {} =
          (.ok (.list [.record [("a", .text "x")]]), { inputs := #[.consumed] }) ∧
      ¬(Value.list [.record [("a", .text "x")]]).Fits (fun _ => False) overlaid.datatype := by
  refine ⟨built_overlaid _, fun _ _ h => h.elim, fun v hv => ?_, fun scopes type h => ?_, rfl,
    fun h => ?_⟩
  · rcases literal_of_mapMerge hv with h | h | h
    · rcases h.part_or_self with h | ⟨_, hpart, -⟩
      · cases h
      · simp [outer, children] at hpart
    · rw [literal_of_single h]
      exact .single rfl
    · rcases h.part_or_self with h | ⟨_, hpart, -⟩
      · cases h
      · simp [outer, children] at hpart
  · have row : (Value.record [("a", .text "x")]).Known fun _ => False :=
      .record (by simp [Fields.names]) (by simpa using .single rfl)
    rcases occurs_overlaid h with ⟨rfl, h | h⟩ | ⟨rfl, h | (h | h) | h⟩ <;> cases h
    refine .any (.list fun v hv => ?_)
    rw [List.mem_singleton.1 hv]
    exact row
  · have hrecord := h.elements _ (List.mem_singleton.2 rfl)
    cases hrecord with
    | record _ _ _ fits _ =>
        cases fits "a" .int (.text "x") rfl rfl with
        | scalar _ h => cases h

end Merges

end Expr

end RecordAlgebra
