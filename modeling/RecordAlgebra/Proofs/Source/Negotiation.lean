import RecordAlgebra.Proofs.Source.Faithful

/-!
# Negotiated execution of faithful sources

Negotiation with a faithful source collects outputs for nodes that mean what the outputs
give, so evaluating the rest computes the meaning of the whole. The one exception are
remainders: they are evaluated while it is still negotiated, and if one fails then, the
execution fails, whether or not plain evaluation would come to that node.
-/

namespace RecordAlgebra

/-- The action ends with a result or an error of which something is known, in a state that
keeps the heap and all shared inputs, and may have some more of them. -/
def Concludes {α : Type} (shared : Shared) (w : World) (m : EvalM α)
    (R : Shared → World → α → Prop) (F : ErrorKind → Prop) : Prop :=
  ∃ others, shared.Within others ∧ w.Extends (m.run w).2 ∧ (m.run w).2.Holds others ∧
    match (m.run w).1 with
    | .ok a => R others (m.run w).2 a
    | .error (.raised error) => F error.kind
    | .error .diverged => False

section

variable {shared : Shared} {w : World} {α β γ : Type}

theorem Concludes.pure {a : α} {R : Shared → World → α → Prop} {F : ErrorKind → Prop}
    (hholds : w.Holds shared) (h : R shared w a) : Concludes shared w (pure a) R F :=
  ⟨shared, fun _ _ h => h, .refl w, hholds, h⟩

theorem Concludes.imp {m : EvalM α} {R S : Shared → World → α → Prop} {F G : ErrorKind → Prop}
    (h : Concludes shared w m R F) (hRS : ∀ others w' a, R others w' a → S others w' a)
    (hFG : ∀ kind, F kind → G kind) : Concludes shared w m S G := by
  obtain ⟨others, hwithin, hheap, hholds, hends⟩ := h
  refine ⟨others, hwithin, hheap, hholds, ?_⟩
  rcases hm : (m.run w).1 with (e | _) | a <;> rw [hm] at hends
  · exact hFG _ hends
  · exact hends
  · exact hRS _ _ _ hends

theorem Concludes.bind {m : EvalM α} {f : α → EvalM β} {R : Shared → World → α → Prop}
    {S : Shared → World → β → Prop} {F : ErrorKind → Prop} (h : Concludes shared w m R F)
    (step : ∀ a others w', shared.Within others → w.Extends w' → w'.Holds others →
      R others w' a → Concludes others w' (f a) S F) : Concludes shared w (m >>= f) S F := by
  obtain ⟨others, hwithin, hheap, hholds, hends⟩ := h
  rw [Concludes, EvalM.run_bind]
  rcases hm : m.run w with ⟨(e | _) | a, w'⟩ <;> rw [hm] at hheap hholds hends
  · exact ⟨others, hwithin, hheap, hholds, hends⟩
  · exact hends.elim
  · obtain ⟨more, hwithin', hheap', hholds', hends'⟩ :=
      step a others w' hwithin hheap hholds hends
    exact ⟨more, fun i ds hi => hwithin' i ds (hwithin i ds hi), hheap.trans hheap', hholds',
      hends'⟩

/-- A step after an action whose result is known. -/
theorem Settles.bind_ok {m : EvalM α} {R : Shared → World → α → β → Prop} {b : β}
    {f : α → EvalM γ} {δ : Type} {S : Shared → World → γ → δ → Prop} {t : Except ErrorKind δ}
    (h : Settles shared w m R (.ok b))
    (step : ∀ a others w', shared.Within others → w.Extends w' → w'.Holds others →
      R others w' a b → Settles others w' (f a) S t) : Settles shared w (m >>= f) S t := by
  obtain ⟨others, hwithin, hheap, hholds, hends⟩ := h
  obtain ⟨a, ha, hab⟩ := hends.ok_right
  rw [Settles, EvalM.run_bind]
  rcases hm : m.run w with ⟨x, w'⟩
  rw [hm] at hheap hholds ha hab
  cases ha
  obtain ⟨more, hwithin', hheap', hholds', hends'⟩ := step a others w' hwithin hheap hholds hab
  exact ⟨more, fun i ds hi => hwithin' i ds (hwithin i ds hi), hheap.trans hheap', hholds',
    hends'⟩

theorem Settles.bind_error {m : EvalM α} {R : Shared → World → α → β → Prop}
    {kind : ErrorKind} (h : Settles shared w m R (.error kind)) (f : α → EvalM γ) {δ : Type}
    (S : Shared → World → γ → δ → Prop) : Settles shared w (m >>= f) S (.error kind) := by
  obtain ⟨others, hwithin, hheap, hholds, hends⟩ := h
  obtain ⟨e, he, hkind⟩ := hends.error_right
  rw [Settles, EvalM.run_bind]
  rcases hm : m.run w with ⟨x, w'⟩
  rw [hm] at hheap hholds he
  cases he
  exact ⟨others, hwithin, hheap, hholds, hkind⟩

end

namespace Negotiation

section Parts

variable (access : ItemAccess EvalM) (source : Source) (limit depth : Nat)

/-- The outputs for parts from a position on. -/
def negotiateParts (position : Nat) : List (Expr × ChildScope) → EvalM (List (Path × Output))
  | [] => pure []
  | (e, .same) :: rest => do
      let first ← negotiate access source limit depth e
      let others ← negotiateParts (position + 1) rest
      pure (atPart position first ++ others)
  | (_, .nested) :: rest => negotiateParts (position + 1) rest

variable {access source limit depth}

theorem negotiateAll_eq (position : Nat) (operands : List Expr) :
    negotiateAll access source limit depth position operands =
      negotiateParts access source limit depth position (operands.map (·, .same)) := by
  induction operands generalizing position with
  | nil => rfl
  | cons e rest ih =>
      rw [negotiateAll, List.map_cons, negotiateParts, ih]

theorem negotiateFields_eq (position : Nat) (fields : List (String × Expr)) :
    negotiateFields access source limit depth position fields =
      negotiateParts access source limit depth position
        (fields.map fun field => (field.2, .same)) := by
  induction fields generalizing position with
  | nil => rfl
  | cons field rest ih =>
      rw [negotiateFields, List.map_cons, negotiateParts, ih]

theorem negotiateParts_nested {parts : List (Expr × ChildScope)}
    (h : ∀ part ∈ parts, part.2 = .nested) (position : Nat) :
    negotiateParts access source limit depth position parts = pure [] := by
  induction parts generalizing position with
  | nil => rfl
  | cons part rest ih =>
      obtain ⟨e, scope⟩ := part
      obtain rfl : scope = .nested := h (e, scope) (by simp)
      rw [negotiateParts]
      exact ih (fun part hpart => h part (by simp [hpart])) _

/-- Only the part that sees the same bindings is negotiated. -/
theorem negotiateParts_first {parts : List (Expr × ChildScope)}
    (h : ∀ part ∈ parts, part.2 = .nested) (e : Expr) :
    negotiateParts access source limit depth 0 ((e, .same) :: parts) =
      (do return atPart 0 (← negotiate access source limit depth e)) := by
  rw [negotiateParts]
  simp only [negotiateParts_nested h, pure_bind, List.append_nil]

theorem negotiateParts_both (left right : Expr) :
    negotiateParts access source limit depth 0 [(left, .same), (right, .same)] =
      (do
        let first ← negotiate access source limit depth left
        let second ← negotiate access source limit depth right
        pure (atPart 0 first ++ atPart 1 second)) := by
  rw [negotiateParts]
  simp only [negotiateParts, bind_assoc, pure_bind, List.append_nil]

theorem negotiated_of_parts {e : Expr} {parts : EvalM (List (Path × Output))}
    (h : parts = negotiateParts access source limit (depth + 1) 0 e.children) :
    (if limit < depth || e.inputReferences.total = 0 || e.isContext then pure []
      else do
        match ← if e.inputReferences.isSingleDirect then offered? access source e
          else pure none with
        | some output => pure [([], output)]
        | none => parts) =
      if limit < depth || e.inputReferences.total = 0 || e.isContext then pure []
      else if e.inputReferences.isSingleDirect then
        offered? access source e >>= fun
          | some output => pure [([], output)]
          | none => negotiateParts access source limit (depth + 1) 0 e.children
      else negotiateParts access source limit (depth + 1) 0 e.children := by
  subst h
  by_cases hdirect : e.inputReferences.isSingleDirect = true
  · rw [if_pos hdirect, if_pos hdirect]
  · rw [if_neg hdirect, if_neg hdirect, pure_bind]

/-- Unless it is executed by the source, an expression is left to its parts. -/
theorem negotiate_eq (e : Expr) :
    negotiate access source limit depth e =
      if limit < depth || e.inputReferences.total = 0 || e.isContext then pure []
      else if e.inputReferences.isSingleDirect then
        offered? access source e >>= fun
          | some output => pure [([], output)]
          | none => negotiateParts access source limit (depth + 1) 0 e.children
      else negotiateParts access source limit (depth + 1) 0 e.children := by
  rw [negotiate.eq_def]
  cases e with
  | boolean op operands => exact negotiated_of_parts (negotiateAll_eq 0 operands)
  | record fields type => exact negotiated_of_parts (negotiateFields_eq 0 fields)
  | comparison op left right | arithmetic op left right type | merge left right type =>
      exact negotiated_of_parts (negotiateParts_both left right).symm
  | one source default type =>
      cases default with
      | none => exact negotiated_of_parts (negotiateParts_first (by simp) source).symm
      | some default => exact negotiated_of_parts (negotiateParts_both source default).symm
  | sort source keys =>
      refine negotiated_of_parts (negotiateParts_first (fun part hpart => ?_) source).symm
      obtain ⟨key, -, rfl⟩ := List.mem_map.1 hpart
      rfl
  | context depth type | literal v => exact negotiated_of_parts rfl
  | _ => exact negotiated_of_parts (negotiateParts_first (by simp) _).symm

end Parts

section Faithful

variable {source : Source} {lit : Value → Datum} {w : World} {data : List Datum}

/-- Outputs for nodes of an expression that mean what the outputs give. -/
def Contributes (lit : Value → Datum) (data : List Datum) (e : Expr) (shared : Shared) (w : World)
    (outputs : List (Path × Output)) : Prop :=
  ∀ entry ∈ outputs, ∃ node r, e.sameNode? entry.1 = some node ∧
    node.denote lit [.input data] = .ok r ∧ Gives shared w entry.2 r

/-- The source may execute the expression in part. -/
def MayLeave (source : Source) (w : World) (e : Expr) : Prop :=
  ∃ w' output remainder w'', w.Extends w' ∧
    (source.offer e).run w' = (.ok (.partly output remainder), w'')

/-- A node that uses the input once is left in part by the source, and fails with an error
of this kind. -/
def FailsAlone (source : Source) (lit : Value → Datum) (w : World) (data : List Datum) (e : Expr)
    (kind : ErrorKind) : Prop :=
  ∃ path node, e.sameNode? path = some node ∧ node.inputReferences.isSingleDirect = true ∧
    MayLeave source w node ∧ node.denote lit [.input data] = .error kind

theorem Contributes.mono {e : Expr} {shared others : Shared} {w' : World}
    {outputs : List (Path × Output)} (h : Contributes lit data e shared w outputs)
    (hs : shared.Within others) (hw : w.Extends w') : Contributes lit data e others w' outputs := by
  intro entry hentry
  obtain ⟨node, r, hnode, hr, hgives⟩ := h entry hentry
  exact ⟨node, r, hnode, hr, (hgives.mono hw).within hs⟩

theorem sameNode?_part {e child : Expr} {position : Nat}
    (h : e.children[position]? = some (child, .same)) (path : Path) :
    e.sameNode? (position :: path) = child.sameNode? path := by
  rw [Expr.sameNode?, h]

theorem Contributes.atPart {e child : Expr} {position : Nat} {shared : Shared}
    {outputs : List (Path × Output)}
    (hchild : e.children[position]? = some (child, .same))
    (h : Contributes lit data child shared w outputs) :
    Contributes lit data e shared w (atPart position outputs) := by
  intro entry hentry
  obtain ⟨part, hpart, rfl⟩ := List.mem_map.1 hentry
  obtain ⟨node, r, hnode, hr⟩ := h part hpart
  exact ⟨node, r, (sameNode?_part hchild part.1).trans hnode, hr⟩

theorem FailsAlone.ofPart {e child : Expr} {position : Nat} {kind : ErrorKind}
    (hchild : e.children[position]? = some (child, .same))
    (h : FailsAlone source lit w data child kind) : FailsAlone source lit w data e kind := by
  obtain ⟨path, node, hnode, hrest⟩ := h
  exact ⟨position :: path, node, (sameNode?_part hchild path).trans hnode, hrest⟩

theorem Contributes.append {e : Expr} {shared : Shared} {first others : List (Path × Output)}
    (hfirst : Contributes lit data e shared w first)
    (hothers : Contributes lit data e shared w others) :
    Contributes lit data e shared w (first ++ others) := by
  intro entry hentry
  rcases List.mem_append.1 hentry with h | h
  · exact hfirst entry h
  · exact hothers entry h

/-- What the source does with an expression that it is offered. -/
theorem offered_concludes (faithful : source.Faithful lit w data) {e : Expr}
    (single : e.inputReferences.isSingleDirect = true) (hcontext : e.isContext = false)
    (literals : ∀ v, e.HasLiteral v → w.Shows v (lit v)) {w' : World} (hw : w.Extends w')
    {shared : Shared} (hholds : w'.Holds shared) :
    Concludes shared w' (offered? .live source e)
      (fun others w'' found => ∀ output, found = some output →
        ∃ r, e.denote lit [.input data] = .ok r ∧ Gives others w'' output r)
      (FailsAlone source lit w data e) := by
  obtain ⟨execution, w'', hrun, hheap, hinputs, hanswers⟩ :=
    faithful.offer e single hcontext literals w' hw
  have hleads : w'.Leads shared none w'' := .of_extends hholds hheap hinputs
  have hholds' := hleads.holds
  rw [Concludes, offered?, EvalM.run_bind_ok hrun]
  cases execution with
  | accepted output =>
      obtain ⟨r, hr, hgives⟩ := hanswers
      refine ⟨shared, fun _ _ h => h, hheap, hholds', ?_⟩
      rintro _ ⟨⟩
      exact ⟨r, hr, hgives.within (Shared.empty_within shared)⟩
  | declined => exact ⟨shared, fun _ _ h => h, hheap, hholds', fun output h => by cases h⟩
  | partly output remainder =>
      obtain ⟨others, hwithin, hheap', hholds'', hends⟩ := hanswers shared w'' (.refl w'') hholds'
      simp only
      rw [EvalM.run_bind]
      rcases hm : (runRemainder .live remainder (source.output output)).run w''
        with ⟨(error | _) | given, w₃⟩ <;> rw [hm] at hheap' hholds'' hends
      · refine ⟨others, hwithin, hheap.trans hheap', hholds'', [], e, rfl, single,
          ⟨w', output, remainder, w'', hw, hrun⟩, ?_⟩
        cases hmeans : e.denote lit [.input data] with
        | ok r =>
            rw [hmeans] at hends
            exact hends.elim
        | error kind =>
            rw [hmeans] at hends
            exact congrArg Except.error hends.symm
      · cases hmeans : e.denote lit [.input data] <;> rw [hmeans] at hends <;> exact hends.elim
      · refine ⟨others, hwithin, hheap.trans hheap', hholds'', ?_⟩
        rintro _ ⟨⟩
        cases hmeans : e.denote lit [.input data] with
        | ok r =>
            rw [hmeans] at hends
            exact ⟨r, rfl, hends⟩
        | error kind =>
            rw [hmeans] at hends
            exact hends.elim

theorem negotiateParts_concludes {limit depth : Nat} {e : Expr}
    (ih : ∀ part ∈ e.children, ∀ shared w', w.Extends w' → w'.Holds shared →
      Concludes shared w' (negotiate .live source limit depth part.1)
        (Contributes lit data part.1) (FailsAlone source lit w data part.1))
    {shared : Shared} {w' : World} (hw : w.Extends w') (hholds : w'.Holds shared) (position : Nat)
    (parts : List (Expr × ChildScope)) (hparts : e.children.drop position = parts) :
    Concludes shared w' (negotiateParts .live source limit depth position parts)
      (Contributes lit data e) (FailsAlone source lit w data e) := by
  induction parts generalizing position shared w' with
  | nil => exact .pure hholds fun entry hentry => by cases hentry
  | cons part rest ihrest =>
      obtain ⟨child, scope⟩ := part
      have hchild : e.children[position]? = some (child, scope) := by
        rw [← List.head?_drop, hparts]
        rfl
      have hrest : e.children.drop (position + 1) = rest := by
        rw [← List.tail_drop, hparts]
        rfl
      cases scope with
      | nested => exact ihrest hw hholds (position + 1) hrest
      | same =>
          have hfirst := (ih _ (List.mem_of_getElem? hchild) shared w' hw hholds).imp
            (fun _ _ _ h => Contributes.atPart hchild h) fun _ h => FailsAlone.ofPart hchild h
          refine hfirst.bind fun first others w'' _ hw' hholds' hfirst => ?_
          refine (ihrest (hw.trans hw') hholds' (position + 1) hrest).bind
            fun found more w₃ hwithin hw'' hholds'' hfound => ?_
          exact .pure hholds'' ((hfirst.mono hwithin hw'').append hfound)

/-- Negotiation ends with outputs that mean what they stand for, or with the error of a
remainder. -/
theorem negotiate_concludes (faithful : source.Faithful lit w data) (limit depth : Nat) {e : Expr}
    (literals : ∀ v, e.HasLiteral v → w.Shows v (lit v)) {shared : Shared} {w' : World}
    (hw : w.Extends w') (hholds : w'.Holds shared) :
    Concludes shared w' (negotiate .live source limit depth e) (Contributes lit data e)
      (FailsAlone source lit w data e) := by
  induction e using Expr.childInduction generalizing depth shared w' with
  | step e ih =>
      have hparts {others : Shared} {w'' : World} (hw' : w.Extends w'') (h : w''.Holds others) :=
        negotiateParts_concludes (fun part hpart others w₃ hw'' hholds' =>
          ih part hpart (depth + 1) (fun v hv => literals v (hv.part hpart)) hw'' hholds')
          hw' h 0 e.children rfl
      rw [negotiate_eq]
      split
      · exact .pure hholds fun entry hentry => by cases hentry
      · next hcut =>
          simp only [Bool.or_eq_true, not_or, Bool.not_eq_true] at hcut
          split
          · next hsingle =>
              have hoffered := offered_concludes faithful hsingle hcut.2 literals hw hholds
              refine hoffered.bind fun found others w'' _ hw' hholds' hfound => ?_
              cases found with
              | none => exact hparts (hw.trans hw') hholds'
              | some output =>
                  obtain ⟨r, hr, hgives⟩ := hfound output rfl
                  refine .pure hholds' fun entry hentry => ?_
                  obtain rfl := List.mem_singleton.1 hentry
                  exact ⟨e, r, rfl, hr, hgives⟩
          · exact hparts hw hholds

theorem mem_of_ofList {outputs : List (Path × Output)} {path : Path} {output : Output}
    (h : Substitution.ofList outputs path = some output) : (path, output) ∈ outputs := by
  obtain ⟨before, after, rfl, -⟩ := List.lookup_eq_some_iff.1 h
  simp

theorem evaluate_settles (faithful : source.Faithful lit w data) {e : Expr}
    (literals : ∀ v, e.HasLiteral v → w.Shows v (lit v)) {shared : Shared} {w' : World}
    (hw : w.Extends w') (hholds : w'.Holds shared) :
    Settles shared w' (source.evaluate .live e) Gives (e.denote lit [.input data]) :=
  Expr.runWith_settles ItemAccess.live_readsLoaded hholds (faithful.opens hw)
    (fun v hv => (literals v hv).mono hw) fun _ _ h => by cases h

/-- If negotiation ends with outputs, evaluating with them computes the meaning. -/
theorem runNegotiated_settles (faithful : source.Faithful lit w data) (config : ExecutionConfig)
    {e : Expr} (literals : ∀ v, e.HasLiteral v → w.Shows v (lit v)) {shared : Shared} {w' : World}
    (hw : w.Extends w') (hholds : w'.Holds shared) {outputs : List (Path × Output)} {w'' : World}
    (h : (negotiate .live source config.maxNegotiationDepth 0 e).run w' = (.ok outputs, w'')) :
    Settles shared w' (runNegotiated .live source config e) Gives
      (e.denote lit [.input data]) := by
  obtain ⟨others, hwithin, hheap, hholds', hends⟩ :=
    negotiate_concludes faithful config.maxNegotiationDepth 0 literals hw hholds
  rw [h] at hheap hholds' hends
  have hw'' := hw.trans hheap
  have means (path : Path) (output : Output)
      (hpath : Substitution.ofList outputs path = some output) :=
    hends (path, output) (mem_of_ofList hpath)
  obtain ⟨more, hwithin', hheap', hholds'', hends'⟩ :=
    Expr.runWith_settles ItemAccess.live_readsLoaded hholds' (faithful.opens hw'')
      (fun v hv => (literals v hv).mono hw'') means
  rw [Settles, runNegotiated, EvalM.run_bind_ok h]
  exact ⟨more, fun i ds hi => hwithin' i ds (hwithin i ds hi), hheap.trans hheap', hholds'',
    hends'⟩

end Faithful

end Negotiation

end RecordAlgebra
