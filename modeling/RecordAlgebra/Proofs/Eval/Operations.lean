import RecordAlgebra.Proofs.Eval.Outputs

/-!
# Operations of expressions

Each operation on values computes the operation on the data that the values
show.
-/

namespace RecordAlgebra

namespace World

variable {w : World}

theorem forall₂_showsField_insert {vs : Fields Value} {ds : Fields Datum}
    (h : List.Forall₂ w.ShowsField vs ds) (name : String) {v : Value} {d : Datum}
    (hv : w.Shows v d) :
    List.Forall₂ w.ShowsField (Fields.insert name v vs) (Fields.insert name d ds) := by
  induction h with
  | nil => exact .cons ⟨rfl, hv⟩ .nil
  | @cons field other vs ds hfield hrest ih =>
      obtain ⟨first, v⟩ := field
      obtain ⟨_, d⟩ := other
      obtain ⟨rfl, hfirst⟩ := hfield
      rw [Fields.insert, Fields.insert]
      split
      · exact .cons ⟨rfl, hv⟩ hrest
      · exact .cons ⟨rfl, hfirst⟩ ih

theorem forall₂_showsField_insertAll {vs us : Fields Value} {ds es : Fields Datum}
    (h : List.Forall₂ w.ShowsField vs ds) (h' : List.Forall₂ w.ShowsField us es) :
    List.Forall₂ w.ShowsField (Fields.insertAll vs us) (Fields.insertAll ds es) := by
  induction h' generalizing vs ds with
  | nil => exact h
  | @cons field other us es hfield _ ih =>
      obtain ⟨name, v⟩ := field
      obtain ⟨_, d⟩ := other
      obtain ⟨rfl, hv⟩ := hfield
      exact ih (forall₂_showsField_insert h _ hv)

theorem shows_record_ofList {vs : Fields Value} {ds : Fields Datum}
    (h : List.Forall₂ w.ShowsField vs ds) :
    w.Shows (.record (Fields.ofList vs)) (.record (Fields.ofList ds)) :=
  shows_record.2 ⟨Fields.nodup_names_ofList vs, forall₂_showsField_insertAll .nil h⟩

end World

section

variable {access : ItemAccess EvalM} {shared : Shared} {once : Option Nat} {w : World}
  {v u : Value} {d e : Datum}

theorem computes_field (reads : access.ReadsLoaded) (hv : w.Shows v d) (name : String) :
    Computes shared once w (v.field access name) World.Shows (d.field name) :=
  .of_reads fun _ hw => Value.field_reads reads (hv.mono hw) name

theorem computes_order (op : ComparisonOp) (hv : w.Shows v d) (hu : w.Shows u e) :
    Computes shared once w
      (if v.isNull || u.isNull then pure .null
      else
        match Value.order v u with
        | .ok o => pure (.bool (op.holds o))
        | .error e => throwThe Error e)
      World.Shows
      (if d.isNull || e.isNull then .ok .null
      else (Datum.order d e).map fun o => .bool (op.holds o)) := by
  rw [hv.isNull_eq, hu.isNull_eq]
  split
  · exact .pure fun _ _ => rfl
  · have horder := World.order_agrees hv hu
    cases ho : Value.order v u with
    | ok o =>
        rw [ho] at horder
        cases ho' : Datum.order d e with
        | ok o' =>
            rw [ho'] at horder
            cases horder
            exact .pure fun _ _ => rfl
        | error kind => rw [ho'] at horder; exact horder.elim
    | error err =>
        rw [ho] at horder
        cases ho' : Datum.order d e with
        | ok o' => rw [ho'] at horder; exact horder.elim
        | error kind => rw [ho'] at horder; exact .raise horder

theorem computes_compare (reads : access.ReadsLoaded) (op : ComparisonOp) (hv : w.Shows v d)
    (hu : w.Shows u e) :
    Computes shared once w (Value.compare access op v u) World.Shows (Datum.compare op d e) := by
  have hequal (f : Bool → Bool) : Computes shared once w
      (do pure (.bool (f (← Value.equal access.equal v u)))) World.Shows
      (.ok (.bool (f (d.equal e)))) := by
    refine Computes.map_ok (f := fun b => Value.bool (f b)) (R := fun _ => Eq)
      (.of_run_eq (fun w' hw => Value.equal_reads reads (hv.mono hw) (hu.mono hw))
        fun _ _ => rfl) ?_
    rintro b w' hw rfl
    rfl
  cases op with
  | equal => exact hequal id
  | notEqual => exact hequal not
  | less => exact computes_order .less hv hu
  | lessOrEqual => exact computes_order .lessOrEqual hv hu
  | greater => exact computes_order .greater hv hu
  | greaterOrEqual => exact computes_order .greaterOrEqual hv hu

theorem computes_apply (op : ArithmeticOp) (hv : w.Shows v d) (hu : w.Shows u e) :
    Computes shared once w (do EvalM.lift (Value.apply (← EvalM.view) op v u)) World.Shows
      (Datum.apply op d e) :=
  .of_view fun view => .lift fun _ hw => World.apply_agrees view op (hv.mono hw) (hu.mono hw)

theorem computes_function (f : ScalarFunction) (hv : w.Shows v d) :
    Computes shared once w (EvalM.lift (f.apply v)) World.Shows (d.function f) :=
  .lift fun _ hw => World.function_agrees f (hv.mono hw)

theorem computes_predicate (hv : w.Shows v d) :
    Computes shared once w (do EvalM.lift (v.toPredicate (← EvalM.view))) (fun _ => Eq)
      d.predicate :=
  .of_view fun view => .lift fun _ hw => World.predicate_agrees view (hv.mono hw)

theorem computes_negated (op : NegationOp) (hv : w.Shows v d) :
    Computes shared once w (Expr.negated op v) World.Shows (d.negated op) := by
  cases op with
  | minus =>
      refine .lift fun w' hw => ?_
      rw [Datum.negated, ← (hv.mono hw).bare_eq]
      exact World.agrees_of_ofResult_eq (Value.negate_bare v)
        (fun _ h => Value.isSingle_of_negate h) w'
  | not =>
      rw [Datum.negated, ← hv.isNull_eq, ← hv.bare_eq]
      have hbool (hnull : v.isNull = false) : Expr.negated .not v =
          (do return .bool (!(← EvalM.lift (v.toBool (← EvalM.view))))) := by
        cases v <;> first | rfl | cases hnull
      cases hnull : v.isNull with
      | true =>
          cases v <;> first | exact .pure fun _ _ => rfl | cases hnull
      | false =>
          rw [hbool hnull]
          refine .of_view fun view => ?_
          have hlift : Computes shared once w (EvalM.lift (v.toBool view)) (fun _ => Eq)
              (Datum.ofResult (v.bare.toBool Datum.unseen)) := by
            refine .lift fun _ _ => ?_
            exact World.agrees_of_eq (Value.toBool_bare view v)
          refine hlift.map ?_
          rintro b _ w' hw rfl
          rfl

theorem computes_merge (reads : access.ReadsLoaded) (hv : w.Shows v d) (hu : w.Shows u e) :
    Computes shared once w (do
        let fields ← v.entries access
        let additions ← u.entries access
        return .record ((Fields.ofList fields).insertAll additions))
      World.Shows (Datum.merge d e) := by
  have hentries {v : Value} {d : Datum} (hv : w.Shows v d) : Computes shared none w
      (v.entries access) (fun w => List.Forall₂ w.ShowsField) d.entries :=
    .of_reads fun _ hw => Value.entries_reads reads (hv.mono hw)
  refine (hentries hv).bind (.second once) fun fields ds w' hw hfields => ?_
  refine Computes.bind (.second once) ((hentries hu).mono hw) fun additions es w'' hw' hadditions => ?_
  refine .pure fun w₃ hw'' => World.shows_record.2 ⟨?_, ?_⟩
  · exact Fields.nodup_names_insertAll (Fields.nodup_names_ofList fields) additions
  · refine World.forall₂_showsField_insertAll ?_ (World.forall₂_showsField_mono hadditions hw'')
    exact World.forall₂_showsField_insertAll .nil
      (World.forall₂_showsField_mono hfields (hw'.trans hw''))

end

end RecordAlgebra
