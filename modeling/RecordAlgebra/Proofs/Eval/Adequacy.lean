import RecordAlgebra.Proofs.Eval.Evaluable
import RecordAlgebra.Proofs.Eval.Operations

/-!
# Evaluation computes the meaning

Whatever is substituted, however often the input is read and whenever elements
are pulled: an expression evaluates to what it means. The induction is on the
expression. Parts that see the same bindings are evaluated at once, one after
the other; the others are evaluated in states that come later.
-/

namespace RecordAlgebra

section

variable {shared : Shared} {once first second : Option Nat} {w : World} {γ δ : Type}
  {S : World → γ → δ → Prop} {m : EvalM Output} {r : Except ErrorKind Result}

/-- A step that needs the value of an output. -/
theorem computes_withValue (hsplit : Split once first second)
    (h : Computes shared first w m (Gives shared) r) {f : Value → EvalM γ}
    {g : Datum → Except ErrorKind δ}
    (step : ∀ v d w', w.Extends w' → w'.Shows v d → Computes shared second w' (f v) S (g d)) :
    Computes shared once w (do f (← (← m).intoValue)) S (do g (← (← r).intoValue)) := by
  refine h.bind hsplit fun output result w' hw hgives => ?_
  refine (computes_intoValue hgives).bind (.second second) fun v d w'' hw' hv => ?_
  exact step v d w'' (hw.trans hw') hv

/-- A step that needs the elements of an output. -/
theorem computes_withSequence (hsplit : Split once first second)
    (h : Computes shared first w m (Gives shared) r) {f : Sequence → EvalM γ}
    {g : List Datum.Element → Except ErrorKind δ}
    (step : ∀ s xs w', w.Extends w' → Yields shared w' s xs →
      Computes shared second w' (f s) S (g xs)) :
    Computes shared once w (do f (← (← m).intoSequence)) S (do g (← (← r).intoSequence)) := by
  refine h.bind hsplit fun output result w' hw hgives => ?_
  refine (computes_intoSequence hgives).bind (.second second) fun s xs w'' hw' hs => ?_
  exact step s xs w'' (hw.trans hw') hs

theorem computes_value {n : EvalM Value} {t : Except ErrorKind Datum}
    (h : Computes shared once w n World.Shows t) :
    Computes shared once w (do return .value (← n)) (Gives shared) (do return .value (← t)) := by
  have hmap := h.map (f := Output.value) (g := Result.value) (S := Gives shared)
    fun v d w' _ hv => hv
  cases t with
  | ok d => exact hmap
  | error kind => exact hmap

theorem computes_sequence {s : Sequence} {xs : List Datum.Element} (hs : Yields shared w s xs) :
    Computes shared once w (pure (.sequence s)) (Gives shared) (.ok (.sequence xs)) :=
  .pure fun _ hw => hs.mono hw

theorem lookup_gives {scope : Scope} {meanings : List Meaning}
    (h : List.Forall₂ (BindingGives shared w) scope meanings) (depth : Nat) :
    (scope[depth]? = none ∧ meanings[depth]? = none) ∨
      ∃ binding meaning, scope[depth]? = some binding ∧ meanings[depth]? = some meaning ∧
        BindingGives shared w binding meaning := by
  induction h generalizing depth with
  | nil => exact .inl ⟨rfl, rfl⟩
  | cons hbinding _ ih =>
      cases depth with
      | zero => exact .inr ⟨_, _, rfl, rfl, hbinding⟩
      | succ depth => exact ih depth

end

namespace Expr

variable {access : ItemAccess EvalM} {lit : Value → Datum} {shared : Shared}

/-- Evaluation computes the meaning of the expression wherever it can rely on its
surroundings. -/
def Adequate (access : ItemAccess EvalM) (lit : Value → Datum) (shared : Shared) (e : Expr) :
    Prop :=
  ∀ once w substitution scope meanings,
    Evaluable lit shared once w substitution scope meanings e →
      Computes shared once w (eval access substitution scope e) (Gives shared)
        (denote lit meanings e)

section

variable {once : Option Nat} {w : World} {substitution : Substitution} {scope : Scope}
  {meanings : List Meaning}

theorem context_adequate (depth : Nat) (type : DataType)
    (h : Evaluable lit shared once w substitution scope meanings (.context depth type))
    (hnone : substitution [] = none) :
    Computes shared once w (eval access substitution scope (.context depth type)) (Gives shared)
      (denote lit meanings (.context depth type)) := by
  rw [eval, denote, hnone]
  simp only [Scope.lookup]
  rcases lookup_gives h.bound depth with ⟨hscope, hmeanings⟩ | ⟨binding, meaning, hscope, hmeanings, hgives⟩
  · rw [hscope, hmeanings]
    exact .raise rfl
  · rw [hscope, hmeanings]
    cases binding with
    | value v =>
        cases meaning with
        | value d => exact .pure fun _ hw => World.Shows.mono hgives hw
        | input data => exact hgives.elim
    | input input =>
        cases meaning with
        | value d => exact hgives.elim
        | input data =>
            obtain ⟨hopens, hshared⟩ := hgives
            have hread : Computes shared once w input.read
                (fun w s (_ : Unit) => Yields shared w s (Datum.Elements.ofData data)) (.ok ()) := by
              cases hkept : input.materialize with
              | true => exact (Input.computes_read_shared hopens hkept (hshared hkept)).weaken
              | false =>
                  obtain ⟨hnested, hdirect⟩ := h.reads depth input hscope hkept
                  unfold references at hnested hdirect
                  simp only [substituted, hnone] at hnested hdirect
                  cases depth with
                  | succ depth => simp at hnested
                  | zero =>
                      obtain rfl : once = some input.cell := by simpa using hdirect
                      exact Input.computes_read_once hopens hkept
            exact hread.map_ok fun s w' _ hs => hs

end

/-- The same for an expression that is evaluated from its parts. -/
def AdequateNode (access : ItemAccess EvalM) (lit : Value → Datum) (shared : Shared)
    (e : Expr) : Prop :=
  ∀ once w substitution scope meanings, substitution [] = none →
    EvaluableParts lit shared once w substitution scope meanings 0 e.children →
      Computes shared once w (eval access substitution scope e) (Gives shared)
        (denote lit meanings e)

section Values

variable (reads : access.ReadsLoaded) {part left right : Expr}

include reads

theorem field_adequate (hpart : Adequate access lit shared part) (name : String)
    (type : DataType) : AdequateNode access lit shared (.field part name type) := by
  intro once w substitution scope meanings hnone h
  obtain ⟨first, second, hsplit, h, -⟩ := h.same
  rw [eval, hnone, denote]
  refine computes_withValue hsplit (hpart _ _ _ _ _ h) fun v d w' _ hv => ?_
  exact computes_value (computes_field reads hv name)

omit reads in
theorem negation_adequate (hpart : Adequate access lit shared part) (op : NegationOp) :
    AdequateNode access lit shared (.negation op part) := by
  intro once w substitution scope meanings hnone h
  obtain ⟨first, second, hsplit, h, -⟩ := h.same
  rw [eval, hnone, denote]
  refine computes_withValue hsplit (hpart _ _ _ _ _ h) fun v d w' _ hv => ?_
  exact computes_value (computes_negated op hv)

omit reads in
theorem function_adequate (hpart : Adequate access lit shared part) (f : ScalarFunction) :
    AdequateNode access lit shared (.function f part) := by
  intro once w substitution scope meanings hnone h
  obtain ⟨first, second, hsplit, h, -⟩ := h.same
  rw [eval, hnone, denote]
  refine computes_withValue hsplit (hpart _ _ _ _ _ h) fun v d w' _ hv => ?_
  exact computes_value (computes_function f hv)

omit reads in
/-- Two parts are evaluated one after the other. -/
theorem computes_operands {γ δ : Type} {S : World → γ → δ → Prop} {once : Option Nat} {w : World}
    {substitution : Substitution} {scope : Scope} {meanings : List Meaning}
    (hleft : Adequate access lit shared left) (hright : Adequate access lit shared right)
    (h : EvaluableParts lit shared once w substitution scope meanings 0
      [(left, .same), (right, .same)])
    {f : Value → Value → EvalM γ} {g : Datum → Datum → Except ErrorKind δ}
    (step : ∀ v d u e w', w.Extends w' → w'.Shows v d → w'.Shows u e →
      Computes shared none w' (f v u) S (g d e)) :
    Computes shared once w
      (do
        let a ← (← eval access (inPart substitution 0) scope left).intoValue
        let b ← (← eval access (inPart substitution 1) scope right).intoValue
        f a b) S
      (do
        let a ← (← denote lit meanings left).intoValue
        let b ← (← denote lit meanings right).intoValue
        g a b) := by
  obtain ⟨first, second, hsplit, hfirst, h⟩ := h.same
  refine computes_withValue hsplit (hleft _ _ _ _ _ hfirst) fun v d w' hw hv => ?_
  obtain ⟨first', second', hsplit', hsecond, -⟩ := (h.mono hw).same
  refine computes_withValue hsplit' (hright _ _ _ _ _ hsecond) fun u e w'' hw' hu => ?_
  exact (step v d u e w'' (hw.trans hw') (hv.mono hw') hu).weaken

theorem comparison_adequate (hleft : Adequate access lit shared left)
    (hright : Adequate access lit shared right) (op : ComparisonOp) :
    AdequateNode access lit shared (.comparison op left right) := by
  intro once w substitution scope meanings hnone h
  rw [eval, hnone, denote]
  refine computes_operands hleft hright h fun v d u e w' _ hv hu => ?_
  exact computes_value (computes_compare reads op hv hu)

omit reads in
theorem arithmetic_adequate (hleft : Adequate access lit shared left)
    (hright : Adequate access lit shared right) (op : ArithmeticOp) (type : DataType) :
    AdequateNode access lit shared (.arithmetic op left right type) := by
  intro once w substitution scope meanings hnone h
  rw [eval, hnone, denote]
  refine computes_operands hleft hright h fun v d u e w' _ hv hu => ?_
  rw [← bind_assoc]
  exact computes_value (computes_apply op hv hu)

theorem merge_adequate (hleft : Adequate access lit shared left)
    (hright : Adequate access lit shared right) (type : DataType) :
    AdequateNode access lit shared (.merge left right type) := by
  intro once w substitution scope meanings hnone h
  rw [eval, hnone, denote]
  refine computes_operands hleft hright h fun v d u e w' _ hv hu => ?_
  have hmerge : Computes shared none w' _ (Gives shared) (do return .value (← Datum.merge d e)) :=
    computes_value (computes_merge reads hv hu)
  simp only [bind_assoc, pure_bind] at hmerge
  exact hmerge

end Values

section Lists

variable {once : Option Nat} {w : World} {substitution : Substitution} {scope : Scope}
  {meanings : List Meaning}

theorem computes_evalOperands (op : BooleanOp) (sawNull : Bool) {operands : List Expr}
    {position : Nat} (hoperands : ∀ e ∈ operands, Adequate access lit shared e)
    (h : EvaluableParts lit shared once w substitution scope meanings position
      (operands.map (·, .same))) :
    Computes shared once w (evalOperands access substitution scope op sawNull position operands)
      World.Shows (denoteOperands lit meanings op sawNull operands) := by
  induction operands generalizing once w sawNull position with
  | nil =>
      rw [evalOperands, denoteOperands]
      refine .pure fun w' _ => ?_
      cases sawNull <;> rfl
  | cons e rest ih =>
      obtain ⟨first, second, hsplit, hfirst, hrest⟩ := h.same
      rw [evalOperands, denoteOperands]
      refine computes_withValue hsplit (hoperands e (by simp) _ _ _ _ _ hfirst) ?_
      intro v d w' hw hv
      have hlater (sawNull : Bool) := ih sawNull (fun e he => hoperands e (by simp [he]))
        (hrest.mono hw)
      cases d with
      | bool b =>
          cases hv
          simp only
          split
          · exact .pure fun _ _ => rfl
          · exact hlater sawNull
      | null =>
          cases hv
          exact hlater true
      | list ds =>
          obtain ⟨vs, rfl, -⟩ := World.shows_list_iff.1 hv
          exact .raise rfl
      | record ds =>
          obtain ⟨vs, rfl, -⟩ := World.shows_record_iff.1 hv
          exact .raise rfl
      | item source ds =>
          obtain ⟨ref, vs, rfl, -⟩ := World.shows_item_iff.1 hv
          exact .raise rfl
      | _ =>
          cases hv
          exact .raise rfl

theorem computes_evalFields {fields : List (String × Expr)} {position : Nat}
    (hfields : ∀ field ∈ fields, Adequate access lit shared field.2)
    (h : EvaluableParts lit shared once w substitution scope meanings position
      (fields.map fun field => (field.2, .same))) :
    Computes shared once w (evalFields access substitution scope position fields)
      (fun w => List.Forall₂ w.ShowsField) (denoteFields lit meanings fields) := by
  induction fields generalizing once w position with
  | nil => exact .pure fun _ _ => .nil
  | cons field rest ih =>
      obtain ⟨name, e⟩ := field
      obtain ⟨first, second, hsplit, hfirst, hrest⟩ := h.same
      rw [evalFields, denoteFields]
      refine computes_withValue hsplit (hfields (name, e) (by simp) _ _ _ _ _ hfirst) ?_
      intro v d w' hw hv
      have hlater := ih (fun field hfield => hfields field (by simp [hfield])) (hrest.mono hw)
      refine hlater.bind (.first second) fun vs ds w'' hw' hvs => ?_
      exact .pure fun w₃ hw'' => .cons ⟨rfl, hv.mono (hw'.trans hw'')⟩
        (World.forall₂_showsField_mono hvs hw'')

theorem boolean_adequate {operands : List Expr}
    (hoperands : ∀ e ∈ operands, Adequate access lit shared e) (op : BooleanOp) :
    AdequateNode access lit shared (.boolean op operands) := by
  intro once w substitution scope meanings hnone h
  rw [eval, hnone, denote]
  exact computes_value (computes_evalOperands op false hoperands h)

theorem record_adequate {fields : List (String × Expr)}
    (hfields : ∀ field ∈ fields, Adequate access lit shared field.2) (type : DataType) :
    AdequateNode access lit shared (.record fields type) := by
  intro once w substitution scope meanings hnone h
  rw [eval, hnone, denote]
  refine (computes_evalFields hfields h).bind (.first once) fun vs ds w' _ hvs => ?_
  exact .pure fun w'' hw' =>
    World.shows_record_ofList (World.forall₂_showsField_mono hvs hw')

end Lists

section Sequences

variable {source predicate projection key total : Expr} {once : Option Nat} {w : World}
  {scope : Scope} {meanings : List Meaning}

/-- An expression for single elements computes a value for each. -/
theorem computes_nestedValue {e : Expr} (he : Adequate access lit shared e)
    (h : ∀ w' v d, w.Extends w' → w'.Shows v d →
      Evaluable lit shared none w' .empty (.value v :: scope) (.value d :: meanings) e)
    {w' : World} (hw : w.Extends w') {v : Value} {d : Datum} (hv : w'.Shows v d) :
    Computes shared none w' (do (← eval access .empty (.value v :: scope) e).intoValue)
      World.Shows (do (← denote lit (.value d :: meanings) e).intoValue) :=
  (he _ _ _ _ _ (h w' v d hw hv)).bind (.first none) fun _ _ _ _ hgives =>
    computes_intoValue hgives

theorem filter_adequate (hsource : Adequate access lit shared source)
    (hpredicate : Adequate access lit shared predicate) :
    AdequateNode access lit shared (.filter source predicate) := by
  intro once w substitution scope meanings hnone h
  obtain ⟨first, second, hsplit, hfirst, h⟩ := h.same
  obtain ⟨hnested, -⟩ := h.nested
  rw [eval, hnone, denote]
  refine computes_withSequence hsplit (hsource _ _ _ _ _ hfirst) fun s xs w' hw hs => ?_
  refine computes_sequence (yields_then Stage.isFilter_implements ⟨_, _, rfl, rfl, ?_⟩ hs)
  intro w'' v d hw' hv
  refine computes_withValue (.first none) (hpredicate _ _ _ _ _ (hnested w'' v d (hw.trans hw') hv)) ?_
  exact fun u e w₃ _ hu => computes_predicate hu

theorem map_adequate (hsource : Adequate access lit shared source)
    (hprojection : Adequate access lit shared projection) (type : DataType) :
    AdequateNode access lit shared (.map source projection type) := by
  intro once w substitution scope meanings hnone h
  obtain ⟨first, second, hsplit, hfirst, h⟩ := h.same
  obtain ⟨hnested, -⟩ := h.nested
  rw [eval, hnone, denote]
  refine computes_withSequence hsplit (hsource _ _ _ _ _ hfirst) fun s xs w' hw hs => ?_
  refine computes_sequence (yields_then Stage.isMap_implements ⟨_, _, rfl, rfl, ?_⟩ hs)
  exact fun w'' v d hw' hv => computes_nestedValue hprojection hnested (hw.trans hw') hv

theorem distinct_adequate (reads : access.ReadsLoaded)
    (hsource : Adequate access lit shared source) :
    AdequateNode access lit shared (.distinct source) := by
  intro once w substitution scope meanings hnone h
  obtain ⟨first, second, hsplit, hfirst, -⟩ := h.same
  rw [eval, hnone, denote]
  refine computes_withSequence hsplit (hsource _ _ _ _ _ hfirst) fun s xs w' _ hs => ?_
  exact computes_sequence
    (yields_then (Stage.isDistinct_implements reads) ⟨[], [], rfl, rfl, .nil⟩ hs)

theorem slice_adequate (hsource : Adequate access lit shared source) (start : Nat)
    (stop : Option Nat) : AdequateNode access lit shared (.slice source start stop) := by
  intro once w substitution scope meanings hnone h
  obtain ⟨first, second, hsplit, hfirst, -⟩ := h.same
  rw [eval, hnone, denote]
  refine computes_withSequence hsplit (hsource _ _ _ _ _ hfirst) fun s xs w' _ hs => ?_
  exact computes_sequence
    (yields_then Stage.isWindow_implements ⟨start, 0, stop.map (· - start), rfl, rfl⟩ hs)

theorem computes_evalKeys {keys : List (Expr × Direction)} {position : Nat}
    {substitution : Substitution} (hkeys : ∀ key ∈ keys, Adequate access lit shared key.1)
    (h : EvaluableParts lit shared once w substitution scope meanings position
      (keys.map fun key => (key.1, .nested)))
    {w' : World} (hw : w.Extends w') {v : Value} {d : Datum} (hv : w'.Shows v d) :
    Computes shared none w' (evalKeys access (.value v :: scope) keys)
      (fun w => List.Forall₂ w.Shows) (denoteKeys lit (.value d :: meanings) keys) := by
  induction keys generalizing w' position with
  | nil => exact .pure fun _ _ => .nil
  | cons key rest ih =>
      obtain ⟨e, direction⟩ := key
      obtain ⟨hnested, hrest⟩ := h.nested
      rw [evalKeys, denoteKeys]
      refine computes_withValue (.first none)
        (hkeys (e, direction) (by simp) _ _ _ _ _ (hnested w' v d hw hv)) ?_
      intro u x w'' hw' hu
      have hlater := ih (fun key hkey => hkeys key (by simp [hkey])) hrest (hw.trans hw')
        (hv.mono hw')
      refine hlater.bind (.first none) fun us xs w₃ hw'' hus => ?_
      exact .pure fun w₄ hw₄ => .cons (hu.mono (hw''.trans hw₄))
        (World.forall₂_shows_mono hus hw₄)

theorem sort_adequate {keys : List (Expr × Direction)}
    (hsource : Adequate access lit shared source)
    (hkeys : ∀ key ∈ keys, Adequate access lit shared key.1) :
    AdequateNode access lit shared (.sort source keys) := by
  intro once w substitution scope meanings hnone h
  obtain ⟨first, second, hsplit, hfirst, h⟩ := h.same
  rw [eval, hnone, denote]
  refine computes_withSequence hsplit (hsource _ _ _ _ _ hfirst) fun s xs w' hw hs => ?_
  refine computes_sequence (yields_ofDeferred ?_)
  simp only [Sequence.keyed, bind_assoc, pure_bind]
  refine Computes.bind (.first none) (computes_fold
    (R := fun w => List.Forall₂ w.ShowsKeyed)
    (fun _ _ _ _ hw h => h.imp fun _ _ hrow => hrow.mono hw) ?_ hs .nil) ?_
  · intro w'' rows data v d hw' hrows hv
    refine (computes_evalKeys hkeys h (hw.trans hw') hv).bind (.first none) ?_
    intro found ds w₃ hw'' hfound
    refine .pure fun w₄ hw₄ => .cons ⟨World.forall₂_shows_mono hfound hw₄,
      hv.mono (hw''.trans hw₄)⟩ ?_
    exact hrows.imp fun _ _ hrow => hrow.mono (hw''.trans hw₄)
  · intro rows data w'' _ hrows
    exact .lift fun w₃ hw₃ => World.sort_agrees (keys.map Prod.snd)
      (List.rel_reverse (hrows.imp fun _ _ hrow => hrow.mono hw₃))

theorem groupBy_adequate (reads : access.ReadsLoaded)
    (hsource : Adequate access lit shared source) (hkey : Adequate access lit shared key)
    (htotal : Adequate access lit shared total) (type : DataType) :
    AdequateNode access lit shared (.groupBy source key total type) := by
  intro once w substitution scope meanings hnone h
  obtain ⟨first, second, hsplit, hfirst, h⟩ := h.same
  obtain ⟨hnestedKey, h⟩ := h.nested
  obtain ⟨hnestedTotal, -⟩ := h.nested
  rw [eval, hnone, denote]
  refine computes_withSequence hsplit (hsource _ _ _ _ _ hfirst) fun s xs w' hw hs => ?_
  refine computes_sequence (yields_ofDeferred ?_)
  refine Computes.bind (.first none) (computes_fold
    (R := fun w => List.Forall₂ w.ShowsGroup)
    (fun _ _ _ _ hw h => h.imp fun _ _ hgroup => hgroup.mono hw) ?_ hs .nil) ?_
  · intro w'' groups data v d hw' hgroups hv
    refine computes_withValue (.first none)
      (hkey _ _ _ _ _ (hnestedKey w'' v d (hw.trans hw') hv)) ?_
    intro u e w₃ hw'' hu
    refine (World.computes_toKey reads hu).bind_ok (.first none) ?_
    intro found w₄ hw₄ hfound
    have hw₅ := hw''.trans hw₄
    exact computes_addToGroups reads hfound (hv.mono hw₅)
      (hgroups.imp fun _ _ hgroup => hgroup.mono hw₅)
  · intro groups data w'' hw' hgroups
    refine computes_mapM (fun _ _ _ _ hw hgroup => hgroup.mono hw)
      (fun _ _ _ _ hw hv => hv.mono hw) ?_ hgroups
    rintro w₃ ⟨found, members⟩ ⟨d, ds⟩ hw'' ⟨⟨hfound, -⟩, hmembers⟩
    refine computes_withValue (.first none) (htotal _ _ _ _ _
      (hnestedTotal w₃ _ _ ((hw.trans hw').trans hw'')
        (World.shows_list.2 (List.rel_reverse hmembers)))) ?_
    intro u e w₄ hw₄ hu
    refine .pure fun w₅ hw₅ => World.shows_record.2
      ⟨by simp [Fields.names, groupKeyField, groupValueField], ?_⟩
    exact .cons ⟨rfl, hfound.mono (hw₄.trans hw₅)⟩ (.cons ⟨rfl, hu.mono hw₅⟩ .nil)

theorem aggregate_adequate (hsource : Adequate access lit shared source)
    {projection : Option Expr} (hprojection : ∀ e ∈ projection, Adequate access lit shared e)
    (op : AggregateOp) (type : DataType) :
    AdequateNode access lit shared (.aggregate op source projection type) := by
  intro once w substitution scope meanings hnone h
  obtain ⟨first, second, hsplit, hfirst, h⟩ := h.same
  cases projection with
  | none =>
      rw [eval, hnone, denote]
      refine computes_withSequence hsplit (hsource _ _ _ _ _ hfirst) fun s xs w' _ hs => ?_
      exact (computes_value (computes_aggregate op false hs)).weaken
  | some projection =>
      obtain ⟨hnested, -⟩ := h.nested
      rw [eval, hnone, denote]
      refine computes_withSequence hsplit (hsource _ _ _ _ _ hfirst) fun s xs w' hw hs => ?_
      refine (computes_value (computes_aggregate op true ?_)).weaken
      refine yields_then Stage.isMap_implements ⟨_, _, rfl, rfl, ?_⟩ hs
      exact fun w'' v d hw' hv =>
        computes_nestedValue (hprojection projection rfl) hnested (hw.trans hw') hv

theorem one_adequate (hsource : Adequate access lit shared source) {default : Option Expr}
    (hdefault : ∀ e ∈ default, Adequate access lit shared e) (type : DataType) :
    AdequateNode access lit shared (.one source default type) := by
  intro once w substitution scope meanings hnone h
  obtain ⟨first, second, hsplit, hfirst, h⟩ := h.same
  cases default with
  | none =>
      rw [eval, hnone, denote]
      refine computes_withSequence hsplit (hsource _ _ _ _ _ hfirst) fun s xs w' _ hs => ?_
      refine (computes_onlyElement hs).bind (.second second) fun found found' w'' _ hfound => ?_
      cases found with
      | none =>
          cases found' with
          | none => exact .raise rfl
          | some d => exact hfound.elim
      | some v =>
          cases found' with
          | none => exact hfound.elim
          | some d => exact .pure fun _ hw => World.Shows.mono hfound hw
  | some default =>
      rw [eval, hnone, denote]
      refine computes_withSequence hsplit (hsource _ _ _ _ _ hfirst) fun s xs w' hw hs => ?_
      refine (computes_onlyElement hs).bind (.second second) fun found found' w'' hw' hfound => ?_
      cases found with
      | none =>
          cases found' with
          | none =>
              obtain ⟨first', second', hsplit', hsecond, -⟩ := (h.mono (hw.trans hw')).same
              refine computes_withValue hsplit' (hdefault default rfl _ _ _ _ _ hsecond) ?_
              exact fun v d w₃ _ hv => .pure fun _ hw => hv.mono hw
          | some d => exact hfound.elim
      | some v =>
          cases found' with
          | none => exact hfound.elim
          | some d => exact .pure fun _ hw => World.Shows.mono hfound hw

end Sequences

/-- A node for which there is an output gives what the output stands for. -/
theorem adequate_of_unsubstituted {e : Expr}
    (h : ∀ once w substitution scope meanings, substitution [] = none →
      Evaluable lit shared once w substitution scope meanings e →
        Computes shared once w (eval access substitution scope e) (Gives shared)
          (denote lit meanings e)) : Adequate access lit shared e := by
  intro once w substitution scope meanings hevaluable
  cases houtput : substitution [] with
  | none => exact h once w substitution scope meanings houtput hevaluable
  | some output =>
      obtain ⟨node, r, hnode, hr, hgives⟩ := hevaluable.outputs [] output houtput
      cases hnode
      rw [eval_output access houtput, hr]
      exact .pure fun _ hw => hgives.mono hw

theorem AdequateNode.adequate {e : Expr} (h : AdequateNode access lit shared e)
    (he : e.isContext = false) : Adequate access lit shared e :=
  adequate_of_unsubstituted fun once w substitution scope meanings hnone hevaluable =>
    h once w substitution scope meanings hnone (hevaluable.parts hnone he)

theorem literal_adequate (v : Value) : Adequate access lit shared (.literal v) := by
  refine adequate_of_unsubstituted fun once w substitution scope meanings hnone h => ?_
  rw [eval_literal access hnone, denote_literal]
  exact .pure fun _ hw => (h.literals v (hasLiteral_self v)).mono hw

theorem adequate_of_parts (reads : access.ReadsLoaded) {e : Expr}
    (hparts : ∀ part ∈ e.children, Adequate access lit shared part.1) :
    Adequate access lit shared e := by
  have part {child : Expr} (scope : ChildScope) (h : (child, scope) ∈ e.children) :
      Adequate access lit shared child := hparts (child, scope) h
  cases e with
  | context depth type =>
      exact adequate_of_unsubstituted fun _ _ _ _ _ hnone h => context_adequate depth type h hnone
  | literal v => exact literal_adequate v
  | field base name type =>
      exact (field_adequate reads (part .same (by simp [children])) name type).adequate rfl
  | comparison op left right =>
      exact (comparison_adequate reads (part .same (by simp [children]))
        (part .same (by simp [children])) op).adequate rfl
  | boolean op operands =>
      exact (boolean_adequate (fun e he => part .same (by simpa [children] using he)) op).adequate
        rfl
  | negation op operand =>
      exact (negation_adequate (part .same (by simp [children])) op).adequate rfl
  | arithmetic op left right type =>
      exact (arithmetic_adequate (part .same (by simp [children]))
        (part .same (by simp [children])) op type).adequate rfl
  | merge left right type =>
      exact (merge_adequate reads (part .same (by simp [children]))
        (part .same (by simp [children])) type).adequate rfl
  | record fields type =>
      exact (record_adequate (fun field hfield => part .same
        (List.mem_map.2 ⟨field, hfield, rfl⟩)) type).adequate rfl
  | function f input =>
      exact (function_adequate (part .same (by simp [children])) f).adequate rfl
  | filter source predicate =>
      exact (filter_adequate (part .same (by simp [children]))
        (part .nested (by simp [children]))).adequate rfl
  | map source projection type =>
      exact (map_adequate (part .same (by simp [children]))
        (part .nested (by simp [children])) type).adequate rfl
  | sort source keys =>
      refine (sort_adequate (part .same (by simp [children])) fun key hkey => ?_).adequate rfl
      exact part .nested (List.mem_cons_of_mem _ (List.mem_map.2 ⟨key, hkey, rfl⟩))
  | groupBy source key total type =>
      exact (groupBy_adequate reads (part .same (by simp [children]))
        (part .nested (by simp [children])) (part .nested (by simp [children])) type).adequate rfl
  | aggregate op source projection type =>
      refine (aggregate_adequate (part .same (by simp [children])) ?_ op type).adequate rfl
      rintro e rfl
      exact part .nested (by simp [children])
  | distinct source =>
      exact (distinct_adequate reads (part .same (by simp [children]))).adequate rfl
  | slice source start stop =>
      exact (slice_adequate (part .same (by simp [children])) start stop).adequate rfl
  | one source default type =>
      refine (one_adequate (part .same (by simp [children])) ?_ type).adequate rfl
      rintro e rfl
      exact part .same (by simp [children])

/-- Evaluation computes what the expression means. -/
theorem eval_computes (reads : access.ReadsLoaded) (e : Expr) : Adequate access lit shared e := by
  induction e using childInduction with
  | step e ih => exact adequate_of_parts reads ih

end Expr

end RecordAlgebra
