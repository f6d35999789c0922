import RecordAlgebra.Expr.Build
import RecordAlgebra.Proofs.Source.Negotiation

/-!
# Executing expressions over faithful sources

Whatever a faithful source executes by itself, an execution ends as plain evaluation does,
with one exception that is the same for every configuration: a remainder that fails while
it is still negotiated.
-/

namespace RecordAlgebra

/-- How an action ends in a state, as far as data tell. -/
def EndsIn (w : World) (m : EvalM Value) (r : Except ErrorKind Datum) : Prop :=
  EndsAs (m.run w).2.Shows (m.run w).1 r

theorem Settles.endsIn {shared : Shared} {w : World} {m : EvalM Value}
    {r : Except ErrorKind Datum} (h : Settles shared w m (fun _ => World.Shows) r) :
    EndsIn w m r := by
  obtain ⟨_, _, _, _, hends⟩ := h
  exact hends

namespace Negotiation

variable {source : Source} {lit : Value → Datum} {w : World} {data : List Datum}

/-- What an expression means over the data of a source. -/
def meaning (lit : Value → Datum) (data : List Datum) (e : Expr) : Except ErrorKind Datum := do
  (← e.denote lit [.input data]).intoValue

/-- The expression is negotiated, and a remainder fails with an error of this kind. -/
def Interrupted (source : Source) (config : ExecutionConfig) (e : Expr) (w : World)
    (kind : ErrorKind) : Prop :=
  config.enableOptimizer = true ∧ ∃ error w',
    (negotiate .live source config.maxNegotiationDepth 0 e).run w =
      (.error (.raised error), w') ∧ error.kind = kind

theorem execute_plain {config : ExecutionConfig} (h : config.enableOptimizer = false) (e : Expr) :
    execute .live source config e = source.evaluate .live e := by
  rw [execute, h]
  rfl

theorem execute_unverified {config : ExecutionConfig} (h : config.enableOptimizer = true)
    (hverify : config.verifyOptimized = false) (e : Expr) :
    execute .live source config e = runNegotiated .live source config e := by
  rw [execute, h, hverify]
  rfl

theorem execute_verified {config : ExecutionConfig} (h : config.enableOptimizer = true)
    (hverify : config.verifyOptimized = true) (e : Expr) :
    execute .live source config e =
      ((do (← runNegotiated .live source config e).intoValue) >>= fun negotiated =>
        (do (← source.evaluate .live e).intoValue) >>= fun plain => do
          if ← Value.equal ItemAccess.live.equal negotiated plain then pure (.value negotiated)
          else EvalM.raise (difference source (← EvalM.view) e negotiated plain)) := by
  rw [execute, h, hverify]
  simp only [bind_assoc]
  rfl

/-- Verification passes, because what is shown equals itself. -/
theorem execute_verified_settles (faithful : source.Faithful lit w data)
    {config : ExecutionConfig} (h : config.enableOptimizer = true)
    (hverify : config.verifyOptimized = true) {e : Expr}
    (literals : ∀ v, e.HasLiteral v → w.Shows v (lit v)) {shared : Shared}
    (hnegotiated : Settles shared w (runNegotiated .live source config e) Gives
      (e.denote lit [.input data])) :
    Settles shared w (do (← execute .live source config e).intoValue) (fun _ => World.Shows)
      (meaning lit data e) := by
  have hvalue : Settles shared w (do (← runNegotiated .live source config e).intoValue)
      (fun _ => World.Shows) (meaning lit data e) := hnegotiated.intoValue
  rw [execute_verified h hverify, bind_assoc]
  cases hmeaning : meaning lit data e with
  | error kind =>
      rw [hmeaning] at hvalue
      exact hvalue.bind_error _ _
  | ok d =>
      rw [hmeaning] at hvalue
      refine hvalue.bind_ok fun negotiated others w' _ hw hholds hshown => ?_
      have hplain : Settles others w' (do (← source.evaluate .live e).intoValue)
          (fun _ => World.Shows) (meaning lit data e) :=
        (evaluate_settles faithful literals hw hholds).intoValue
      rw [hmeaning] at hplain
      rw [bind_assoc]
      refine hplain.bind_ok fun plain more w'' _ hw' hholds' hshown' => ?_
      have hshown'' := hshown.mono hw'
      have hequal := Value.equal_reads ItemAccess.live_readsLoaded hshown'' hshown'
      rw [hshown''.equal_self] at hequal
      rw [Settles, bind_assoc, EvalM.run_bind_ok hequal]
      exact ⟨more, fun _ _ h => h, .refl w'', hholds', hshown''⟩

theorem hasLiteral_of_sameNode? {e node : Expr} {path : Path} (h : e.sameNode? path = some node)
    {v : Value} (hv : node.HasLiteral v) : e.HasLiteral v := by
  induction path generalizing e with
  | nil =>
      cases h
      exact hv
  | cons position path ih =>
      rw [Expr.sameNode?] at h
      split at h
      · next child hchild => exact (ih h).part (List.mem_of_getElem? hchild)
      · cases h

theorem holds_empty (w : World) : w.Holds .empty := fun _ _ h => by cases h

theorem execute_settles (faithful : source.Faithful lit w data) {config : ExecutionConfig}
    {e : Expr} (literals : ∀ v, e.HasLiteral v → w.Shows v (lit v))
    (smooth : ∀ kind, ¬Interrupted source config e w kind) :
    EndsIn w (do (← execute .live source config e).intoValue) (meaning lit data e) := by
  have hholds := holds_empty w
  cases hoptimizer : config.enableOptimizer with
  | false =>
      rw [execute_plain hoptimizer]
      exact (evaluate_settles faithful literals (.refl w) hholds).intoValue.endsIn
  | true =>
      rcases hrun : (negotiate .live source config.maxNegotiationDepth 0 e).run w
        with ⟨(error | _) | outputs, w'⟩
      · exact (smooth error.kind ⟨hoptimizer, error, w', hrun, rfl⟩).elim
      · obtain ⟨_, _, _, _, hends⟩ :=
          negotiate_concludes faithful config.maxNegotiationDepth 0 literals (.refl w) hholds
        rw [hrun] at hends
        exact hends.elim
      · have hsettles := runNegotiated_settles faithful config literals (.refl w) hholds hrun
        cases hverify : config.verifyOptimized with
        | false =>
            rw [execute_unverified hoptimizer hverify]
            exact hsettles.intoValue.endsIn
        | true =>
            exact (execute_verified_settles faithful hoptimizer hverify literals hsettles).endsIn

theorem execute_interrupted {config : ExecutionConfig} {e : Expr} {kind : ErrorKind}
    (h : Interrupted source config e w kind) :
    EndsIn w (do (← execute .live source config e).intoValue) (.error kind) := by
  obtain ⟨hoptimizer, error, w', hrun, hkind⟩ := h
  have hnegotiated : (runNegotiated .live source config e).run w = (.error (.raised error), w') := by
    rw [runNegotiated, EvalM.run_bind_error hrun]
  have hexecute : (execute .live source config e).run w = (.error (.raised error), w') := by
    cases hverify : config.verifyOptimized with
    | false => rw [execute_unverified hoptimizer hverify, hnegotiated]
    | true =>
        rw [execute_verified hoptimizer hverify, bind_assoc, EvalM.run_bind_error hnegotiated]
  rw [EndsIn, EvalM.run_bind_error hexecute]
  exact hkind

/-- Executing an expression over a faithful source and evaluating it plainly both end with
what the expression means, unless a remainder fails while it is negotiated. Then execution
ends with the error of the remainder, which is also how the plain evaluation of the node
ends that the source had left in part. -/
theorem execute_ends_as_evaluate (faithful : source.Faithful lit w data)
    (config : ExecutionConfig) {e : Expr} (literals : ∀ v, e.HasLiteral v → w.Shows v (lit v)) :
    EndsIn w (do (← source.evaluate .live e).intoValue) (meaning lit data e) ∧
      ((∀ kind, ¬Interrupted source config e w kind) →
        EndsIn w (do (← execute .live source config e).intoValue) (meaning lit data e)) ∧
      ∀ kind, Interrupted source config e w kind →
        EndsIn w (do (← execute .live source config e).intoValue) (.error kind) ∧
          ∃ path node, e.sameNode? path = some node ∧
            node.inputReferences.isSingleDirect = true ∧ MayLeave source w node ∧
            EndsIn w (do (← source.evaluate .live node).intoValue) (.error kind) := by
  have hholds := holds_empty w
  refine ⟨(evaluate_settles faithful literals (.refl w) hholds).intoValue.endsIn,
    execute_settles faithful literals, fun kind h => ⟨execute_interrupted h, ?_⟩⟩
  obtain ⟨-, error, w', hrun, rfl⟩ := h
  obtain ⟨_, _, _, _, hends⟩ :=
    negotiate_concludes faithful config.maxNegotiationDepth 0 literals (.refl w) hholds
  rw [hrun] at hends
  obtain ⟨path, node, hnode, hsingle, hleaves, hfails⟩ := hends
  refine ⟨path, node, hnode, hsingle, hleaves, ?_⟩
  have hevaluate := (evaluate_settles faithful
    (fun v hv => literals v (hasLiteral_of_sameNode? hnode hv)) (.refl w) hholds).intoValue
  rw [hfails] at hevaluate
  exact hevaluate.endsIn

section Sample

def sampleRef : SourceRef where
  id := 0
  name := "people"
  schema :=
    { name := "people", properties := [{ name := "id", type := .int, identity := true }],
      distinct := by decide }

def sampleRows : List Row := [[("id", .int 1)], [("id", .int 2)]]

def sampleAnswer : Expr → Execution
  | .aggregate .len (.context 0 _) none _ => .accepted (.scalar (.int 2))
  | .one (.context 0 source) none type =>
      .partly (.rows sampleRows) (.one (.context 0 source) none type)
  | _ => .declined

/-- A source of two records, which counts all elements by itself and leaves it to others to
find out whether there is only one. -/
def sample : Source where
  ref := sampleRef
  deferred := []
  scan := pure sampleRows
  offer e := pure (sampleAnswer e)
  save _ := pure ()
  delete _ := pure ()

def sampleData : List Datum :=
  [.item sampleRef [("id", .int 1)], .item sampleRef [("id", .int 2)]]

theorem sampleRows_show (w : World) :
    List.Forall₂ (sample.ShowsRow w) sampleRows sampleData := by
  have row (n : Int64) : sample.ShowsRow w [("id", .int n)] (.item sampleRef [("id", .int n)]) :=
    ⟨rfl, by simp [Fields.names]; rfl, _, rfl, .cons ⟨rfl, rfl⟩ .nil⟩
  exact .cons (row 1) (.cons (row 2) .nil)

theorem sample_answers {e : Expr} {w : World}
    (literals : ∀ v, e.HasLiteral v → w.Shows v (Datum.ofValue v)) :
    sample.Answers Datum.ofValue sampleData e w (sampleAnswer e) := by
  unfold sampleAnswer
  split
  · exact ⟨.value (.int 2), rfl, rfl⟩
  · have binds : Source.BindsAs w (sample.output (.rows sampleRows)) (.input sampleData) :=
      Source.yields_itemsOf (sampleRows_show w)
    exact Source.answers_partly binds literals rfl
  · trivial

theorem sample_faithful : sample.Faithful Datum.ofValue {} sampleData where
  scan := ⟨sampleRows, sampleRows_show {}, fun w _ => ⟨_, w, rfl, .refl w, rfl, rfl⟩⟩
  offer _ _ _ literals w hw :=
    ⟨_, w, rfl, .refl w, rfl, sample_answers fun v hv => (literals v hv).mono hw⟩

/-- Whether there are two records. -/
def two : Expr := .comparison .equal (.aggregate .len (.input .any) none .int) (.literal (.int 2))

theorem literal_of_two {v : Value} (h : two.HasLiteral v) : v = .int 2 := by
  rcases h.part_or_self with h | ⟨part, hpart, h⟩
  · cases h
  · simp only [two, Expr.children, List.mem_cons, List.not_mem_nil, or_false] at hpart
    rcases hpart with rfl | rfl
    · rcases h.part_or_self with h | ⟨part, hpart, h⟩
      · cases h
      · simp only [Expr.children, Option.toList_none, List.map_nil, List.mem_cons,
          List.not_mem_nil, or_false] at hpart
        subst hpart
        rcases h.part_or_self with h | ⟨part, hpart, -⟩
        · cases h
        · simp [Expr.input, Expr.children] at hpart
    · rcases h.part_or_self with h | ⟨part, hpart, -⟩
      · cases h
        rfl
      · simp [Expr.children] at hpart

theorem negotiate_two :
    (negotiate .live sample 64 0 two).run {} = (.ok [([0], .value (.int 2))], {}) := by
  have hoffered : (offered? .live sample two).run {} = (.ok none, {}) := rfl
  rw [negotiate_eq, if_neg (by decide), if_pos (by decide), EvalM.run_bind_ok hoffered]
  simp only [two, Expr.children, negotiateParts, negotiate_eq]
  rfl

/-- Counting is executed by the source, with the result of counting what is scanned. -/
theorem execute_two :
    EndsIn {} (do (← execute .live sample {} two).intoValue) (.ok (.bool true)) := by
  have literals (v : Value) (hv : two.HasLiteral v) : World.Shows {} v (Datum.ofValue v) := by
    rw [literal_of_two hv]
    rfl
  refine (execute_ends_as_evaluate sample_faithful {} literals).2.1 ?_
  rintro kind ⟨-, error, w, hrun, -⟩
  rw [negotiate_two] at hrun
  cases hrun

/-- A comparison that plain evaluation never comes to. -/
def lazily : Expr :=
  .boolean .or [.literal (.bool true),
    .comparison .equal (.one (.outer 0) none .any) (.literal (.int 1))]

theorem built_lazily (view : ItemRef → String) : lazily.Built view := by
  have hone : Expr.mkOne view (.outer 0) none = .ok (.one (.outer 0) none .any) := rfl
  have hcomparison : Expr.mkComparison view .equal (.one (.outer 0) none .any) (.literal (.int 1)) =
    .ok (.comparison .equal (.one (.outer 0) none .any) (.literal (.int 1))) := rfl
  have hboolean : Expr.mkBoolean view .or [.literal (.bool true),
    .comparison .equal (.one (.outer 0) none .any) (.literal (.int 1))] = .ok lazily := rfl
  refine .boolean (fun operand hoperand => ?_) hboolean
  simp only [List.mem_cons, List.not_mem_nil, or_false] at hoperand
  rcases hoperand with rfl | rfl
  · exact .literal _
  · exact .comparison (.one (.outer 0) (by simp) hone) (.literal _) hcomparison

theorem negotiate_lazily :
    ((negotiate .live sample 64 0 lazily).run {}).1 =
      .error (.raised (.ofCause .moreThanOne)) := by
  have hoffered : (offered? .live sample lazily).run {} = (.ok none, {}) := rfl
  rw [negotiate_eq, if_neg (by decide), if_pos (by decide), EvalM.run_bind_ok hoffered]
  simp only [lazily, Expr.children, List.map_cons, List.map_nil, negotiateParts, negotiate_eq]
  rfl

/-- What the source leaves over is evaluated even where the rest does not need it. -/
theorem execute_lazily_differs :
    sample.Faithful Datum.ofValue {} sampleData ∧ lazily.Built Datum.unseen ∧
      EndsIn {} (do (← sample.evaluate .live lazily).intoValue) (.ok (.bool true)) ∧
      EndsIn {} (do (← execute .live sample {} lazily).intoValue) (.error .cardinality) := by
  have interrupted : Interrupted sample {} lazily {} .cardinality :=
    ⟨rfl, _, _, Prod.ext negotiate_lazily rfl, rfl⟩
  exact ⟨sample_faithful, built_lazily _, Eq.refl (Value.bool true),
    execute_interrupted interrupted⟩

end Sample

end Negotiation

end RecordAlgebra
