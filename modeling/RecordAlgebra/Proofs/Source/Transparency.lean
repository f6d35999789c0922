import RecordAlgebra.Proofs.Source.Execution
import RecordAlgebra.Proofs.Source.Stocked

/-!
# Document stores are transparent

A document store is faithful for expressions that were built and count alike. No remainder of
it fails, so whatever it executes by itself, an execution ends as plain evaluation does: with a
value that shows the same datum, or with an error of the same kind. Counting is what has to be
alike: over groups of single values, documents do not count nulls, and elements do.
-/

namespace RecordAlgebra

namespace Source

section Only

/-- The source, which declines expressions without a property. -/
def only (source : Source) (p : Expr → Prop) [DecidablePred p] : Source :=
  { source with offer := fun e => if p e then source.offer e else pure .declined }

variable {source : Source} {p : Expr → Prop} [DecidablePred p] {e : Expr}

theorem offer_only (h : p e) : (source.only p).offer e = source.offer e := if_pos h

theorem offer_only_of_not (h : ¬p e) : (source.only p).offer e = pure .declined := if_neg h

open Negotiation (negotiate negotiateParts offered? runNegotiated execute)

theorem ShowsRow.only {w : World} {row : Row} {d : Datum} (h : source.ShowsRow w row d) :
    (source.only p).ShowsRow w row d :=
  ⟨h.loaded, h.listed, h.fields⟩

theorem offered?_only (h : p e) : offered? .live (source.only p) e = offered? .live source e := by
  rw [offered?, offer_only h]
  rfl

theorem negotiateParts_only {limit depth : Nat} {parts : List (Expr × ChildScope)}
    (h : ∀ part ∈ parts, part.2 = .same → negotiate .live (source.only p) limit depth part.1 =
      negotiate .live source limit depth part.1) (position : Nat) :
    negotiateParts .live (source.only p) limit depth position parts =
      negotiateParts .live source limit depth position parts := by
  induction parts generalizing position with
  | nil => rfl
  | cons part rest ih =>
      obtain ⟨hfirst, hrest⟩ := List.forall_mem_cons.1 h
      obtain ⟨e, scope⟩ := part
      cases scope with
      | same => rw [negotiateParts, negotiateParts, hfirst rfl, ih hrest]
      | nested => rw [negotiateParts, negotiateParts, ih hrest]

variable (hparts : ∀ e part, p e → (part, .same) ∈ e.children → p part)

include hparts

/-- A property that parts have as well does not matter to the negotiation. -/
theorem negotiate_only {limit depth : Nat} (h : p e) :
    negotiate .live (source.only p) limit depth e = negotiate .live source limit depth e := by
  induction e using Expr.childInduction generalizing depth with
  | step e ih =>
      rw [Negotiation.negotiate_eq, Negotiation.negotiate_eq, offered?_only h,
        negotiateParts_only fun part hpart hsame =>
          ih part hpart (hparts e part.1 h (hsame ▸ hpart))]

theorem execute_only (config : ExecutionConfig) (h : p e) :
    execute .live (source.only p) config e = execute .live source config e := by
  have hnegotiated : runNegotiated .live (source.only p) config e =
      runNegotiated .live source config e := by
    rw [runNegotiated, negotiate_only hparts h]
    rfl
  rw [execute, execute, hnegotiated]
  rfl

end Only

namespace Documents

open Negotiation (execute)

variable {ref : SourceRef} {w w' : World} {lit : Value → Datum} {data : List Datum} {e : Expr}
  {view : ItemRef → String}

/-- Expressions that a store and plain evaluation take for the same. -/
structure Clear (schema : Schema) (view : ItemRef → String) (lit : Value → Datum) (w : World)
    (e : Expr) : Prop where
  built : e.Built view
  lengths : e.ProjectsNoLength
  counts : e.CountsAlike schema
  literals : ∀ v, e.HasLiteral v → w.Shows v (lit v)

theorem Clear.part {schema : Schema} {part : Expr} (h : Clear schema view lit w e)
    (hpart : (part, .same) ∈ e.children) : Clear schema view lit w part :=
  ⟨h.built.part _ hpart, h.lengths.part hpart, h.counts.part hpart,
    fun v hv => h.literals v (hv.part hpart)⟩

section Faithful

variable [DecidablePred (Clear ref.schema view lit w)]
  (hstock : Stock ref ((contents ref w).map Prod.snd) data)

include hstock

theorem faithful_only :
    ((create .live ref true).only (Clear ref.schema view lit w)).Faithful lit w data where
  scan := by
    obtain ⟨rows, hrows, hscan⟩ := scan_succeeds hstock
    exact ⟨rows, hrows.imp fun _ _ hrow => hrow.only, hscan⟩
  offer e _ _ _ w' hw := by
    by_cases h : Clear ref.schema view lit w e
    · rw [offer_only h]
      exact offer_succeeds h.built h.lengths h.counts h.literals hstock hw
    · rw [offer_only_of_not h]
      exact ⟨.declined, w', rfl, .refl w', rfl, trivial⟩

/-- No remainder fails while it is negotiated. -/
theorem not_interrupted {config : ExecutionConfig} (h : Clear ref.schema view lit w e)
    (kind : ErrorKind) : ¬Negotiation.Interrupted
      ((create .live ref true).only (Clear ref.schema view lit w)) config e w kind := by
  rintro ⟨-, error, w', hrun, rfl⟩
  have hfaithful :
      ((create .live ref true).only (Clear ref.schema view lit w)).Faithful lit w data :=
    faithful_only hstock
  obtain ⟨_, _, _, _, hends⟩ := Negotiation.negotiate_concludes hfaithful
    config.maxNegotiationDepth 0 h.literals (.refl w) (Negotiation.holds_empty w)
  rw [hrun] at hends
  obtain ⟨path, node, hnode, -, ⟨w₁, output, remainder, w₂, hw₁, hoffer⟩, hfails⟩ := hends
  by_cases hclear : Clear ref.schema view lit w node
  · rw [offer_only hclear] at hoffer
    obtain ⟨r, hr⟩ := denote_of_offer_partly hclear.built hclear.lengths hclear.counts
      hclear.literals hstock hw₁ hoffer
    cases hr.symm.trans hfails
  · rw [offer_only_of_not hclear] at hoffer
    cases hoffer

end Faithful

section Names

/-- People with a number each, whose names may be unknown. -/
def people : SourceRef where
  id := 0
  name := "people"
  schema :=
    { name := "people", properties := [⟨"id", .int, true⟩, ⟨"name", .text, false⟩]
      distinct := by decide }

def nameless : ItemRef := { cell := 0, source := people }

/-- The state with one item that is not stored yet. -/
def namelessState : World :=
  { cells := #[{ source := people
                 slots := [("id", .resolved (.int 1)), ("name", .resolved .null)] }]
    stores := #[{}] }

def peopleState : World := (((create .live people true).saveItem nameless).run namelessState).2

theorem filled_peopleState : Filled people peopleState := by
  refine .saved (.empty rfl) fun fields row document w₁ w₂ hfields hrow _ => ?_
  have hfields' : (keyFields .live people nameless).run namelessState =
      (.ok [("id", .int 1)], namelessState) := rfl
  cases hfields'.symm.trans hfields
  have hrow' : (Item.entries ItemAccess.live.field nameless).run namelessState =
      (.ok [("id", .int 1), ("name", .null)], namelessState) := rfl
  cases hrow'.symm.trans hrow
  intro property hproperty
  simp only [people, List.mem_cons, List.not_mem_nil, or_false] at hproperty
  rcases hproperty with rfl | rfl <;> exact ⟨.single rfl, rfl⟩

def nameOf : Expr := .field .element "name" .any

def members : Expr := .aggregate .count .element none .int

theorem built_nameOf (view : ItemRef → String) : nameOf.Built view :=
  .field (.outer 0) (show Expr.mkField view .element "name" = .ok nameOf from rfl)

theorem built_members (view : ItemRef → String) : members.Built view :=
  .aggregate (.outer 0) (fun _ h => by cases h)
    (show Expr.mkAggregate view .count .element none = .ok members from rfl)

/-- How many people have each name. -/
def byName : Expr :=
  .groupBy (.allItems people.schema) nameOf members
    (.list (.record [(Expr.groupKeyField, .text), (Expr.groupValueField, .int)] false))

/-- How often each name occurs. -/
def occurrences : Expr :=
  .groupBy (.map (.allItems people.schema) nameOf (.list .text)) .element members
    (.list (.record [(Expr.groupKeyField, .text), (Expr.groupValueField, .int)] false))

def oneUnknown (n : Int64) : Value :=
  .list [.record [(Expr.groupKeyField, .null), (Expr.groupValueField, .int n)]]

theorem shows_oneUnknown (w : World) (n : Int64) :
    w.Shows (oneUnknown n) (.ofValue (oneUnknown n)) := by
  refine Value.IsData.shows (.list ?_) w
  simp only [List.mem_singleton, forall_eq]
  refine .record (show [Expr.groupKeyField, Expr.groupValueField].Nodup by decide) ?_
  simp only [List.mem_cons, List.not_mem_nil, or_false, forall_eq_or_imp, forall_eq]
  exact ⟨.single rfl, .single rfl⟩

theorem projectsNoLength_byName : byName.ProjectsNoLength := by
  have context (depth : Nat) (type : DataType) : (Expr.context depth type).ProjectsNoLength :=
    .of_parts nofun nofun
  refine .of_parts nofun fun part hpart => ?_
  simp only [byName, Expr.children, List.mem_cons, List.not_mem_nil, or_false] at hpart
  rcases hpart with rfl | rfl | rfl
  · exact context _ _
  · refine .of_parts nofun fun part hpart => ?_
    obtain rfl := List.mem_singleton.1 hpart
    exact context _ _
  · refine .of_parts nofun fun part hpart => ?_
    obtain rfl := List.mem_singleton.1 hpart
    exact context _ _

theorem countsAlike_byName : byName.CountsAlike people.schema := by
  refine .of_parts (fun source key total type segment h hsegment hscalar => ?_) fun part hpart => ?_
  · cases h
    cases hsegment
    obtain ⟨t, ⟨⟩⟩ := hscalar
  · simp only [byName, Expr.children, List.mem_cons, List.not_mem_nil, or_false, Prod.mk.injEq,
      reduceCtorEq, and_false, and_true] at hpart
    subst hpart
    exact .of_parts nofun nofun

theorem not_hasLiteral_byName {v : Value} (h : byName.HasLiteral v) : False := by
  obtain ⟨part, hpart, h⟩ := (Expr.hasLiteral_iff rfl).1 h
  simp only [byName, Expr.children, List.mem_cons, List.not_mem_nil, or_false] at hpart
  rcases hpart with rfl | rfl | rfl
  · exact Shape.not_hasLiteral_context h
  · exact Expr.not_hasLiteral_of_elementField rfl h
  · obtain ⟨part, hpart, h⟩ := (Expr.hasLiteral_iff rfl).1 h
    obtain rfl := List.mem_singleton.1 hpart
    exact Shape.not_hasLiteral_context h

end Names

end Documents

end Source

end RecordAlgebra
