import RecordAlgebra.Value.Aggregate
import RecordAlgebra.Value.Comparison
import RecordAlgebra.Value.Function
import RecordAlgebra.Value.Sorting

/-!
# Data

A datum is what a value stands for at one moment. Instead of a handle to an
item it has the source of the item and the fields that the item holds, so two
values stand for one datum whenever nothing can tell them apart. The operations
on values that do not look into items are taken over through the bare value of
a datum, whose items are handles to nothing; the others follow the fields.
-/

namespace RecordAlgebra

inductive Datum where
  | null
  | bool (b : Bool)
  | int (n : Int64)
  | float (x : Float)
  | text (s : String)
  | bytes (octets : List UInt8)
  | timestamp (t : Timestamp)
  | list (elements : List Datum)
  | record (fields : List (String × Datum))
  | item (source : SourceRef) (fields : List (String × Datum))
  deriving Inhabited

namespace Datum

/-- The data that a datum is put together from. -/
def parts : Datum → List Datum
  | .list elements => elements
  | .record fields | .item _ fields => fields.map Prod.snd
  | _ => []

theorem partsInduction {motive : Datum → Prop}
    (step : ∀ d : Datum, (∀ part ∈ d.parts, motive part) → motive d) (d : Datum) : motive d :=
  @Datum.rec motive (fun elements => ∀ d ∈ elements, motive d)
    (fun fields => ∀ d ∈ fields.map Prod.snd, motive d) (fun field => motive field.2)
    (step _ (by simp [parts])) (fun _ => step _ (by simp [parts]))
    (fun _ => step _ (by simp [parts])) (fun _ => step _ (by simp [parts]))
    (fun _ => step _ (by simp [parts])) (fun _ => step _ (by simp [parts]))
    (fun _ => step _ (by simp [parts])) (fun _ ih => step _ ih) (fun _ ih => step _ ih)
    (fun _ _ ih => step _ ih) (by simp)
    (fun _ _ first others => by simpa using ⟨first, others⟩) (by simp)
    (fun _ _ first others => by simpa using ⟨first, by simpa using others⟩) (fun _ _ h => h) d

/-- The item that stands for all items of a source. -/
def handle (source : SourceRef) : ItemRef := { cell := 0, source }

mutual

/-- The value with items as mere handles. -/
def bare : Datum → Value
  | .null => .null
  | .bool b => .bool b
  | .int n => .int n
  | .float x => .float x
  | .text s => .text s
  | .bytes octets => .bytes octets
  | .timestamp t => .timestamp t
  | .list elements => .list (bares elements)
  | .record fields => .record (bareFields fields)
  | .item source _ => .item (handle source)

def bares : List Datum → List Value
  | [] => []
  | d :: rest => bare d :: bares rest

def bareFields : List (String × Datum) → List (String × Value)
  | [] => []
  | (name, d) :: rest => (name, bare d) :: bareFields rest

end

mutual

/-- The datum of a value without items. -/
def ofValue : Value → Datum
  | .null | .item _ => .null
  | .bool b => .bool b
  | .int n => .int n
  | .float x => .float x
  | .text s => .text s
  | .bytes octets => .bytes octets
  | .timestamp t => .timestamp t
  | .list elements => .list (ofValues elements)
  | .record fields => .record (ofFields fields)

def ofValues : List Value → List Datum
  | [] => []
  | v :: rest => ofValue v :: ofValues rest

def ofFields : List (String × Value) → List (String × Datum)
  | [] => []
  | (name, v) :: rest => (name, ofValue v) :: ofFields rest

end

def isNull (d : Datum) : Bool := d.bare.isNull

/-- The outcome of an operation on values, by the kind of its error. -/
def ofResult {α : Type} (result : Except Error α) : Except ErrorKind α := result.mapError Error.kind

/-- The text of items where it makes no difference. -/
def unseen : ItemRef → String := fun _ => ""

@[simp] theorem ofResult_ok {α : Type} (a : α) : ofResult (.ok a) = .ok a := rfl

@[simp] theorem ofResult_error {α : Type} (e : Error) :
    ofResult (.error e : Except Error α) = .error e.kind := rfl

theorem ofResult_bind {α β : Type} (result : Except Error α) (f : α → Except Error β) :
    ofResult (result >>= f) = ofResult result >>= fun a => ofResult (f a) := by
  cases result <;> rfl

theorem bares_eq_map (elements : List Datum) : bares elements = elements.map bare := by
  induction elements with
  | nil => rfl
  | cons d rest ih => rw [bares, ih, List.map_cons]

theorem bareFields_eq_map (fields : List (String × Datum)) :
    bareFields fields = fields.map fun field => (field.1, field.2.bare) := by
  induction fields with
  | nil => rfl
  | cons field rest ih => rw [bareFields, ih, List.map_cons]

theorem ofValues_eq_map (vs : List Value) : ofValues vs = vs.map ofValue := by
  induction vs with
  | nil => rfl
  | cons v rest ih => rw [ofValues, ih, List.map_cons]

theorem ofFields_eq_map (fields : List (String × Value)) :
    ofFields fields = fields.map fun field => (field.1, ofValue field.2) := by
  induction fields with
  | nil => rfl
  | cons field rest ih => rw [ofFields, ih, List.map_cons]

/-- A field of a mapping. -/
def field (d : Datum) (name : String) : Except ErrorKind Datum :=
  match d with
  | .record fields | .item _ fields =>
      match Fields.get? fields name with
      | some value => .ok value
      | none => .error .unknownField
  | _ => .error .typeMismatch

def entries : Datum → Except ErrorKind (Fields Datum)
  | .record fields | .item _ fields => .ok fields
  | _ => .error .typeMismatch

/-- Whether the field of this name belongs to the identity of the items. -/
def isIdentity (source : SourceRef) (name : String) : Bool :=
  source.schema.properties.any fun property => property.name == name && property.identity

def identity (source : SourceRef) (fields : List (String × Datum)) : List (String × Datum) :=
  fields.filter fun field => isIdentity source field.1

def isComplete (fields : List (String × Datum)) : Bool := fields.all fun field => !field.2.isNull

mutual

/-- Equal data are those that nothing tells apart but the kind of their numbers,
the order of their fields and, among items of one source with complete
identities, fields that do not belong to the identity. -/
def equal : Datum → Datum → Bool
  | .null, .null => true
  | .bool a, .bool b => a == b
  | .int a, .int b => a == b
  | .int a, .float b => Binary64.order (Value.toFloat a) b == .eq
  | .float a, .int b => Binary64.order (Value.toFloat b) a == .eq
  | .float a, .float b => Binary64.order a b == .eq
  | .text a, .text b => a == b
  | .bytes a, .bytes b => a == b
  | .timestamp a, .timestamp b => a == b
  | .list as, .list bs => equalElements as bs
  | .record as, .record bs => decide (as.length = bs.length) && equalFields as bs
  | .item a as, .item b bs =>
      if (decide (a.id = b.id) && a.schema.hasIdentity) &&
          (isComplete (identity a as) && isComplete (identity b bs)) then
        equalEntries (isIdentity a) as (identity b bs)
      else equalEntries (fun _ => true) as bs
  | _, _ => false
termination_by structural d => d

def equalElements : List Datum → List Datum → Bool
  | [], [] => true
  | a :: as, b :: bs => equal a b && equalElements as bs
  | _, _ => false

/-- Whether the second mapping has every field of the first. -/
def equalFields : List (String × Datum) → List (String × Datum) → Bool
  | [], _ => true
  | (name, a) :: as, bs =>
      match Fields.get? bs name with
      | none => false
      | some b => equal a b && equalFields as bs

/-- Whether those entries of the first mapping that are to be kept are the
entries of the second in the same order. -/
def equalEntries (keep : String → Bool) :
    List (String × Datum) → List (String × Datum) → Bool
  | [], bs => bs.isEmpty
  | (name, a) :: as, bs =>
      if keep name then
        match bs with
        | (other, b) :: bs => name == other && (equal a b && equalEntries keep as bs)
        | [] => false
      else equalEntries keep as bs

end

theorem equalFields_iff {as bs : Fields Datum} : equalFields as bs = true ↔
    ∀ field ∈ as, ∃ b, bs.get? field.1 = some b ∧ field.2.equal b = true := by
  induction as with
  | nil => simp [equalFields]
  | cons field as ih =>
      obtain ⟨name, a⟩ := field
      rw [equalFields, List.forall_mem_cons, ← ih]
      cases Fields.get? bs name <;> simp

theorem equalElements_iff {as bs : List Datum} : equalElements as bs = true ↔
    as.length = bs.length ∧
      ∀ (i : Nat) (h : i < as.length) (h' : i < bs.length), as[i].equal bs[i] = true := by
  induction as generalizing bs with
  | nil => cases bs <;> simp [equalElements]
  | cons a as ih =>
      cases bs with
      | nil => simp [equalElements]
      | cons b bs =>
          rw [equalElements, Bool.and_eq_true, ih]
          constructor
          · rintro ⟨hab, hlength, hrest⟩
            refine ⟨congrArg (· + 1) hlength, fun i h h' => ?_⟩
            cases i with
            | zero => exact hab
            | succ i => exact hrest i (Nat.lt_of_succ_lt_succ h) (Nat.lt_of_succ_lt_succ h')
          · rintro ⟨hlength, hall⟩
            refine ⟨hall 0 (by simp) (by simp), Nat.succ.inj hlength, fun i h h' => ?_⟩
            exact hall (i + 1) (Nat.succ_lt_succ h) (Nat.succ_lt_succ h')

theorem equalElements_of_length_ne {as bs : List Datum} (h : as.length ≠ bs.length) :
    equalElements as bs = false :=
  Bool.eq_false_iff.2 fun hequal => h (equalElements_iff.1 hequal).1

theorem equal_list_iff {as : List Datum} {e : Datum} : (Datum.list as).equal e = true ↔
    ∃ bs, e = .list bs ∧ as.length = bs.length ∧
      ∀ (i : Nat) (h : i < as.length) (h' : i < bs.length), as[i].equal bs[i] = true := by
  cases e with
  | list bs =>
      rw [equal, equalElements_iff]
      simp
  | _ => simp [equal]

theorem equal_record_iff {fields : Fields Datum} {e : Datum} : (Datum.record fields).equal e = true ↔
    ∃ others, e = .record others ∧ fields.length = others.length ∧
      equalFields fields others = true := by
  cases e with
  | record others => simp [equal]
  | _ => simp [equal]

mutual

def digest : Datum → Digest
  | .null => .null
  | .bool b => .bool b
  | .int n => .number (Binary64.orderKey (Value.toFloat n))
  | .float x => .number (Binary64.orderKey x)
  | .text s => .text s
  | .bytes octets => .bytes octets
  | .timestamp t => .timestamp t
  | .list elements => .list (digests elements)
  | .record fields => .ofEntries (digestEntries (fun _ => true) fields)
  | .item source fields =>
      .ofEntries <| digestEntries
        (fun name => !source.schema.hasIdentity || isIdentity source name) fields

def digests : List Datum → List Digest
  | [] => []
  | d :: rest => digest d :: digests rest

def digestEntries (keep : String → Bool) : List (String × Datum) → List (String × Digest)
  | [] => []
  | (name, d) :: rest =>
      if keep name then (name, digest d) :: digestEntries keep rest else digestEntries keep rest

end

/-- Whether two data are one key. -/
def sameKey (a b : Datum) : Bool := a.digest.same b.digest && equal a b

end Datum

end RecordAlgebra
