import RecordAlgebra.Value.Basic

/-!
# Looking into values

Equality, hash keys and fields of values may depend on what items hold, and
finding that out may have effects. So these operations work in any monad that
has errors, given an `ItemAccess` for it. Values without items need no access
at all, which is what `ItemAccess.detached` provides.

A digest is what a value contributes to a hash key. Integers and doubles share
one form, and so do records and items, whose entries count in any order.
-/

namespace RecordAlgebra

inductive Digest where
  | null
  | bool (b : Bool)
  | number (key : Int)
  | text (s : String)
  | bytes (octets : List UInt8)
  | timestamp (t : Timestamp)
  | list (elements : List Digest)
  | mapping (entries : List (String × Digest))
  deriving Inhabited

namespace Digest

mutual

def same : Digest → Digest → Bool
  | .null, .null => true
  | .bool a, .bool b => a == b
  | .number a, .number b => a == b
  | .text a, .text b => a == b
  | .bytes a, .bytes b => a == b
  | .timestamp a, .timestamp b => a == b
  | .list as, .list bs => sameAll as bs
  | .mapping as, .mapping bs => sameEntries as bs
  | _, _ => false

def sameAll : List Digest → List Digest → Bool
  | [], [] => true
  | a :: as, b :: bs => same a b && sameAll as bs
  | _, _ => false

def sameEntries : List (String × Digest) → List (String × Digest) → Bool
  | [], [] => true
  | (name, a) :: as, (other, b) :: bs => name == other && same a b && sameEntries as bs
  | _, _ => false

end

def insertEntry (entry : String × Digest) : List (String × Digest) → List (String × Digest)
  | [] => [entry]
  | first :: rest =>
      if entry.1 < first.1 then entry :: first :: rest else first :: insertEntry entry rest

/-- The digest of a mapping, whatever the order of its entries. Their names are
distinct, so sorting by name forgets the order. -/
def ofEntries (entries : List (String × Digest)) : Digest :=
  .mapping (entries.foldr insertEntry [])

end Digest

/-- How values reach into the items that they hold. -/
structure ItemAccess (m : Type → Type) where
  field : ItemRef → String → m Value
  entries : ItemRef → m (Fields Value)
  equal : ItemRef → ItemRef → m Bool
  digest : ItemRef → m Digest
  /-- The present text of items. -/
  view : m (ItemRef → String)

/-- Access for values in which no item occurs. -/
def ItemAccess.detached : ItemAccess (Except Error) where
  field _ _ := .ok .null
  entries _ := .ok []
  equal a b := .ok (a.cell == b.cell)
  digest _ := .ok .null
  view := .ok fun _ => ""

namespace Value

variable {m : Type → Type} [Monad m]

mutual

/-- Numbers are compared by their place in the order of doubles, unless both
are integers. Records are equal if they have equal fields in whatever order. -/
def equal (items : ItemRef → ItemRef → m Bool) : Value → Value → m Bool
  | .null, .null => pure true
  | .bool a, .bool b => pure (a == b)
  | .int a, .int b => pure (a == b)
  | .int a, .float b => pure (Binary64.order (toFloat a) b == .eq)
  | .float a, .int b => pure (Binary64.order (toFloat b) a == .eq)
  | .float a, .float b => pure (Binary64.order a b == .eq)
  | .text a, .text b => pure (a == b)
  | .bytes a, .bytes b => pure (a == b)
  | .timestamp a, .timestamp b => pure (a == b)
  | .list as, .list bs =>
      if as.length = bs.length then equalElements items as bs else pure false
  | .record as, .record bs =>
      if as.length = bs.length then equalFields items as bs else pure false
  | .item a, .item b => items a b
  | _, _ => pure false

def equalElements (items : ItemRef → ItemRef → m Bool) : List Value → List Value → m Bool
  | a :: as, b :: bs => do if ← equal items a b then equalElements items as bs else pure false
  | [], [] => pure true
  | _, _ => pure false

/-- Whether the second mapping has every field of the first. -/
def equalFields (items : ItemRef → ItemRef → m Bool) :
    List (String × Value) → List (String × Value) → m Bool
  | [], _ => pure true
  | (name, a) :: as, bs =>
      match Fields.get? bs name with
      | none => pure false
      | some b => do if ← equal items a b then equalFields items as bs else pure false

end

/-- Whether two mappings have the same entries in the same order. -/
def equalEntries (items : ItemRef → ItemRef → m Bool) :
    List (String × Value) → List (String × Value) → m Bool
  | [], [] => pure true
  | (name, a) :: as, (other, b) :: bs => do
      if name == other then
        if ← equal items a b then equalEntries items as bs else pure false
      else pure false
  | _, _ => pure false

mutual

def digest (items : ItemRef → m Digest) : Value → m Digest
  | .null => pure .null
  | .bool b => pure (.bool b)
  | .int n => pure (.number (Binary64.orderKey (toFloat n)))
  | .float x => pure (.number (Binary64.orderKey x))
  | .text s => pure (.text s)
  | .bytes octets => pure (.bytes octets)
  | .timestamp t => pure (.timestamp t)
  | .list elements => do pure (.list (← digestElements items elements))
  | .record fields => do pure (.ofEntries (← digestEntries items fields))
  | .item ref => items ref

def digestElements (items : ItemRef → m Digest) : List Value → m (List Digest)
  | [] => pure []
  | element :: rest => do
      let first ← digest items element
      pure (first :: (← digestElements items rest))

def digestEntries (items : ItemRef → m Digest) :
    List (String × Value) → m (List (String × Digest))
  | [] => pure []
  | (name, value) :: rest => do
      let first ← digest items value
      pure ((name, first) :: (← digestEntries items rest))

end

/-- A value with the digest that it had when it was made a key. -/
structure Key where
  value : Value
  digest : Digest

def toKey (access : ItemAccess m) (v : Value) : m Key := do
  pure { value := v, digest := ← v.digest access.digest }

/-- Equal digests only make it possible that keys are equal. -/
def Key.equal (access : ItemAccess m) (a b : Key) : m Bool :=
  if a.digest.same b.digest then Value.equal access.equal a.value b.value else pure false

/-- The first key of an entry that equals the given one, with its position. -/
def Key.find? {α : Type} (access : ItemAccess m) (key : Key) :
    List (Key × α) → m (Option Nat)
  | [] => pure none
  | (other, _) :: rest => do
      if ← key.equal access other then pure (some 0)
      else return (← Key.find? access key rest).map (· + 1)

variable [MonadExceptOf Error m]

def field (access : ItemAccess m) (v : Value) (name : String) : m Value :=
  match v with
  | .item ref => access.field ref name
  | .record fields =>
      match Fields.get? fields name with
      | some value => pure value
      | none => throwThe Error (.ofCause (.recordHasNoField name))
  | v => throwThe Error (.ofCause (.fieldOfValue name v.kind))

/-- The fields of a mapping, all of them loaded. -/
def entries (access : ItemAccess m) (v : Value) : m (Fields Value) :=
  match v with
  | .item ref => access.entries ref
  | .record fields => pure fields
  | v => do throwThe Error (unexpected (← access.view) "mapping" v)

end Value

end RecordAlgebra
