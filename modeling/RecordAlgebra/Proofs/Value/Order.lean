import RecordAlgebra.Value.Sorting

/-!
# The total order of values

Integers are compared exactly and doubles by their place, but an integer is
rounded when it is compared with a double. So the total order is one as long as
the two kinds of numbers are not mixed. It ranges values that have no order next
to each other: whatever lies between two values that are not comparable is not
comparable with one of its neighbours.
-/

namespace RecordAlgebra

/-- What the comparisons of a first element with a second one (`x`) and of that
with a third one (`y`) tell about the comparison of the first with the third
(`z`). `p`, `q` and `r` say which of the three are comparable. -/
structure Chain (x y z : Ordering) (p q r : Prop) : Prop where
  through : x.isLE → y.isLE → z = x.then y
  comparable : x.isLE → y.isLE → p → q → r

namespace Chain

variable {x y z x' y' z' : Ordering} {p q r p' q' r' : Prop}

theorem of_trans {α : Type} (cmp : α → α → Ordering) [Std.TransCmp cmp] (a b c : α) (h : r) :
    Chain (cmp a b) (cmp b c) (cmp a c) p q r where
  through hab hbc := by
    cases hfirst : cmp a b with
    | lt => exact Std.TransCmp.lt_of_lt_of_isLE hfirst hbc
    | eq => exact Std.TransCmp.congr_left hfirst
    | gt => rw [hfirst] at hab; cases hab
  comparable _ _ _ _ := h

/-- Comparing by the one and then, if that is equal, by the other. The other one
matters only if the first one never decides. -/
theorem lex (h : Chain x y z p q r) (h' : x = .eq → y = .eq → Chain x' y' z' p' q' r') :
    Chain (x.then x') (y.then y') (z.then z') (p ∧ (x = .eq → p')) (q ∧ (y = .eq → q'))
      (r ∧ (z = .eq → r')) := by
  obtain ⟨through, comparable⟩ := h
  rcases x with _ | _ | _ <;> rcases y with _ | _ | _
  case eq.eq =>
    obtain ⟨through', comparable'⟩ := h' rfl rfl
    obtain rfl : z = .eq := through rfl rfl
    exact ⟨through', fun hx hy hp hq =>
      ⟨comparable rfl rfl hp.1 hq.1, fun _ => comparable' hx hy (hp.2 rfl) (hq.2 rfl)⟩⟩
  case lt.lt | lt.eq | eq.lt =>
    obtain rfl : z = .lt := through rfl rfl
    exact ⟨by simp +contextual [Ordering.isLE_iff_eq_lt_or_eq_eq, or_imp], fun _ _ hp hq =>
      ⟨comparable rfl rfl hp.1 hq.1, nofun⟩⟩
  all_goals exact ⟨nofun, nofun⟩

/-- The chain from the third element to the first. -/
theorem reverse (h : Chain y.swap x.swap z.swap q p r) : Chain x.swap y.swap z.swap p q r where
  through hx hy := by
    rw [h.through hy hx]
    revert hx hy
    cases x <;> cases y <;> decide
  comparable hx hy hp hq := h.comparable hy hx hq hp

end Chain

/-- Integers and doubles. -/
inductive NumberKind where
  | whole
  | fractional
  deriving DecidableEq, Repr

def NumberKind.describes : NumberKind → Value → Bool
  | .whole, .int _ | .fractional, .float _ => true
  | _, _ => false

namespace Value

mutual

/-- Whether the value is a number of this kind or a list with one inside, at any
depth. -/
def hasNumber (kind : NumberKind) : Value → Bool
  | .list elements => anyHasNumber kind elements
  | v => kind.describes v

def anyHasNumber (kind : NumberKind) : List Value → Bool
  | [] => false
  | v :: rest => hasNumber kind v || anyHasNumber kind rest

end

/-- One kind of numbers does not occur in any of the values. -/
def Unmixed (vs : List Value) : Prop := ∃ kind, ∀ v ∈ vs, v.hasNumber kind = false

/-- Whether there is an order between two values. -/
def Comparable (a b : Value) : Prop := ∃ o, order a b = .ok o

def ListsComparable (as bs : List Value) : Prop := ∃ o, orderLists as bs = .ok o

mutual

theorem totalOrder_of_order {a b : Value} {o : Ordering} (h : order a b = .ok o) :
    totalOrder a b = o := by
  cases a with
  | list as =>
      cases b with
      | list bs =>
          rw [order] at h
          rw [totalOrder]
          exact totalOrderLists_of_order h
      | _ => unfold totalOrder; rw [h]
  | _ => unfold totalOrder; rw [h]

theorem totalOrderLists_of_order {as bs : List Value} {o : Ordering}
    (h : orderLists as bs = .ok o) : totalOrderLists as bs = o := by
  match as, bs, h with
  | [], [], h | [], _ :: _, h | _ :: _, [], h => cases h; rfl
  | a :: as, b :: bs, h =>
      rw [orderLists] at h
      rw [totalOrderLists]
      split at h
      next hab =>
        rw [totalOrder_of_order hab]
        exact totalOrderLists_of_order h
      next hne =>
        rw [totalOrder_of_order h]
        cases o <;> first | rfl | exact absurd h hne

end

theorem listsComparable_cons {a b : Value} {as bs : List Value} :
    ListsComparable (a :: as) (b :: bs) ↔
      Comparable a b ∧ (totalOrder a b = .eq → ListsComparable as bs) := by
  unfold ListsComparable
  rw [orderLists]
  constructor
  · rintro ⟨o, h⟩
    split at h
    next hab => exact ⟨⟨_, hab⟩, fun _ => ⟨o, h⟩⟩
    next hne =>
      refine ⟨⟨o, h⟩, fun heq => ?_⟩
      rw [totalOrder_of_order h] at heq
      exact absurd (heq ▸ h) hne
  · rintro ⟨⟨o, hab⟩, h⟩
    rw [hab]
    cases o with
    | eq => exact h (totalOrder_of_order hab)
    | lt | gt => exact ⟨_, rfl⟩

section Rank

variable {a b c : Value}

/-- Values of different kinds are compared by their kinds. -/
theorem totalOrder_of_rank_ne (h : a.rank ≠ b.rank) :
    totalOrder a b = Ord.compare a.rank b.rank := by
  cases a <;> cases b <;> first | rfl | exact absurd rfl h

/-- Of values of different kinds, only null is comparable with the others. -/
theorem comparable_of_rank_ne (h : a.rank ≠ b.rank) :
    Comparable a b ↔ a.rank = 0 ∨ b.rank = 0 := by
  cases a <;> cases b <;> first | exact absurd rfl h | simp [Comparable, order, rank]

theorem rank_le_of_isLE (h : (totalOrder a b).isLE) : a.rank ≤ b.rank := by
  refine Nat.le_of_not_lt fun hlt => ?_
  rw [totalOrder_of_rank_ne (by omega), Nat.compare_eq_gt.2 hlt] at h
  cases h

/-- As soon as the kinds differ it is the kinds that are in a chain. -/
theorem chain_of_rank_ne (h : ¬(a.rank = b.rank ∧ b.rank = c.rank)) :
    Chain (totalOrder a b) (totalOrder b c) (totalOrder a c) (Comparable a b) (Comparable b c)
      (Comparable a c) := by
  have hlt (hab : (totalOrder a b).isLE) (hbc : (totalOrder b c).isLE) : a.rank < c.rank := by
    have hab := rank_le_of_isLE hab
    have hbc := rank_le_of_isLE hbc
    omega
  constructor
  · intro hab hbc
    have hac := hlt hab hbc
    rw [totalOrder_of_rank_ne (by omega), Nat.compare_eq_lt.2 hac]
    rcases Nat.lt_or_ge a.rank b.rank with hab' | hab'
    · rw [totalOrder_of_rank_ne (by omega), Nat.compare_eq_lt.2 hab']
      rfl
    · rw [totalOrder_of_rank_ne (a := b) (by omega), Nat.compare_eq_lt.2 (by omega)]
      cases hfirst : totalOrder a b with
      | lt | eq => rfl
      | gt => rw [hfirst] at hab; cases hab
  · intro hab hbc hp hq
    have hac := hlt hab hbc
    have hab' := rank_le_of_isLE hab
    refine (comparable_of_rank_ne (by omega)).2 (.inl ?_)
    rcases Nat.lt_or_ge a.rank b.rank with hne | hge
    · have := (comparable_of_rank_ne (by omega)).1 hp
      omega
    · have := (comparable_of_rank_ne (by omega)).1 hq
      omega

end Rank

theorem orderBytes_eq_compareLex (as bs : List UInt8) :
    orderBytes as bs = List.compareLex Ord.compare as bs := by
  induction as generalizing bs with
  | nil => cases bs <;> rfl
  | cons a as ih =>
      cases bs with
      | nil => rfl
      | cons b bs => rw [orderBytes, List.compareLex_cons_cons, ih]

instance : Std.TransCmp orderBytes := by
  rw [show orderBytes = List.compareLex Ord.compare from
    funext fun as => funext fun bs => orderBytes_eq_compareLex as bs]
  infer_instance

instance : Std.TransCmp Timestamp.order :=
  inferInstanceAs <| Std.TransCmp <| compareLex (compareOn Timestamp.year) <|
    compareLex (compareOn Timestamp.month) <| compareLex (compareOn Timestamp.day) <|
    compareLex (compareOn Timestamp.hour) <| compareLex (compareOn Timestamp.minute) <|
    compareLex (compareOn Timestamp.second) (compareOn Timestamp.nanosecond)

instance : Std.TransCmp Binary64.order :=
  inferInstanceAs (Std.TransCmp (compareOn Binary64.orderKey))

theorem swap_of_oriented {α : Type} (cmp : α → α → Ordering) [Std.OrientedCmp cmp] (a b : α) :
    (cmp a b).swap = cmp b a :=
  Std.OrientedCmp.eq_swap.symm

mutual

theorem totalOrder_swap : ∀ a b : Value, (totalOrder a b).swap = totalOrder b a := by
  intro a b
  by_cases hrank : a.rank = b.rank
  · cases a <;> cases b <;> try (simp [rank] at hrank; done)
    case null.null => rfl
    case bool.bool x y => exact swap_of_oriented Ord.compare x y
    case int.int x y => exact swap_of_oriented (compareOn Int64.toInt) x y
    case int.float x y | float.int x y | float.float x y => exact Binary64.order_swap _ _
    case text.text x y => exact swap_of_oriented Ord.compare x y
    case bytes.bytes x y => exact swap_of_oriented orderBytes x y
    case timestamp.timestamp x y => exact swap_of_oriented Timestamp.order x y
    case list.list as bs =>
      simp only [totalOrder]
      exact totalOrderLists_swap as bs
    all_goals rfl
  · rw [totalOrder_of_rank_ne hrank, totalOrder_of_rank_ne (Ne.symm hrank)]
    exact swap_of_oriented Ord.compare a.rank b.rank

theorem totalOrderLists_swap : ∀ as bs : List Value,
    (totalOrderLists as bs).swap = totalOrderLists bs as
  | [], [] | [], _ :: _ | _ :: _, [] => rfl
  | a :: as, b :: bs => by
      rw [totalOrderLists, totalOrderLists, ← totalOrder_swap a b, ← totalOrderLists_swap as bs,
        Ordering.swap_then]

end

mutual

theorem Comparable.symm : ∀ {a b : Value}, Comparable a b → Comparable b a := by
  intro a b h
  cases a <;> cases b <;> try exact ⟨_, rfl⟩
  case list.list as bs =>
    simp only [Comparable, order] at h ⊢
    exact ListsComparable.symm h
  all_goals exact h.elim fun _ h => by cases h

theorem ListsComparable.symm : ∀ {as bs : List Value}, ListsComparable as bs →
    ListsComparable bs as
  | [], [], _ | [], _ :: _, _ | _ :: _, [], _ => ⟨_, rfl⟩
  | a :: as, b :: bs, h => by
      obtain ⟨hab, hrest⟩ := listsComparable_cons.1 h
      refine listsComparable_cons.2 ⟨hab.symm, fun heq => (hrest ?_).symm⟩
      rw [← totalOrder_swap, heq]
      rfl

end

mutual

theorem kind_of_order_error : ∀ {a b : Value} {e : Error}, order a b = .error e →
    e.kind = .typeMismatch := by
  intro a b e h
  cases a <;> cases b
  case list.list as bs =>
    rw [order] at h
    exact kind_of_orderLists_error h
  all_goals cases h <;> rfl

theorem kind_of_orderLists_error : ∀ {as bs : List Value} {e : Error},
    orderLists as bs = .error e → e.kind = .typeMismatch
  | [], [], _, h | [], _ :: _, _, h | _ :: _, [], _, h => by cases h
  | a :: as, b :: bs, _, h => by
      rw [orderLists] at h
      split at h
      · exact kind_of_orderLists_error h
      · exact kind_of_order_error h

end

end Value

end RecordAlgebra
