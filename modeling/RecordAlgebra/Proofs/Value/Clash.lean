import Mathlib.Data.Int.Order.Basic
import Mathlib.Order.Compare
import RecordAlgebra.Proofs.Binary64.Rounding
import RecordAlgebra.Proofs.Value.Order

/-!
# Where the order is transitive

Integers are compared with each other exactly, but with doubles by the double next to them.
So two different integers may both be equal to a double, and then the order is not transitive.
Nothing else goes wrong: comparisons of three values without such a clash are in a chain, and
nothing clashes where the two kinds of numbers are not mixed.
-/

namespace RecordAlgebra

namespace Value

/-- Whether a double has the place of two different integers. -/
def splits (a b : Int64) (x : Float) : Bool :=
  a != b && (Binary64.orderKey (toFloat a) == Binary64.orderKey x &&
    Binary64.orderKey (toFloat b) == Binary64.orderKey x)

mutual

/-- Whether a double meets two different integers that have its place at one place of three
values. The order does not look into records. In lists it goes on as long as there is no
difference. -/
def clash (inRecords : Bool) : Value → Value → Value → Bool
  | .int a, .int b, .float x => splits a b x
  | .int a, .float x, .int b => splits a b x
  | .float x, .int a, .int b => splits a b x
  | .list as, .list bs, .list cs => elementsClash inRecords as bs cs
  | .record as, .record bs, .record cs => inRecords && fieldsClash inRecords as bs cs
  | _, _, _ => false
termination_by structural v => v

def elementsClash (inRecords : Bool) : List Value → List Value → List Value → Bool
  | a :: as, b :: bs, c :: cs =>
      clash inRecords a b c ||
        ((totalOrder a b == .eq && totalOrder b c == .eq) && elementsClash inRecords as bs cs)
  | _, _, _ => false

def fieldsClash (inRecords : Bool) :
    List (String × Value) → List (String × Value) → List (String × Value) → Bool
  | [], _, _ => false
  | (name, a) :: as, bs, cs =>
      (match Fields.get? bs name, Fields.get? cs name with
        | some b, some c => clash inRecords a b c
        | _, _ => false) || fieldsClash inRecords as bs cs

end

section Order

open Binary64

theorem splits_eq_false_iff {a b : Int64} {x : Float} : splits a b x = false ↔
    (orderKey (toFloat a) = orderKey x → orderKey (toFloat b) = orderKey x → a = b) := by
  rw [splits]
  by_cases hab : a = b <;> simp [hab]

section Numbers

variable {a b : Int64} {x : Float} {p q r : Prop}

theorem order_isLE_iff {x y : Float} : (Binary64.order x y).isLE ↔ orderKey x ≤ orderKey y :=
  Int.isLE_compare

theorem order_eq_lt_iff {x y : Float} : Binary64.order x y = .lt ↔ orderKey x < orderKey y :=
  compare_lt_iff_lt

theorem chain_int_int_float (h : splits a b x = false) (hr : r) :
    Chain (Ord.compare a.toInt b.toInt) (Binary64.order (toFloat b) x)
      (Binary64.order (toFloat a) x) p q r where
  through hab hbx := by
    have hle : a.toInt ≤ b.toInt := Int.isLE_compare.1 hab
    have hkeys := orderKey_toFloat_mono hle
    have hbx := order_isLE_iff.1 hbx
    rcases eq_or_lt_of_le hle with heq | hlt
    · obtain rfl := Int64.toInt_inj.1 heq
      rw [Std.compare_self, Ordering.eq_then]
    · rw [compare_lt_iff_lt.2 hlt, Ordering.lt_then, order_eq_lt_iff]
      refine lt_of_le_of_ne (hkeys.trans hbx) fun heq => ?_
      have hsame := splits_eq_false_iff.1 h heq (le_antisymm hbx (heq ▸ hkeys))
      exact absurd (congrArg Int64.toInt hsame) (ne_of_lt hlt)
  comparable _ _ _ _ := hr

theorem chain_float_int_int (h : splits a b x = false) (hr : r) :
    Chain (Binary64.order x (toFloat a)) (Ord.compare a.toInt b.toInt)
      (Binary64.order x (toFloat b)) p q r where
  through hxa hab := by
    have hle : a.toInt ≤ b.toInt := Int.isLE_compare.1 hab
    have hkeys := orderKey_toFloat_mono hle
    have hxa := order_isLE_iff.1 hxa
    rcases eq_or_lt_of_le hle with heq | hlt
    · obtain rfl := Int64.toInt_inj.1 heq
      rw [Std.compare_self, Ordering.then_eq]
    · have hne : orderKey x ≠ orderKey (toFloat b) := by
        intro heq
        have hsame := splits_eq_false_iff.1 h (le_antisymm (heq ▸ hkeys) hxa) heq.symm
        exact absurd (congrArg Int64.toInt hsame) (ne_of_lt hlt)
      rw [order_eq_lt_iff.2 (lt_of_le_of_ne (hxa.trans hkeys) hne), compare_lt_iff_lt.2 hlt]
      revert hxa
      rw [← order_isLE_iff]
      cases Binary64.order x (toFloat a) <;> decide
  comparable _ _ _ _ := hr

theorem chain_int_float_int (h : splits a b x = false) (hr : r) :
    Chain (Binary64.order (toFloat a) x) (Binary64.order x (toFloat b))
      (Ord.compare a.toInt b.toInt) p q r where
  through hax hxb := by
    have hax' := order_isLE_iff.1 hax
    have hxb' := order_isLE_iff.1 hxb
    rcases eq_or_lt_of_le (hax'.trans hxb') with heq | hlt
    · have hxa := le_antisymm hax' (heq ▸ hxb')
      obtain rfl := splits_eq_false_iff.1 h hxa (heq ▸ hxa)
      rw [(Binary64.order_eq_iff _ _).2 hxa, (Binary64.order_eq_iff _ _).2 hxa.symm,
        Std.compare_self]
      rfl
    · have hless : a.toInt < b.toInt := lt_of_not_ge fun hle =>
        absurd (orderKey_toFloat_mono hle) (not_le.2 hlt)
      rw [compare_lt_iff_lt.2 hless]
      rcases eq_or_lt_of_le hax' with heq | hlt'
      · rw [(Binary64.order_eq_iff _ _).2 heq, Ordering.eq_then]
        exact (order_eq_lt_iff.2 (heq ▸ hlt)).symm
      · rw [order_eq_lt_iff.2 hlt', Ordering.lt_then]
  comparable _ _ _ _ := hr

end Numbers

mutual

/-- Comparisons of three values that do not clash are in a chain. -/
theorem chain_of_clash : ∀ {a b c : Value}, clash false a b c = false →
    Chain (totalOrder a b) (totalOrder b c) (totalOrder a c) (Comparable a b) (Comparable b c)
      (Comparable a c) := by
  intro a b c h
  by_cases hrank : a.rank = b.rank ∧ b.rank = c.rank
  · obtain ⟨hab, hbc⟩ := hrank
    cases a <;> cases b <;> try (simp [rank] at hab; done)
    all_goals cases c <;> try (simp [rank] at hbc; done)
    case null.null.null => exact ⟨fun _ _ => rfl, fun _ _ _ _ => ⟨_, rfl⟩⟩
    case bool.bool.bool x y z => exact .of_trans Ord.compare x y z ⟨_, rfl⟩
    case int.int.int x y z => exact .of_trans (compareOn Int64.toInt) x y z ⟨_, rfl⟩
    case int.int.float => exact chain_int_int_float h ⟨_, rfl⟩
    case int.float.int => exact chain_int_float_int h ⟨_, rfl⟩
    case float.int.int => exact chain_float_int_int h ⟨_, rfl⟩
    case int.float.float x y z => exact .of_trans Binary64.order (toFloat x) y z ⟨_, rfl⟩
    case float.int.float x y z => exact .of_trans Binary64.order x (toFloat y) z ⟨_, rfl⟩
    case float.float.int x y z => exact .of_trans Binary64.order x y (toFloat z) ⟨_, rfl⟩
    case float.float.float x y z => exact .of_trans Binary64.order x y z ⟨_, rfl⟩
    case text.text.text x y z => exact .of_trans Ord.compare x y z ⟨_, rfl⟩
    case bytes.bytes.bytes x y z => exact .of_trans orderBytes x y z ⟨_, rfl⟩
    case timestamp.timestamp.timestamp x y z => exact .of_trans Timestamp.order x y z ⟨_, rfl⟩
    case list.list.list as bs cs =>
      simp only [totalOrder, Comparable, order]
      exact chain_of_elementsClash h
    -- Nothing is comparable with a record or an item.
    all_goals exact ⟨fun _ _ => rfl, fun _ _ ⟨_, h⟩ => by cases h⟩
  · exact chain_of_rank_ne hrank

theorem chain_of_elementsClash : ∀ {as bs cs : List Value},
    elementsClash false as bs cs = false →
      Chain (totalOrderLists as bs) (totalOrderLists bs cs) (totalOrderLists as cs)
        (ListsComparable as bs) (ListsComparable bs cs) (ListsComparable as cs)
  | a :: as, b :: bs, c :: cs, h => by
      simp only [totalOrderLists, listsComparable_cons]
      simp only [elementsClash, Bool.or_eq_false_iff] at h
      refine .lex (chain_of_clash h.1) fun hab hbc => chain_of_elementsClash ?_
      simpa [hab, hbc] using h.2
  | [], [], [], _ | [], [], _ :: _, _ | [], _ :: _, _ :: _, _ =>
      ⟨fun _ _ => rfl, fun _ _ _ _ => ⟨_, rfl⟩⟩
  | _ :: _, [], _, _ => ⟨nofun, nofun⟩
  | [], _ :: _, [], _ | _ :: _, _ :: _, [], _ => ⟨fun _ => nofun, fun _ => nofun⟩

end

mutual

theorem clash_of_hasNumber {kind : NumberKind} {a b c : Value} (ha : a.hasNumber kind = false)
    (hb : b.hasNumber kind = false) (hc : c.hasNumber kind = false) :
    clash false a b c = false := by
  cases a <;> cases b <;> cases c <;> try rfl
  case list.list.list as bs cs => exact elementsClash_of_anyHasNumber ha hb hc
  -- The kind that does not occur would occur.
  all_goals cases kind <;> simp [hasNumber, NumberKind.describes] at ha hb hc

theorem elementsClash_of_anyHasNumber {kind : NumberKind} : ∀ {as bs cs : List Value},
    anyHasNumber kind as = false → anyHasNumber kind bs = false → anyHasNumber kind cs = false →
      elementsClash false as bs cs = false
  | a :: as, b :: bs, c :: cs, ha, hb, hc => by
      simp only [anyHasNumber, Bool.or_eq_false_iff] at ha hb hc
      rw [elementsClash, clash_of_hasNumber ha.1 hb.1 hc.1,
        elementsClash_of_anyHasNumber ha.2 hb.2 hc.2, Bool.and_false, Bool.or_false]
  | [], _, _, _, _, _ | _ :: _, [], _, _, _, _ | _ :: _, _ :: _, [], _, _, _ => rfl

end

/-- Where one kind of numbers does not occur, comparisons are in a chain. -/
theorem chain_of_hasNumber {kind : NumberKind} {a b c : Value} (ha : a.hasNumber kind = false)
    (hb : b.hasNumber kind = false) (hc : c.hasNumber kind = false) :
    Chain (totalOrder a b) (totalOrder b c) (totalOrder a c) (Comparable a b) (Comparable b c)
      (Comparable a c) :=
  chain_of_clash (clash_of_hasNumber ha hb hc)

end Order

end Value

end RecordAlgebra
