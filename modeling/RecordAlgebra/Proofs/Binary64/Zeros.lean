import Mathlib
import RecordAlgebra.Value.Basic

/-!
# The two zeros

Doubles with the same place in the order are the same, or both are zero. Arithmetic does not
tell the zeros apart, except for division by them: its results have the same place in the order
again.
-/

namespace RecordAlgebra.Binary64

open Float.Model Float.Model.UnpackedFloat

/-- Unpacked doubles that are the same or both zero. -/
def SameOrZeros (u v : UnpackedFloat) : Prop :=
  u = v ∨ ∃ s t, u = .zero s ∧ v = .zero t

theorem toBits_inj {x y : Float} (h : x.toBits = y.toBits) : x = y := by
  obtain ⟨⟨bits, valid⟩⟩ := x
  obtain ⟨⟨bits', valid'⟩⟩ := y
  obtain rfl : bits = bits' := h
  rfl

theorem signBit_eq (x : Float) : signBit x = decide (signUnit ≤ x.toBits.toNat) := by
  have := x.toBits.toNat_lt
  rw [signBit, Bool.eq_iff_iff, decide_eq_true_iff, beq_iff_eq, signUnit]
  omega

theorem toBits_eq (x : Float) :
    x.toBits.toNat = (if signBit x then signUnit else 0) + magnitude x := by
  have := x.toBits.toNat_lt
  rw [signBit_eq, magnitude, signUnit]
  by_cases hsign : 0x8000000000000000 ≤ x.toBits.toNat
  · rw [if_pos (decide_eq_true hsign)]
    omega
  · rw [if_neg (by simpa using hsign)]
    omega

/-- There is only one undefined double. -/
theorem eq_of_isUndefined {x y : Float} (hx : isUndefined x = true) (hy : isUndefined y = true) :
    x = y := by
  have canonical {x : Float} (hx : isUndefined x = true) :
      x.toBits.toBitVec = packedNaN Format.binary64 := by
    have hlt := x.toBits.toNat_lt
    rw [isUndefined, decide_eq_true_iff, magnitude, exponentUnit, signUnit] at hx
    refine x.toModel.valid.eq_packedNaN ?_ ?_
    · refine BitVec.eq_of_toNat_eq ?_
      rw [unpackExponent, BitVec.toNat_cast, BitVec.extractLsb_toNat]
      show x.toBits.toNat >>> 52 % 2 ^ 11 = 2047
      rw [Nat.shiftRight_eq_div_pow]
      omega
    · intro hmantissa
      have hzero := congrArg BitVec.toNat hmantissa
      rw [unpackMantissa, BitVec.toNat_cast, BitVec.extractLsb_toNat] at hzero
      have hzero' : x.toBits.toNat >>> 0 % 2 ^ 52 = 0 := hzero
      rw [Nat.shiftRight_zero] at hzero'
      omega
  refine toBits_inj (UInt64.toBitVec_inj.1 ?_)
  rw [canonical hx, canonical hy]

theorem eq_or_isZero {x y : Float} (h : orderKey x = orderKey y) :
    x = y ∨ isZero x = true ∧ isZero y = true := by
  have bounded {x : Float} (hx : ¬isUndefined x = true) : magnitude x < signUnit :=
    Nat.mod_lt _ (by decide)
  rw [orderKey, orderKey] at h
  by_cases hx : isUndefined x = true <;> by_cases hy : isUndefined y = true
  · exact .inl (eq_of_isUndefined hx hy)
  · have := bounded hy
    rw [if_pos hx, if_neg hy] at h
    split at h <;> omega
  · have := bounded hx
    rw [if_neg hx, if_pos hy] at h
    split at h <;> omega
  · rw [if_neg hx, if_neg hy] at h
    rw [isZero, isZero, beq_iff_eq, beq_iff_eq]
    by_cases hsign : signBit x = signBit y
    · refine .inl (toBits_inj (UInt64.toNat_inj.1 ?_))
      have hmagnitude : magnitude x = magnitude y := by
        rw [hsign] at h
        split at h <;> omega
      rw [toBits_eq, toBits_eq, hsign, hmagnitude]
    · refine .inr ?_
      cases hsx : signBit x <;> cases hsy : signBit y <;> simp_all

/-- The zero of this sign. -/
def zeroOf (s : Sign) : Float := .ofModel (.pack (.zero s))

theorem eq_zeroOf {x : Float} (h : isZero x = true) : ∃ s, x = zeroOf s := by
  have hbits := toBits_eq x
  rw [isZero, beq_iff_eq] at h
  rw [h] at hbits
  cases hsign : signBit x with
  | true =>
      refine ⟨.negative, toBits_inj (UInt64.toNat_inj.1 ?_)⟩
      rw [hbits, hsign]
      rfl
  | false =>
      refine ⟨.positive, toBits_inj (UInt64.toNat_inj.1 ?_)⟩
      rw [hbits, hsign]
      rfl

theorem unpack_zeroOf (s : Sign) : (zeroOf s).toModel.unpack = .zero s := by
  cases s <;> rfl

theorem orderKey_zeroOf (s : Sign) : orderKey (zeroOf s) = 0 := by
  cases s <;> rfl

theorem unpack_of_orderKey {x y : Float} (h : orderKey x = orderKey y) :
    SameOrZeros x.toModel.unpack y.toModel.unpack := by
  rcases eq_or_isZero h with rfl | ⟨hx, hy⟩
  · exact .inl rfl
  · obtain ⟨s, rfl⟩ := eq_zeroOf hx
    obtain ⟨t, rfl⟩ := eq_zeroOf hy
    exact .inr ⟨s, t, unpack_zeroOf s, unpack_zeroOf t⟩

theorem orderKey_of_sameOrZeros {u v : UnpackedFloat} (h : SameOrZeros u v) :
    orderKey (.ofModel (.pack u)) = orderKey (.ofModel (.pack v)) := by
  rcases h with rfl | ⟨s, t, rfl, rfl⟩
  · rfl
  · exact (orderKey_zeroOf s).trans (orderKey_zeroOf t).symm

section Operations

theorem SameOrZeros.trans {u v w : UnpackedFloat} (h : SameOrZeros u v) (h' : SameOrZeros v w) :
    SameOrZeros u w := by
  rcases h with rfl | ⟨s, t, rfl, rfl⟩
  · exact h'
  · rcases h' with rfl | ⟨_, r, -, rfl⟩
    · exact .inr ⟨s, t, rfl, rfl⟩
    · exact .inr ⟨s, r, rfl, rfl⟩

/-- An operation that does not tell zeros apart on either side. -/
theorem SameOrZeros.congr {op : UnpackedFloat → UnpackedFloat → UnpackedFloat}
    (left : ∀ s s' v, SameOrZeros (op (.zero s) v) (op (.zero s') v))
    (right : ∀ u t t', SameOrZeros (op u (.zero t)) (op u (.zero t'))) {u u' v v' : UnpackedFloat}
    (hu : SameOrZeros u u') (hv : SameOrZeros v v') : SameOrZeros (op u v) (op u' v') := by
  have hfirst : SameOrZeros (op u v) (op u' v) := by
    rcases hu with rfl | ⟨s, s', rfl, rfl⟩
    · exact .inl rfl
    · exact left s s' v
  refine hfirst.trans ?_
  rcases hv with rfl | ⟨t, t', rfl, rfl⟩
  · exact .inl rfl
  · exact right u' t t'

theorem add_zero_left (s s' : Sign) (v : UnpackedFloat) :
    SameOrZeros (add .binary64 (.zero s) v) (add .binary64 (.zero s') v) := by
  cases v with
  | zero t => cases s <;> cases s' <;> cases t <;> exact .inr ⟨_, _, rfl, rfl⟩
  | _ => exact .inl rfl

theorem add_zero_right (u : UnpackedFloat) (t t' : Sign) :
    SameOrZeros (add .binary64 u (.zero t)) (add .binary64 u (.zero t')) := by
  cases u with
  | zero s => cases s <;> cases t <;> cases t' <;> exact .inr ⟨_, _, rfl, rfl⟩
  | _ => exact .inl rfl

theorem sub_zero_left (s s' : Sign) (v : UnpackedFloat) :
    SameOrZeros (sub .binary64 (.zero s) v) (sub .binary64 (.zero s') v) := by
  cases v with
  | zero t => cases s <;> cases s' <;> cases t <;> exact .inr ⟨_, _, rfl, rfl⟩
  | _ => exact .inl rfl

theorem sub_zero_right (u : UnpackedFloat) (t t' : Sign) :
    SameOrZeros (sub .binary64 u (.zero t)) (sub .binary64 u (.zero t')) := by
  cases u with
  | zero s => cases s <;> cases t <;> cases t' <;> exact .inr ⟨_, _, rfl, rfl⟩
  | _ => exact .inl rfl

theorem mul_zero_left (s s' : Sign) (v : UnpackedFloat) :
    SameOrZeros (mul .binary64 (.zero s) v) (mul .binary64 (.zero s') v) := by
  cases v with
  | zero | finite => exact .inr ⟨_, _, rfl, rfl⟩
  | _ => exact .inl rfl

theorem mul_zero_right (u : UnpackedFloat) (t t' : Sign) :
    SameOrZeros (mul .binary64 u (.zero t)) (mul .binary64 u (.zero t')) := by
  cases u with
  | zero | finite => exact .inr ⟨_, _, rfl, rfl⟩
  | _ => exact .inl rfl

theorem div_zero_left (s s' : Sign) (v : UnpackedFloat) :
    SameOrZeros (div .binary64 (.zero s) v) (div .binary64 (.zero s') v) := by
  cases v with
  | finite | infinity => exact .inr ⟨_, _, rfl, rfl⟩
  | _ => exact .inl rfl

end Operations

section Places

variable {x x' y y' : Float} (hx : orderKey x = orderKey x') (hy : orderKey y = orderKey y')

include hx

theorem orderKey_neg : orderKey (-x) = orderKey (-x') := by
  refine orderKey_of_sameOrZeros (?_ : SameOrZeros x.toModel.unpack.neg x'.toModel.unpack.neg)
  rcases unpack_of_orderKey hx with h | ⟨s, t, hs, ht⟩
  · exact .inl (congrArg _ h)
  · exact .inr ⟨-s, -t, by rw [hs, UnpackedFloat.neg], by rw [ht, UnpackedFloat.neg]⟩

/-- The divisor has to be the same: a quotient by zero has the sign of the zero. -/
theorem orderKey_div (y : Float) : orderKey (x / y) = orderKey (x' / y) := by
  refine orderKey_of_sameOrZeros
    (?_ : SameOrZeros (div .binary64 x.toModel.unpack y.toModel.unpack) _)
  rcases unpack_of_orderKey hx with h | ⟨s, t, hs, ht⟩
  · exact .inl (congrArg (div .binary64 · _) h)
  · have h := div_zero_left s t y.toModel.unpack
    rwa [← hs, ← ht] at h

theorem orderKey_remainder (y : Float) : orderKey (remainder x y) = orderKey (remainder x' y) := by
  rcases eq_or_isZero hx with rfl | ⟨hzero, hzero'⟩
  · rfl
  · obtain ⟨s, rfl⟩ := eq_zeroOf hzero
    obtain ⟨t, rfl⟩ := eq_zeroOf hzero'
    have hparts (s : Sign) : ∃ negative, parts (zeroOf s) = .finite negative 0 (-1074) := by
      cases s <;> exact ⟨_, rfl⟩
    have hnothing (negative : Bool) (e : Int) : orderKey (ofParts negative 0 e) = 0 := by
      rw [ofParts]
      simp only [if_true]
      cases negative <;> rfl
    obtain ⟨_, hs⟩ := hparts s
    obtain ⟨_, ht⟩ := hparts t
    rw [remainder, remainder, hs, ht]
    cases parts y with
    | undefined => rfl
    | infinite negative => exact hx
    | finite negative n q =>
        dsimp only
        split
        · rfl
        · rw [Nat.zero_shiftLeft, Nat.zero_mod, hnothing, hnothing]

include hy

theorem orderKey_add : orderKey (x + y) = orderKey (x' + y') :=
  orderKey_of_sameOrZeros <|
    .congr add_zero_left add_zero_right (unpack_of_orderKey hx) (unpack_of_orderKey hy)

theorem orderKey_sub : orderKey (x - y) = orderKey (x' - y') :=
  orderKey_of_sameOrZeros <|
    .congr sub_zero_left sub_zero_right (unpack_of_orderKey hx) (unpack_of_orderKey hy)

theorem orderKey_mul : orderKey (x * y) = orderKey (x' * y') :=
  orderKey_of_sameOrZeros <|
    .congr mul_zero_left mul_zero_right (unpack_of_orderKey hx) (unpack_of_orderKey hy)

end Places

/-- The double without the sign of a zero. -/
def oneZero (x : Float) : Float := if isZero x then zeroOf .positive else x

theorem orderKey_of_isZero {x : Float} (h : isZero x = true) : orderKey x = 0 := by
  obtain ⟨s, rfl⟩ := eq_zeroOf h
  exact orderKey_zeroOf s

@[simp] theorem orderKey_oneZero (x : Float) : orderKey (oneZero x) = orderKey x := by
  rw [oneZero]
  split
  · next h => rw [orderKey_of_isZero h, orderKey_zeroOf]
  · rfl

@[simp] theorem isZero_oneZero (x : Float) : isZero (oneZero x) = isZero x := by
  rw [oneZero]
  split
  · next h =>
      rw [h]
      rfl
  · rfl

theorem oneZero_of_not_isZero {x : Float} (h : isZero x = false) : oneZero x = x := by
  rw [oneZero, h]
  rfl

/-- Doubles have the same place in the order exactly if they are the same but for the sign of a
zero. -/
theorem oneZero_eq_iff {x y : Float} : oneZero x = oneZero y ↔ orderKey x = orderKey y := by
  constructor
  · intro h
    rw [← orderKey_oneZero x, h, orderKey_oneZero]
  · intro h
    rcases eq_or_isZero h with rfl | ⟨hx, hy⟩
    · rfl
    · rw [oneZero, oneZero, if_pos hx, if_pos hy]

@[simp] theorem oneZero_oneZero (x : Float) : oneZero (oneZero x) = oneZero x :=
  oneZero_eq_iff.2 (orderKey_oneZero x)

end RecordAlgebra.Binary64
