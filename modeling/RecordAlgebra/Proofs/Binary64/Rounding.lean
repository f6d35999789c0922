import Mathlib
import RecordAlgebra.Value.Basic

/-!
# Integers as doubles

An integer becomes the double next to it, the one with the even significand if two are next
to it. With its exponent on top of its significand, the bits of a double say its place in
the order of numbers. So a larger integer never has a smaller place, but from `2 ^ 53` on
different integers may have the same one. No word is too large for a double.
-/

namespace RecordAlgebra.Binary64

open Float.Model Float.Model.UnpackedFloat

/-- The multiple of a power of two that is next to a number, the even one if there are two. -/
def nearest (n digits : Nat) : Nat :=
  let quotient := n / 2 ^ digits
  let rest := n % 2 ^ digits
  if 2 * rest < 2 ^ digits then quotient
  else if 2 * rest = 2 ^ digits then quotient + quotient % 2
  else quotient + 1

theorem nearest_zero (n : Nat) : nearest n 0 = n := by
  simp [nearest, Nat.mod_one]

theorem le_nearest (n digits : Nat) : n / 2 ^ digits ≤ nearest n digits := by
  unfold nearest
  dsimp only
  split
  · exact Nat.le_refl _
  · split <;> omega

theorem nearest_le (n digits : Nat) : nearest n digits ≤ n / 2 ^ digits + 1 := by
  unfold nearest
  dsimp only
  split
  · omega
  · split <;> omega

theorem nearest_mono {m n : Nat} (h : m ≤ n) (digits : Nat) :
    nearest m digits ≤ nearest n digits := by
  have hquotient := Nat.div_le_div_right (c := 2 ^ digits) h
  rcases Nat.lt_or_eq_of_le hquotient with hlt | heq
  · have h₁ := nearest_le m digits
    have h₂ := le_nearest n digits
    omega
  · have hm := Nat.div_add_mod m (2 ^ digits)
    have hn := Nat.div_add_mod n (2 ^ digits)
    rw [← heq] at hn
    have hrest : m % 2 ^ digits ≤ n % 2 ^ digits := by omega
    unfold nearest
    dsimp only
    rw [← heq]
    split <;> split <;> (try split) <;> (try split) <;> omega

/-- The mantissa has lost the last digits of a number, and its residual bits say how the rest
compares with a half. -/
structure Shifted (em : ExtendedMantissa) (n digits : Nat) : Prop where
  mantissa : em.mantissa = n / 2 ^ digits
  round : em.roundBit = decide (2 ^ digits ≤ 2 * (n % 2 ^ digits))
  sticky : em.stickyBit =
    decide (n % 2 ^ digits ≠ 0 ∧ 2 * (n % 2 ^ digits) ≠ 2 ^ digits)

theorem Shifted.step {em : ExtendedMantissa} {n digits : Nat} (h : Shifted em n digits) :
    Shifted em.shiftRightOne n (digits + 1) := by
  have hsplit : n % 2 ^ (digits + 1) = n % 2 ^ digits + 2 ^ digits * (n / 2 ^ digits % 2) := by
    rw [Nat.pow_succ, Nat.mod_mul]
  have hlt := Nat.mod_lt n (Nat.two_pow_pos digits)
  have hpow : 2 ^ (digits + 1) = 2 ^ digits + 2 ^ digits := by rw [Nat.pow_succ]; omega
  constructor
  · rw [ExtendedMantissa.shiftRightOne, h.mantissa, Nat.div_div_eq_div_mul, Nat.pow_succ]
  · rw [ExtendedMantissa.shiftRightOne, h.mantissa, hsplit, hpow]
    rcases Nat.mod_two_eq_zero_or_one (n / 2 ^ digits) with h0 | h1
    · simp [h0]; omega
    · simp [h1]; omega
  · rw [ExtendedMantissa.shiftRightOne, h.round, h.sticky, hsplit, hpow]
    rcases Nat.mod_two_eq_zero_or_one (n / 2 ^ digits) with h0 | h1
    · simp only [h0]
      rw [← Bool.decide_or, decide_eq_decide]
      omega
    · simp only [h1]
      rw [← Bool.decide_or, decide_eq_decide]
      omega

theorem shifted (n digits : Nat) :
    Shifted (ExtendedMantissa.ofMantissaAndAccuracy n .exact >>> digits) n digits := by
  induction digits with
  | zero =>
      constructor <;> simp [HShiftRight.hShiftRight, Nat.repeat,
        ExtendedMantissa.ofMantissaAndAccuracy, Nat.mod_one]
  | succ digits ih => exact ih.step

theorem Shifted.roundedMantissa {em : ExtendedMantissa} {n digits : Nat} (h : Shifted em n digits) :
    em.roundedMantissa = nearest n digits := by
  obtain ⟨mantissa, round, sticky⟩ := em
  obtain ⟨hmantissa, hround, hsticky⟩ := h
  simp only at hmantissa hround hsticky
  have hpos := Nat.two_pow_pos digits
  unfold nearest
  dsimp only
  rw [← hmantissa]
  cases round with
  | false =>
      have hlt : 2 * (n % 2 ^ digits) < 2 ^ digits := by simpa using hround
      rw [if_pos hlt]
      cases sticky <;> rfl
  | true =>
      have hle : 2 ^ digits ≤ 2 * (n % 2 ^ digits) := by simpa using hround
      rw [if_neg (Nat.not_lt.2 hle)]
      cases sticky with
      | false =>
          have hhalf : n % 2 ^ digits ≠ 0 → 2 * (n % 2 ^ digits) = 2 ^ digits := by
            simpa using hsticky
          rw [if_pos (hhalf (by omega))]
          rfl
      | true =>
          have hhalf : n % 2 ^ digits ≠ 0 ∧ 2 * (n % 2 ^ digits) ≠ 2 ^ digits := by
            simpa using hsticky
          rw [if_neg hhalf.2]
          rfl

theorem log2_eq {n k : Nat} (h : 2 ^ k ≤ n) (h' : n < 2 ^ (k + 1)) : n.log2 = k :=
  (Nat.log2_eq_iff (Nat.ne_of_gt (Nat.lt_of_lt_of_le (Nat.two_pow_pos k) h))).2 ⟨h, h'⟩

theorem targetExponent_binary64 {e : Int} (h : -1021 ≤ e) :
    Format.binary64.targetExponent e = e - 53 := by
  show max (e - 53) (3 - 1024 - 53) = e - 53
  omega

theorem shiftToTargetExponent_eq {n : Nat} {e : Int} (he : -1022 ≤ n.log2 + e) :
    shiftToTargetExponent .binary64 n e .exact =
      (ExtendedMantissa.ofMantissaAndAccuracy n .exact >>> (n.log2 - 52),
        e + ((n.log2 - 52 : Nat) : Int)) := by
  have hshift : (Format.binary64.targetExponent (totalExponent n e) - e).toNat = n.log2 - 52 := by
    rw [totalExponent, targetExponent_binary64 (by omega)]
    omega
  rw [shiftToTargetExponent, shiftToExponent, hshift]

theorem nearest_bounds {n : Nat} (hn : 2 ^ 52 ≤ n) :
    2 ^ 52 ≤ nearest n (n.log2 - 52) ∧ nearest n (n.log2 - 52) ≤ 2 ^ 53 := by
  have hne : n ≠ 0 := by omega
  have hlog : 52 ≤ n.log2 := (Nat.le_log2 hne).2 hn
  obtain ⟨k, hk⟩ := Nat.exists_eq_add_of_le hlog
  have hlow : 2 ^ (52 + k) ≤ n := hk ▸ Nat.log2_self_le hne
  have hhigh : n < 2 ^ (53 + k) := by
    have := Nat.lt_log2_self (n := n)
    rwa [hk, show 52 + k + 1 = 53 + k by omega] at this
  rw [hk, Nat.add_sub_cancel_left]
  have hquotient : 2 ^ 52 ≤ n / 2 ^ k := by
    rw [Nat.le_div_iff_mul_le (Nat.two_pow_pos k), ← Nat.pow_add]
    exact hlow
  have hquotient' : n / 2 ^ k < 2 ^ 53 := by
    rw [Nat.div_lt_iff_lt_mul (Nat.two_pow_pos k), ← Nat.pow_add]
    exact hhigh
  exact ⟨Nat.le_trans hquotient (le_nearest n k), Nat.le_trans (nearest_le n k) hquotient'⟩

/-- Rounding a number with at least 53 digits that is not too small for a double. -/
theorem roundWithAccuracy_eq (sign : Sign) {n : Nat} {e : Int} (hn : 2 ^ 52 ≤ n)
    (he : -1022 ≤ n.log2 + e) :
    ∃ (m : Nat) (e' : Int) (hm : 0 < m),
      roundWithAccuracy .binary64 sign n e .exact = .finite sign m e' hm ∧ 2 ^ 52 ≤ m ∧
        m < 2 ^ 53 ∧ (e' + 1075) * 2 ^ 52 + (m - 2 ^ 52) =
          (n.log2 + e + 1022) * 2 ^ 52 + nearest n (n.log2 - 52) := by
  obtain ⟨hlow, hhigh⟩ := nearest_bounds hn
  have hlog : 52 ≤ n.log2 := (Nat.le_log2 (by omega)).2 hn
  have hrounded := (shifted n (n.log2 - 52)).roundedMantissa
  have hround (m : Nat) (e' : Int) (hm : 0 < m)
      (hshift : (shiftToTargetExponent .binary64 (nearest n (n.log2 - 52))
        (e + ((n.log2 - 52 : Nat) : Int)) .exact).1.mantissa = m)
      (hexponent : (shiftToTargetExponent .binary64 (nearest n (n.log2 - 52))
        (e + ((n.log2 - 52 : Nat) : Int)) .exact).2 = e') :
      roundWithAccuracy .binary64 sign n e .exact = .finite sign m e' hm := by
    subst hshift hexponent
    rw [roundWithAccuracy, shiftToTargetExponent_eq he]
    simp only [hrounded]
    rw [dif_neg (Nat.ne_of_gt hm)]
  generalize nearest n (n.log2 - 52) = r at *
  rcases Nat.lt_or_eq_of_le hhigh with hlt | rfl
  · have hr : r.log2 = 52 := log2_eq hlow hlt
    rw [shiftToTargetExponent_eq (by omega), hr] at hround
    refine ⟨r, _, by omega, hround r _ (by omega) ?_ rfl, hlow, hlt, ?_⟩
    · exact (shifted r 0).mantissa.trans (Nat.div_one r)
    · omega
  · have hr : Nat.log2 (2 ^ 53) = 53 := log2_eq (Nat.le_refl _) (by omega)
    rw [shiftToTargetExponent_eq (by omega), hr] at hround
    refine ⟨2 ^ 52, _, by omega, hround (2 ^ 52) _ (by omega) ?_ rfl, by omega, by omega, ?_⟩
    · exact (shifted (2 ^ 53) 1).mantissa
    · omega

/-- The place value of a sign in the bits of a double. -/
def signPlace : Sign → Nat
  | .positive => 0
  | .negative => signUnit

theorem toNat_packComponents (sign : Sign) (e : BitVec 11) (m : BitVec 52) :
    (packComponents .binary64 sign e m).toNat =
      signPlace sign + e.toNat * exponentUnit + m.toNat := by
  have he := e.isLt
  have hm := m.isLt
  have h₁ : (sign.toBitVec ++ e).toNat = (sign.toBitVec.toNat) * 2 ^ 11 + e.toNat := by
    rw [BitVec.toNat_append, ← Nat.shiftLeft_add_eq_or_of_lt he, Nat.shiftLeft_eq]
  have h₂ : (packComponents .binary64 sign e m).toNat =
      (sign.toBitVec ++ e).toNat * 2 ^ 52 + m.toNat := by
    rw [packComponents, BitVec.toNat_append, ← Nat.shiftLeft_add_eq_or_of_lt hm, Nat.shiftLeft_eq]
  rw [h₂, h₁]
  cases sign <;> simp [Sign.toBitVec, signPlace, signUnit, exponentUnit]
  omega

theorem unpackSign_packComponents (sign : Sign) (e : BitVec 11) (m : BitVec 52) :
    unpackSign (packComponents .binary64 sign e m) = sign.toBitVec := by
  have hbound : e.toNat * exponentUnit + m.toNat < signUnit := by
    have he := e.isLt
    have hm := m.isLt
    simp only [exponentUnit, signUnit]
    omega
  apply BitVec.eq_of_toNat_eq
  rw [unpackSign, BitVec.toNat_cast, BitVec.extractLsb_toNat, toNat_packComponents]
  show (signPlace sign + e.toNat * exponentUnit + m.toNat) >>> 63 % 2 ^ 1 = sign.toBitVec.toNat
  rw [Nat.shiftRight_eq_div_pow]
  cases sign <;> simp only [signPlace, signUnit, Sign.toBitVec] at hbound ⊢ <;>
    simp <;> omega

theorem ofBitVec_toBitVec (sign : Sign) : Sign.ofBitVec sign.toBitVec = sign := by
  cases sign <;> rfl

section Normal

variable {sign : Sign} {m : Nat} {e : Int} (hm : 0 < m) (hlow : 2 ^ 52 ≤ m) (hhigh : m < 2 ^ 53)
  (he : -1075 < e) (he' : e < 972)

include hlow hhigh he he'

theorem pack_finite : UnpackedFloat.pack .binary64 (.finite sign m e hm) =
    packComponents .binary64 sign (BitVec.ofNat _ (e + 1075).toNat) (BitVec.ofNat _ m) := by
  have hlog : m.log2 = 52 := log2_eq hlow hhigh
  have hbias : (e + Format.binary64.exponentBias + (52 : Nat)).toNat = (e + 1075).toNat := by
    show (e + (1023 : Nat) + (52 : Nat)).toNat = _
    omega
  rw [UnpackedFloat.pack]
  simp only [hbias, hlog]
  rw [if_neg (by omega), if_pos (by decide)]

theorem unpack_pack_finite :
    UnpackedFloat.unpack .binary64 (UnpackedFloat.pack .binary64 (.finite sign m e hm)) =
      .finite sign m e hm := by
  have hexponent : (BitVec.ofNat 11 (e + 1075).toNat).toNat = (e + 1075).toNat := by
    rw [BitVec.toNat_ofNat, Nat.mod_eq_of_lt (by omega)]
  have hmantissa : (1#1 ++ BitVec.ofNat 52 m).toNat = m := by
    have hrest : (BitVec.ofNat 52 m).toNat = m - 2 ^ 52 := by
      rw [BitVec.toNat_ofNat]
      omega
    rw [BitVec.toNat_append, ← Nat.shiftLeft_add_eq_or_of_lt (BitVec.isLt _), hrest,
      BitVec.toNat_ofNat, Nat.shiftLeft_eq]
    omega
  rw [pack_finite hm hlow hhigh he he', UnpackedFloat.unpack]
  simp only [unpackMantissa_packComponents, unpackExponent_packComponents,
    unpackSign_packComponents, ofBitVec_toBitVec]
  rw [if_neg, if_neg]
  · rw [UnpackedFloat.finite.injEq]
    refine ⟨rfl, hmantissa, ?_⟩
    rw [hexponent]
    show ((e + 1075).toNat : Int) - ((1023 : Nat) + (52 : Nat)) = e
    omega
  · intro h
    have hzero := congrArg BitVec.toNat h
    rw [hexponent] at hzero
    simp at hzero
    omega
  · intro h
    have hlast := congrArg BitVec.toNat h
    rw [hexponent] at hlast
    simp at hlast
    omega

theorem toNat_pack_finite : (UnpackedFloat.pack .binary64 (.finite sign m e hm)).toNat =
    signPlace sign + (e + 1075).toNat * exponentUnit + (m - 2 ^ 52) := by
  rw [pack_finite hm hlow hhigh he he', toNat_packComponents]
  have h₁ : (BitVec.ofNat 11 (e + 1075).toNat).toNat = (e + 1075).toNat := by
    rw [BitVec.toNat_ofNat, Nat.mod_eq_of_lt (by omega)]
  have h₂ : (BitVec.ofNat 52 m).toNat = m - 2 ^ 52 := by
    rw [BitVec.toNat_ofNat]
    omega
  rw [h₁, h₂]

end Normal

theorem nearest_mul_two_pow (n digits : Nat) : nearest (n * 2 ^ digits) digits = n := by
  have hpos := Nat.two_pow_pos digits
  rw [nearest, Nat.mul_mod_left, Nat.mul_div_cancel n hpos, if_pos (by simp)]

/-- The significand of the double next to a positive integer, with 53 digits. If they carry
over it is the next power of two. -/
def significand (n : Nat) : Nat := nearest (n * 2 ^ 53) (n.log2 + 1)

theorem significand_of_log2_le {n : Nat} (h : n.log2 ≤ 52) :
    significand n = n * 2 ^ (52 - n.log2) := by
  have hsplit : n * 2 ^ 53 = n * 2 ^ (52 - n.log2) * 2 ^ (n.log2 + 1) := by
    rw [Nat.mul_assoc, ← Nat.pow_add]
    congr 2
    omega
  rw [significand, hsplit, nearest_mul_two_pow]

theorem log2_mul_two_pow {n : Nat} (hn : n ≠ 0) (k : Nat) : (n * 2 ^ k).log2 = n.log2 + k := by
  refine log2_eq ?_ ?_
  · rw [Nat.pow_add]
    exact Nat.mul_le_mul_right _ (Nat.log2_self_le hn)
  · rw [show n.log2 + k + 1 = n.log2 + 1 + k by omega, Nat.pow_add]
    exact Nat.mul_lt_mul_of_pos_right Nat.lt_log2_self (Nat.two_pow_pos k)

theorem significand_bounds {n : Nat} (hn : 0 < n) :
    2 ^ 52 ≤ significand n ∧ significand n ≤ 2 ^ 53 := by
  have hbounds := nearest_bounds (n := n * 2 ^ 53) (by omega)
  rwa [log2_mul_two_pow (by omega), show n.log2 + 53 - 52 = n.log2 + 1 by omega,
    ← significand] at hbounds

theorem unpack_one : (Float.exactlyRepresentablePowersOfTen[0]).toModel.unpack =
    .finite .positive (2 ^ 52) (-52) (by decide) := by
  have hbits : UnpackedFloat.unpack .binary64 (0x3FF0000000000000 : UInt64).toBitVec =
      .finite .positive (2 ^ 52) (-52) (by decide) := by
    rfl
  show UnpackedFloat.unpack .binary64 (UnpackedFloat.pack .binary64
    (UnpackedFloat.unpack .binary64 (0x3FF0000000000000 : UInt64).toBitVec)) = _
  rw [hbits]
  exact unpack_pack_finite _ (by omega) (by omega) (by omega) (by omega)

theorem ofNat_eq_round {n : Nat} (hn : 0 < n) :
    UnpackedFloat.ofNat .binary64 n = UnpackedFloat.round .binary64 .positive n 0 := by
  have hcompare : compare (n : Int) 0 = .gt := Int.compare_eq_gt.2 (by omega)
  rw [UnpackedFloat.ofNat, UnpackedFloat.ofInt, UnpackedFloat.normalize, hcompare, Int.toNat_natCast]

/-- An integer of at most 53 digits, filled up to 53 digits. -/
theorem filled_bounds {n : Nat} (hn : 0 < n) (hlog : n.log2 ≤ 52) :
    (n * 2 ^ (52 - n.log2)).log2 = 52 ∧ 2 ^ 52 ≤ n * 2 ^ (52 - n.log2) ∧
      n * 2 ^ (52 - n.log2) < 2 ^ 53 := by
  have hfilled : (n * 2 ^ (52 - n.log2)).log2 = 52 := by
    rw [log2_mul_two_pow (by omega)]
    omega
  have hpos : n * 2 ^ (52 - n.log2) ≠ 0 :=
    Nat.mul_ne_zero (by omega) (Nat.ne_of_gt (Nat.two_pow_pos _))
  exact ⟨hfilled, (Nat.log2_eq_iff hpos).1 hfilled⟩

/-- An integer below `2 ^ 53` is a double without rounding. -/
theorem round_of_log2_le {n : Nat} (hn : 0 < n) (hlog : n.log2 ≤ 52) :
    ∃ hm, UnpackedFloat.round .binary64 .positive n 0 =
      .finite .positive (n * 2 ^ (52 - n.log2)) (n.log2 - 52) hm := by
  obtain ⟨hfilled, hlow, hhigh⟩ := filled_bounds hn hlog
  have hshift : (0 - Format.binary64.targetExponent (totalExponent n 0)).toNat = 52 - n.log2 := by
    rw [totalExponent, targetExponent_binary64 (by omega)]
    omega
  obtain ⟨m, e, hm, hround, hm₁, hm₂, hsum⟩ :=
    roundWithAccuracy_eq .positive (e := 0 - ((52 - n.log2 : Nat) : Int)) hlow (by omega)
  rw [hfilled, Nat.sub_self, nearest_zero] at hsum
  obtain rfl : m = n * 2 ^ (52 - n.log2) := by omega
  obtain rfl : e = n.log2 - 52 := by omega
  refine ⟨hm, ?_⟩
  rw [UnpackedFloat.round]
  simp only [decreaseExponent, hshift, Nat.shiftLeft_eq]
  exact hround

theorem unpack_ofUInt64 {n : Nat} (hn : 0 < n) (hmax : n < 2 ^ 53) :
    ∃ hm, (Float.Model.ofUInt64 n.toUInt64).unpack =
      .finite .positive (n * 2 ^ (52 - n.log2)) (n.log2 - 52) hm := by
  have hlog : n.log2 < 53 := (Nat.log2_lt (by omega)).2 hmax
  obtain ⟨-, hlow, hhigh⟩ := filled_bounds hn (by omega)
  have hn' : n.toUInt64.toNat = n := by
    rw [Nat.toUInt64, UInt64.toNat_ofNat']
    omega
  obtain ⟨hm, hround⟩ := round_of_log2_le hn (by omega)
  refine ⟨hm, ?_⟩
  show UnpackedFloat.unpack .binary64 (UnpackedFloat.pack .binary64
    (UnpackedFloat.ofNat .binary64 n.toUInt64.toNat)) = _
  rw [hn', ofNat_eq_round hn, hround]
  exact unpack_pack_finite hm hlow hhigh (by omega) (by omega)

/-- A positive integer that is not too large is the double with its significand. -/
theorem ofNat_eq {n : Nat} (hn : 0 < n) (hmax : n ≤ 2 ^ 63) :
    ∃ (m : Nat) (e : Int) (hm : 0 < m),
      Float.ofNat n = .ofModel (.pack (.finite .positive m e hm)) ∧ 2 ^ 52 ≤ m ∧ m < 2 ^ 53 ∧
        -1075 < e ∧ e < 972 ∧
        (e + 1075) * 2 ^ 52 + (m - 2 ^ 52) = (n.log2 + 1022) * 2 ^ 52 + significand n := by
  have hlog : n.log2 < 64 := (Nat.log2_lt (by omega)).2 (by omega)
  obtain ⟨hsignificand, hsignificand'⟩ := significand_bounds hn
  -- Small integers are multiplied by one, and large ones go through a scientific notation.
  by_cases hsmall : n < 2 ^ 53
  · have hlog : n.log2 < 53 := (Nat.log2_lt (by omega)).2 hsmall
    obtain ⟨hfilled, hlow, hhigh⟩ := filled_bounds hn (by omega)
    obtain ⟨hpos, hunpack⟩ := unpack_ofUInt64 hn hsmall
    have hscaled : (n * 2 ^ (52 - n.log2) * 2 ^ 52).log2 = 104 := by
      rw [log2_mul_two_pow (by omega), hfilled]
    obtain ⟨m, e, hm, hround, hm₁, hm₂, hsum⟩ :=
      roundWithAccuracy_eq .positive (n := n * 2 ^ (52 - n.log2) * 2 ^ 52)
        (e := (n.log2 - 52 : Int) + -52) (by omega) (by omega)
    rw [hscaled, nearest_mul_two_pow, ← significand_of_log2_le (by omega)] at hsum
    refine ⟨m, e, hm, ?_, hm₁, hm₂, by omega, by omega, by omega⟩
    have hfast : Float.ofNat n = .ofModel (.pack (.mul .binary64
        (Float.Model.ofUInt64 n.toUInt64).unpack
        (Float.exactlyRepresentablePowersOfTen[0]).toModel.unpack)) := by
      simp only [Float.ofNat, OfScientific.ofScientific, Float.ofScientific]
      rw [dif_pos ⟨hsmall, by decide⟩]
      rfl
    rw [hfast, hunpack, unpack_one, UnpackedFloat.mul]
    exact congrArg (fun f => Float.ofModel (.pack f)) hround
  · have hscaled : (n <<< 53).log2 = n.log2 + 53 := by
      rw [Nat.shiftLeft_eq, log2_mul_two_pow (by omega)]
    obtain ⟨m, e, hm, hround, hm₁, hm₂, hsum⟩ :=
      roundWithAccuracy_eq .positive (n := n <<< 53) (e := -53) (by omega) (by omega)
    rw [hscaled, show n.log2 + 53 - 52 = n.log2 + 1 by omega, Nat.shiftLeft_eq,
      ← significand] at hsum
    refine ⟨m, e, hm, ?_, hm₁, hm₂, by omega, by omega, by omega⟩
    have hslow : Float.ofNat n = .ofModel (.pack (.ofScientific .binary64 n 0)) := by
      simp only [Float.ofNat, OfScientific.ofScientific, Float.ofScientific]
      rw [dif_neg (by omega)]
      rfl
    have hrange : ¬((0 : Int) < -(2 ^ Format.binary64.exponentBits + (n.log2 : Int))) := by
      show ¬((0 : Int) < -(2048 + (n.log2 : Int)))
      omega
    rw [hslow, UnpackedFloat.ofScientific, dif_neg (by omega), if_neg (by decide),
      if_neg hrange, if_pos (by decide), UnpackedFloat.mul]
    simp only [Int.toNat_zero, Nat.pow_zero, Nat.mul_one, Int.add_zero]
    exact congrArg (fun f => Float.ofModel (.pack f)) hround

section Packed

variable {sign : Sign} {m : Nat} {e : Int} (hm : 0 < m) (hlow : 2 ^ 52 ≤ m) (hhigh : m < 2 ^ 53)
  (he : -1075 < e) (he' : e < 972)

include hlow hhigh he he'

theorem orderKey_pack : orderKey (.ofModel (.pack (.finite sign m e hm))) =
    sign.apply ((e + 1075) * 2 ^ 52 + (m - 2 ^ 52)) := by
  generalize hx : Float.ofModel (.pack (.finite sign m e hm)) = x
  obtain ⟨k, hk⟩ := Int.eq_ofNat_of_zero_le (show 0 ≤ e + 1075 by omega)
  have hbits : x.toBits.toNat = signPlace sign + k * exponentUnit + (m - 2 ^ 52) := by
    rw [← hx]
    refine (toNat_pack_finite hm hlow hhigh he he').trans ?_
    rw [hk]
    rfl
  have hmagnitude : magnitude x = k * exponentUnit + (m - 2 ^ 52) := by
    rw [magnitude, hbits]
    cases sign <;> simp only [signPlace, signUnit, exponentUnit] <;> omega
  have hdefined : isUndefined x = false := by
    rw [isUndefined, hmagnitude, exponentUnit]
    exact decide_eq_false (by omega)
  have hsign : signBit x = (sign == .negative) := by
    rw [signBit, hbits]
    cases sign with
    | positive =>
        have hzero :
            (signPlace .positive + k * exponentUnit + (m - 2 ^ 52)) / signUnit % 2 = 0 := by
          simp only [signPlace, signUnit, exponentUnit]
          omega
        rw [hzero]
        rfl
    | negative =>
        have hone :
            (signPlace .negative + k * exponentUnit + (m - 2 ^ 52)) / signUnit % 2 = 1 := by
          simp only [signPlace, signUnit, exponentUnit]
          omega
        rw [hone]
        rfl
  have hvalue : ((k * exponentUnit + (m - 2 ^ 52) : Nat) : Int) =
      (e + 1075) * 2 ^ 52 + (m - 2 ^ 52) := by
    rw [hk, exponentUnit]
    omega
  rw [orderKey, hdefined, hsign, hmagnitude, hvalue]
  cases sign <;> rfl

end Packed

/-- The place of a natural number among the doubles. -/
def place (n : Nat) : Int :=
  if n = 0 then 0 else (n.log2 + 1022) * 2 ^ 52 + significand n

theorem place_nonneg (n : Nat) : 0 ≤ place n := by
  rw [place]
  split <;> omega

theorem place_mono {m n : Nat} (h : m ≤ n) : place m ≤ place n := by
  rcases Nat.eq_zero_or_pos m with rfl | hm
  · exact place_nonneg n
  have hlog : m.log2 ≤ n.log2 := by
    exact (Nat.le_log2 (by omega)).2 (Nat.le_trans (Nat.log2_self_le (by omega)) h)
  have hbounds := significand_bounds hm
  have hbounds' := significand_bounds (n := n) (by omega)
  rw [place, place, if_neg (by omega), if_neg (by omega)]
  rcases Nat.lt_or_eq_of_le hlog with hlt | heq
  · omega
  · have hle : significand m ≤ significand n := by
      rw [significand, significand, heq]
      exact nearest_mono (Nat.mul_le_mul_right _ h) _
    omega

theorem place_lt {n : Nat} (hmax : n ≤ 2 ^ 63) : place n < 2047 * 2 ^ 52 := by
  rw [place]
  split
  · omega
  · have hlog : n.log2 < 64 := (Nat.log2_lt (by omega)).2 (by omega)
    have hbounds := significand_bounds (n := n) (by omega)
    omega

theorem orderKey_ofNat {n : Nat} (hmax : n ≤ 2 ^ 63) : orderKey (.ofNat n) = place n := by
  rcases Nat.eq_zero_or_pos n with rfl | hn
  · rfl
  · obtain ⟨m, e, hm, hx, hlow, hhigh, he, he', hsum⟩ := ofNat_eq hn hmax
    rw [hx, orderKey_pack hm hlow hhigh he he', place, if_neg (by omega), ← hsum]
    rfl

theorem orderKey_neg_ofNat {n : Nat} (hn : 0 < n) (hmax : n ≤ 2 ^ 63) :
    orderKey (.neg (.ofNat n)) = -place n := by
  obtain ⟨m, e, hm, hx, hlow, hhigh, he, he', hsum⟩ := ofNat_eq hn hmax
  have hneg : Float.neg (.ofNat n) = .ofModel (.pack (.finite .negative m e hm)) := by
    rw [hx]
    exact congrArg (fun f => Float.ofModel (.pack (UnpackedFloat.neg f)))
      (unpack_pack_finite hm hlow hhigh he he')
  rw [hneg, orderKey_pack hm hlow hhigh he he', place, if_neg (by omega), ← hsum]
  rfl

/-- The place of an integer among the doubles. -/
theorem orderKey_toFloat (n : Int64) : orderKey (Value.toFloat n) =
    if 0 ≤ n.toInt then place n.toInt.natAbs else -place n.toInt.natAbs := by
  have hlow := n.le_toInt
  have hhigh := n.toInt_lt
  rw [Value.toFloat]
  split
  next hnonneg =>
    obtain ⟨k, hk⟩ := Int.eq_ofNat_of_zero_le hnonneg
    rw [hk]
    exact orderKey_ofNat (by omega)
  next hneg =>
    obtain ⟨k, hk⟩ := Int.eq_negSucc_of_lt_zero (Int.not_le.1 hneg)
    rw [hk]
    exact orderKey_neg_ofNat (Nat.succ_pos k) (by omega)

/-- Larger integers have no smaller place among the doubles. -/
theorem orderKey_toFloat_mono {a b : Int64} (h : a.toInt ≤ b.toInt) :
    orderKey (Value.toFloat a) ≤ orderKey (Value.toFloat b) := by
  rw [orderKey_toFloat, orderKey_toFloat]
  split <;> split
  · exact place_mono (by omega)
  · omega
  · have h₁ := place_nonneg a.toInt.natAbs
    have h₂ := place_nonneg b.toInt.natAbs
    omega
  · exact Int.neg_le_neg (place_mono (by omega))

theorem isFinite_iff_orderKey (x : Float) :
    isFinite x = true ↔ (orderKey x).natAbs < 2047 * exponentUnit := by
  rw [orderKey, isFinite, isUndefined, decide_eq_true_eq]
  split
  next hundefined =>
    rw [decide_eq_true_eq] at hundefined
    simp only [signUnit, exponentUnit] at hundefined ⊢
    omega
  next =>
    split <;> simp

/-- No integer is too large for a double. -/
theorem isFinite_toFloat (n : Int64) : isFinite (Value.toFloat n) = true := by
  have hlow := n.le_toInt
  have hhigh := n.toInt_lt
  have hplace := place_lt (n := n.toInt.natAbs) (by omega)
  have hnonneg := place_nonneg n.toInt.natAbs
  rw [isFinite_iff_orderKey, orderKey_toFloat, exponentUnit]
  split <;> omega

end RecordAlgebra.Binary64
