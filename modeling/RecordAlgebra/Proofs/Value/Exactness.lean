import RecordAlgebra.Proofs.Value.Failing

/-!
# Exact arithmetic

Integers are combined to the exact result, or the operation fails because the result
is no word. Otherwise it can be told from the kinds of the operands whether and how an
operation fails. There are two exceptions, both of the remainder: the one whose quotient
is no word is taken to fail too, and a zero divisor is found before the kinds of the
operands are looked at.
-/

namespace RecordAlgebra

/-- The integer is in the range of words. -/
def FitsWord (n : Int) : Prop := Int64.minValue.toInt ≤ n ∧ n ≤ Int64.maxValue.toInt

instance (n : Int) : Decidable (FitsWord n) := inferInstanceAs (Decidable (_ ∧ _))

section Words

variable {n : Int} {x y : Int64}

theorem fitsWord_toInt (x : Int64) : FitsWord x.toInt :=
  ⟨by simpa using x.minValue_le_toInt, by simpa using x.toInt_le⟩

theorem exists_wordOfInt? (h : FitsWord n) : ∃ w, wordOfInt? n = some w ∧ w.toInt = n := by
  have hword : wordOfInt? n = some (Int64.ofInt n) := if_pos h
  exact ⟨_, hword, toInt_of_wordOfInt? hword⟩

theorem wordOfInt?_eq_none (h : ¬FitsWord n) : wordOfInt? n = none := if_neg h

/-- A remainder is no greater than the divisor, so it is always a word. -/
theorem fitsWord_tmod (x : Int64) (hy : y ≠ 0) : FitsWord (x.toInt.tmod y.toInt) := by
  have hdivisor := fitsWord_toInt y
  have hdividend := fitsWord_toInt x
  have hne : y.toInt ≠ 0 := fun h => hy (Int64.toInt.inj h)
  have hbound : (x.toInt.tmod y.toInt).natAbs < y.toInt.natAbs := by
    rw [Int.natAbs_tmod]
    exact Nat.mod_lt _ (by omega)
  have hless : (x.toInt.tmod y.toInt).natAbs ≤ x.toInt.natAbs := by
    rw [Int.natAbs_tmod]
    exact Nat.mod_le _ _
  simp only [FitsWord, Int64.toInt_minValue, Int64.toInt_maxValue] at *
  omega

/-- The only quotient of words that is no word is that of the least word by minus one. -/
theorem fitsWord_tdiv_iff (hy : y ≠ 0) :
    FitsWord (x.toInt.tdiv y.toInt) ↔ ¬(x = Int64.minValue ∧ y = -1) := by
  constructor
  · rintro hfits ⟨rfl, rfl⟩
    exact absurd hfits (by decide)
  · intro hquotient
    have hdividend := fitsWord_toInt x
    have hne : y.toInt ≠ 0 := fun h => hy (Int64.toInt.inj h)
    have habs : (x.toInt.tdiv y.toInt).natAbs = x.toInt.natAbs / y.toInt.natAbs :=
      Int.natAbs_tdiv _ _
    simp only [FitsWord, Int64.toInt_minValue, Int64.toInt_maxValue] at *
    by_cases hone : y.toInt.natAbs = 1
    · rcases (by omega : y.toInt = 1 ∨ y.toInt = -1) with h | h
      · rw [h, Int.tdiv_one]
        exact hdividend
      · have hleast : x.toInt ≠ -2 ^ 63 := fun hx =>
          hquotient ⟨Int64.toInt.inj hx, Int64.toInt.inj h⟩
        rw [h, Int.tdiv_neg, Int.tdiv_one]
        omega
    · have hhalf : x.toInt.natAbs / y.toInt.natAbs ≤ x.toInt.natAbs / 2 :=
        Nat.div_le_div_left (by omega) (by decide)
      omega

end Words

namespace ArithmeticOp

/-- The operation on integers, if it gives an integer. -/
def onIntegers? : ArithmeticOp → Option (Int → Int → Int)
  | .add => some (· + ·)
  | .subtract => some (· - ·)
  | .multiply => some (· * ·)
  | .divide => none
  | .remainder => some Int.tmod

/-- Whether these words are the ones whose remainder is a word although their quotient is none. -/
def Overflows (op : ArithmeticOp) (x y : Int64) : Prop :=
  op = .remainder ∧ x = Int64.minValue ∧ y = -1

end ArithmeticOp

namespace Value

/-- The operation fails with an error of this kind. -/
def FailsWith (kind : ErrorKind) (r : Except Error Value) : Prop :=
  ∃ e, r = .error e ∧ e.kind = kind

/-- The operation gives this integer. -/
def GivesInteger (n : Int) (r : Except Error Value) : Prop :=
  ∃ w : Int64, r = .ok (.int w) ∧ w.toInt = n

/-- Values that the operation can combine: numbers, and what is joined by adding. -/
inductive Combine : ArithmeticOp → Value → Value → Prop
  | numbers {op : ArithmeticOp} {a b : Value} (ha : a.isNumber = true) (hb : b.isNumber = true) :
      Combine op a b
  | texts (s t : String) : Combine .add (.text s) (.text t)
  | lists (as bs : List Value) : Combine .add (.list as) (.list bs)

variable (view : ItemRef → String)

section Null

theorem numeric_null {op : ArithmeticOp} {onInts : Int64 → Int64 → Option Int64}
    {onFloats : Float → Float → Float} {a b : Value} (h : a = .null ∨ b = .null) :
    numeric view op onInts onFloats a b = .ok .null := by
  rcases h with rfl | rfl
  · rfl
  · cases a <;> rfl

theorem apply_null (op : ArithmeticOp) {a b : Value} (h : a = .null ∨ b = .null) :
    apply view op a b = .ok .null := by
  have hnull : (a.isNull || b.isNull) = true := by
    rcases h with rfl | rfl
    · rfl
    · simp [isNull]
  cases op with
  | add =>
      have hadd : add view a b = numeric view .add (exactly (· + ·)) (· + ·) a b := by
        rcases h with rfl | rfl
        · rfl
        · cases a <;> rfl
      exact hadd.trans (numeric_null view h)
  | subtract => exact numeric_null view h
  | multiply => exact numeric_null view h
  | divide => exact if_pos hnull
  | remainder => exact if_pos hnull

end Null

section Integers

variable {onInts : Int64 → Int64 → Option Int64} {onFloats : Float → Float → Float} {n : Int}
  {x y : Int64}

theorem numeric_gives (op : ArithmeticOp) {w : Int64} (h : onInts x y = some w)
    (hw : w.toInt = n) : GivesInteger n (numeric view op onInts onFloats (.int x) (.int y)) :=
  ⟨w, by simp only [numeric, h], hw⟩

theorem numeric_overflows (op : ArithmeticOp) (h : onInts x y = none) :
    FailsWith .arithmetic (numeric view op onInts onFloats (.int x) (.int y)) := by
  simp only [numeric, h]
  exact ⟨_, rfl, rfl⟩

/-- An operation on integers that fails only if the result is no word. -/
theorem numeric_exactly (op : ArithmeticOp) (f : Int → Int → Int)
    (onFloats : Float → Float → Float) :
    (FitsWord (f x.toInt y.toInt) → GivesInteger (f x.toInt y.toInt)
        (numeric view op (exactly f) onFloats (.int x) (.int y))) ∧
      (¬FitsWord (f x.toInt y.toInt) → FailsWith .arithmetic
        (numeric view op (exactly f) onFloats (.int x) (.int y))) := by
  refine ⟨fun hfits => ?_, fun hmisfits => ?_⟩
  · obtain ⟨w, hword, hw⟩ := exists_wordOfInt? hfits
    exact numeric_gives view op hword hw
  · exact numeric_overflows view op (wordOfInt?_eq_none hmisfits)

theorem remainder_ints (hy : y ≠ 0) :
    (¬(x = Int64.minValue ∧ y = -1) →
        GivesInteger (x.toInt.tmod y.toInt) (remainder view (.int x) (.int y))) ∧
      (x = Int64.minValue ∧ y = -1 → FailsWith .arithmetic (remainder view (.int x) (.int y))) := by
  have hnumeric : remainder view (.int x) (.int y) =
      numeric view .remainder wordRemainder? Binary64.remainder (.int x) (.int y) := by
    simp [remainder, isNull, isZero, hy]
  rw [hnumeric]
  refine ⟨fun hquotient => ?_, fun hquotient => ?_⟩
  · obtain ⟨q, hq, -⟩ := exists_wordOfInt? ((fitsWord_tdiv_iff hy).2 hquotient)
    obtain ⟨r, hr, hw⟩ := exists_wordOfInt? (fitsWord_tmod x hy)
    refine numeric_gives view .remainder ?_ hw
    simp only [wordRemainder?, exactly, hq, hr, Option.bind_some]
  · have hq := wordOfInt?_eq_none fun hfits => (fitsWord_tdiv_iff hy).1 hfits hquotient
    refine numeric_overflows view .remainder ?_
    simp only [wordRemainder?, exactly, hq, Option.bind_none]

/-- The result is the exact integer, or there is a failure because it is no word or, for the
remainder, the quotient is none. -/
theorem apply_ints {op : ArithmeticOp} {f : Int → Int → Int} (hf : op.onIntegers? = some f)
    (hzero : op = .remainder → y ≠ 0) :
    (FitsWord (f x.toInt y.toInt) ∧ ¬op.Overflows x y →
        GivesInteger (f x.toInt y.toInt) (apply view op (.int x) (.int y))) ∧
      (¬FitsWord (f x.toInt y.toInt) ∨ op.Overflows x y →
        FailsWith .arithmetic (apply view op (.int x) (.int y))) := by
  have hexact (hop : op ≠ .remainder) {r : Except Error Value}
      (h : (FitsWord (f x.toInt y.toInt) → GivesInteger (f x.toInt y.toInt) r) ∧
        (¬FitsWord (f x.toInt y.toInt) → FailsWith .arithmetic r)) :
      (FitsWord (f x.toInt y.toInt) ∧ ¬op.Overflows x y → GivesInteger (f x.toInt y.toInt) r) ∧
        (¬FitsWord (f x.toInt y.toInt) ∨ op.Overflows x y → FailsWith .arithmetic r) :=
    ⟨fun hfits => h.1 hfits.1, fun hmisfits => h.2 (hmisfits.resolve_right fun ho => hop ho.1)⟩
  cases op with
  | add =>
      cases hf
      exact hexact nofun (numeric_exactly view .add _ (· + ·))
  | subtract =>
      cases hf
      exact hexact nofun (numeric_exactly view .subtract _ (· - ·))
  | multiply =>
      cases hf
      exact hexact nofun (numeric_exactly view .multiply _ (· * ·))
  | divide => cases hf
  | remainder =>
      cases hf
      have hfits := fitsWord_tmod x (hzero rfl)
      have hints := remainder_ints view (x := x) (hzero rfl)
      exact ⟨fun h => hints.1 fun hquotient => h.2 ⟨rfl, hquotient⟩,
        fun h => hints.2 (h.resolve_left (not_not_intro hfits)).2⟩

end Integers

section Kinds

variable {a b : Value}

theorem isNumber_of_isZero (h : b.isZero = true) : b.isNumber = true := by
  cases b <;> first | rfl | cases h

theorem isNull_eq_false (h : a ≠ .null) : a.isNull = false := by
  cases a <;> first | rfl | exact absurd rfl h

theorem ne_null_of_isNumber (h : a.isNumber = true) : a ≠ .null := by
  rintro rfl
  cases h

theorem apply_zero {op : ArithmeticOp} (hop : op = .divide ∨ op = .remainder)
    (ha : a.isNumber = true) (hb : b.isZero = true) :
    FailsWith .arithmetic (apply view op a b) := by
  have hnull : ¬(a.isNull || b.isNull) = true := by
    simp [isNull_eq_false (ne_null_of_isNumber ha),
      isNull_eq_false (ne_null_of_isNumber (isNumber_of_isZero hb))]
  refine ⟨zeroDivision view a, ?_, rfl⟩
  rcases hop with rfl | rfl
  · exact (if_neg hnull).trans (if_pos (by simp [ha, hb]))
  · exact (if_neg hnull).trans (if_pos hb)

theorem numeric_mismatch (op : ArithmeticOp) {onInts : Int64 → Int64 → Option Int64}
    {onFloats : Float → Float → Float} (ha : a ≠ .null) (hb : b ≠ .null)
    (h : ¬(a.isNumber = true ∧ b.isNumber = true)) :
    FailsWith .typeMismatch (numeric view op onInts onFloats a b) := by
  unfold numeric
  split
  · exact absurd rfl ha
  · exact absurd rfl hb
  · exact absurd ⟨rfl, rfl⟩ h
  · exact absurd ⟨rfl, rfl⟩ h
  · exact absurd ⟨rfl, rfl⟩ h
  · exact absurd ⟨rfl, rfl⟩ h
  · exact ⟨_, rfl, rfl⟩

/-- Values that cannot be combined are found to be so by their kinds, unless a remainder is
taken by zero. -/
theorem apply_mismatch {op : ArithmeticOp} (ha : a ≠ .null) (hb : b ≠ .null)
    (h : ¬Combine op a b) :
    FailsWith (if op = .remainder ∧ b.isZero = true then .arithmetic else .typeMismatch)
      (apply view op a b) := by
  have hnull : ¬(a.isNull || b.isNull) = true := by
    simp [isNull_eq_false ha, isNull_eq_false hb]
  have hnumbers : ¬(a.isNumber = true ∧ b.isNumber = true) := fun hab => h (.numbers hab.1 hab.2)
  cases op with
  | add =>
      have hadd : add view a b = numeric view .add (exactly (· + ·)) (· + ·) a b := by
        unfold add
        split
        · exact absurd (.texts _ _) h
        · exact absurd (.lists _ _) h
        · rfl
      rw [apply, hadd]
      exact numeric_mismatch view .add ha hb hnumbers
  | subtract => exact numeric_mismatch view .subtract ha hb hnumbers
  | multiply => exact numeric_mismatch view .multiply ha hb hnumbers
  | divide =>
      have hzero : ¬(a.isNumber && b.isZero) = true := fun hzero =>
        hnumbers ((Bool.and_eq_true_iff.1 hzero).imp_right isNumber_of_isZero)
      rw [if_neg (fun hrem => by cases hrem.1), apply]
      unfold divide
      rw [if_neg hnull, if_neg hzero]
      split
      · exact absurd ⟨rfl, rfl⟩ hnumbers
      · exact absurd ⟨rfl, rfl⟩ hnumbers
      · exact absurd ⟨rfl, rfl⟩ hnumbers
      · exact absurd ⟨rfl, rfl⟩ hnumbers
      · exact ⟨_, rfl, rfl⟩
  | remainder =>
      rw [apply, remainder, if_neg hnull]
      by_cases hzero : b.isZero = true
      · rw [if_pos hzero, if_pos ⟨rfl, hzero⟩]
        exact ⟨zeroDivision view a, rfl, rfl⟩
      · rw [if_neg hzero, if_neg fun hrem => hzero hrem.2]
        exact numeric_mismatch view .remainder ha hb hnumbers

end Kinds

section Negation

theorem negate_int (x : Int64) :
    (FitsWord (-x.toInt) → GivesInteger (-x.toInt) (negate (.int x))) ∧
      (¬FitsWord (-x.toInt) → FailsWith .arithmetic (negate (.int x))) := by
  refine ⟨fun hfits => ?_, fun hmisfits => ?_⟩
  · obtain ⟨w, hword, hw⟩ := exists_wordOfInt? hfits
    exact ⟨w, by simp only [negate, hword], hw⟩
  · simp only [negate, wordOfInt?_eq_none hmisfits]
    exact ⟨_, rfl, rfl⟩

theorem negate_mismatch {v : Value} (hnull : v ≠ .null) (h : v.isNumber = false) :
    FailsWith .typeMismatch (negate v) := by
  refine ⟨.ofCause (.cannotNegateValue v.kind), ?_, rfl⟩
  cases v <;> first | rfl | exact absurd rfl hnull | cases h

end Negation

/-- Whatever the operands are, arithmetic gives the exact integer, null, or an error whose kind
follows from their kinds. The remainder has two exceptions: that of the least word by minus one
counts as an overflow, and by zero every operand but null has a failure of arithmetic. -/
theorem apply_exact_or_fails (op : ArithmeticOp) (a b : Value) :
    (a = .null ∨ b = .null → apply view op a b = .ok .null) ∧
    (∀ f x y, op.onIntegers? = some f → a = .int x → b = .int y → (op = .remainder → y ≠ 0) →
      (FitsWord (f x.toInt y.toInt) ∧ ¬op.Overflows x y →
        GivesInteger (f x.toInt y.toInt) (apply view op a b)) ∧
      (¬FitsWord (f x.toInt y.toInt) ∨ op.Overflows x y →
        FailsWith .arithmetic (apply view op a b))) ∧
    (op = .divide ∨ op = .remainder → a.isNumber = true → b.isZero = true →
      FailsWith .arithmetic (apply view op a b)) ∧
    (a ≠ .null → b ≠ .null → ¬Combine op a b →
      FailsWith (if op = .remainder ∧ b.isZero = true then .arithmetic else .typeMismatch)
        (apply view op a b)) ∧
    negate .null = .ok .null ∧
    (∀ x, (FitsWord (-x.toInt) → GivesInteger (-x.toInt) (negate (.int x))) ∧
      (¬FitsWord (-x.toInt) → FailsWith .arithmetic (negate (.int x)))) ∧
    (a ≠ .null → a.isNumber = false → FailsWith .typeMismatch (negate a)) := by
  refine ⟨apply_null view op, ?_, apply_zero view, apply_mismatch view, rfl, negate_int,
    negate_mismatch⟩
  rintro f x y hf rfl rfl hzero
  exact apply_ints view hf hzero

/-- A remainder with the sign of the dividend, and a difference that cannot be taken. -/
theorem apply_exact_or_fails_seven :
    GivesInteger (-3) (apply (fun _ => "") .remainder (.int (-7)) (.int 4)) ∧
      FailsWith .typeMismatch (apply (fun _ => "") .subtract (.text "7") (.int 4)) := by
  obtain ⟨-, hints, -⟩ := apply_exact_or_fails (fun _ => "") .remainder (.int (-7)) (.int 4)
  obtain ⟨-, -, -, hkinds, -⟩ := apply_exact_or_fails (fun _ => "") .subtract (.text "7") (.int 4)
  have hcombine : ¬Combine .subtract (.text "7") (.int 4) := by
    rintro (⟨h, -⟩ | _ | _)
    cases h
  refine ⟨(hints Int.tmod (-7) 4 rfl rfl rfl fun _ => by decide).1 ⟨by decide, ?_⟩,
    hkinds nofun nofun hcombine⟩
  rintro ⟨-, h, -⟩
  exact absurd h (by decide)

/-- A text has no remainder, but by zero the failure is one of arithmetic, other than that of the
quotient. The remainder of the least word by minus one is zero, but it counts as an overflow. -/
theorem remainder_misjudges :
    FailsWith .arithmetic (apply (fun _ => "") .remainder (.text "x") (.int 0)) ∧
      FailsWith .typeMismatch (apply (fun _ => "") .divide (.text "x") (.int 0)) ∧
      FitsWord (Int64.minValue.toInt.tmod (-1)) ∧
      FailsWith .arithmetic (apply (fun _ => "") .remainder (.int Int64.minValue) (.int (-1))) :=
  ⟨⟨_, rfl, rfl⟩, ⟨_, rfl, rfl⟩, by decide, ⟨_, rfl, rfl⟩⟩

end Value

end RecordAlgebra
