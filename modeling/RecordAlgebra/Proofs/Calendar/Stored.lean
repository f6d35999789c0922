import Mathlib.Algebra.Group.Nat.Defs
import RecordAlgebra.Calendar.Text

/-!
# Stored timestamps

The stored form of a timestamp that exists reads back as that timestamp. Every part of it
ends where its width is used up, or where something that is no digit follows.
-/

namespace RecordAlgebra

namespace Text

variable {digits rest : List Char}

theorem isBlank_eq_false_of_isDigit {c : Char} (h : c.isDigit = true) : isBlank c = false := by
  have hrange : 48 ≤ c.toNat ∧ c.toNat ≤ 57 := by
    simp only [Char.isDigit, Bool.and_eq_true, decide_eq_true_eq] at h
    exact h
  simp [isBlank, inRanges, blankRanges]
  omega

theorem dropBlanks_append (hdigits : ∀ c ∈ digits, c.isDigit = true) (hne : digits ≠ []) :
    dropBlanks (digits ++ rest) = digits ++ rest := by
  obtain ⟨c, tail, rfl⟩ := List.exists_cons_of_ne_nil hne
  have hc : isBlank c = false := isBlank_eq_false_of_isDigit (hdigits c (by simp))
  rw [dropBlanks, List.cons_append, List.dropWhile_cons_of_neg (by simp [hc])]

theorem takeWhile_isDigit_append (hdigits : ∀ c ∈ digits, c.isDigit = true) :
    (digits ++ rest).takeWhile Char.isDigit = digits ++ rest.takeWhile Char.isDigit :=
  List.takeWhile_append_of_pos hdigits

/-- Digits are read up to the width, whatever follows. -/
theorem readDigits?_some (hdigits : ∀ c ∈ digits, c.isDigit = true) (hne : digits ≠ [])
    (rest : List Char) :
    readDigits? (some digits.length) (digits ++ rest) = some (numberOfDigits digits, rest) := by
  simp [readDigits?, takeWhile_isDigit_append hdigits, hne]

/-- Digits are read up to where they end. -/
theorem readDigits?_until (width : Option Nat) (hdigits : ∀ c ∈ digits, c.isDigit = true)
    (hne : digits ≠ []) (hrest : rest.takeWhile Char.isDigit = [])
    (hwidth : ∀ n, width = some n → digits.length ≤ n) :
    readDigits? width (digits ++ rest) = some (numberOfDigits digits, rest) := by
  cases width with
  | none => simp [readDigits?, takeWhile_isDigit_append hdigits, hrest, hne]
  | some n =>
      have htake : digits.take n = digits := List.take_of_length_le (hwidth n rfl)
      simp [readDigits?, takeWhile_isDigit_append hdigits, hrest, htake, hne]

end Text

namespace Timestamp

variable {width n : Nat} {rest : List Char}

theorem toList_padded (width n : Nat) : (padded width n).toList =
    List.replicate (width - (Nat.toDigits 10 n).length) '0' ++ Nat.toDigits 10 n := by
  rw [padded, String.toList_ofList]

theorem isDigit_of_mem_padded (width n : Nat) : ∀ c ∈ (padded width n).toList, c.isDigit = true := by
  intro c hc
  rw [toList_padded, List.mem_append, List.mem_replicate] at hc
  rcases hc with ⟨-, rfl⟩ | hc
  · decide
  · exact Nat.isDigit_of_mem_toDigits (by decide) (by decide) hc

theorem padded_ne_nil (width n : Nat) : (padded width n).toList ≠ [] := by
  simp [toList_padded]

theorem numberOfDigits_padded (width n : Nat) : Text.numberOfDigits (padded width n).toList = n := by
  have happend : Nat.ofDigitChars 10 (padded width n).toList 0 = n := by
    rw [toList_padded, Nat.ofDigitChars_append, Nat.ofDigitChars_replicate_zero, Nat.mul_zero,
      Nat.ofDigitChars_ten_toDigits]
  exact happend

theorem length_padded (hwidth : 0 < width) (h : n < 10 ^ width) :
    (padded width n).toList.length = width := by
  have hlength : (Nat.toDigits 10 n).length ≤ width :=
    (Nat.length_toDigits_le_iff (by decide) hwidth).2 h
  rw [toList_padded, List.length_append, List.length_replicate]
  omega

/-- A number that fits its width is read up to there. -/
theorem readDigits?_padded (hwidth : 0 < width) (h : n < 10 ^ width) :
    Text.readDigits? (some width) ((padded width n).toList ++ rest) = some (n, rest) := by
  have hread := Text.readDigits?_some (isDigit_of_mem_padded width n) (padded_ne_nil width n) rest
  rwa [length_padded hwidth h, numberOfDigits_padded] at hread

theorem readField?_padded (h : n < 100) :
    readField? ((padded 2 n).toList ++ rest) = some (n, rest) := by
  rw [readField?, Text.dropBlanks_append (isDigit_of_mem_padded _ _) (padded_ne_nil _ _)]
  exact readDigits?_padded (by decide) h

/-- The year ends at the dash after it. -/
theorem readYear?_yearText (year : Int) :
    readYear? ((yearText year).toList ++ '-' :: rest) = some (year, '-' :: rest) := by
  have hsigned : Text.readDigits? none ((padded 4 year.natAbs).toList ++ '-' :: rest) =
      some (year.natAbs, '-' :: rest) := by
    have hdash : ('-' :: rest).takeWhile Char.isDigit = [] := rfl
    have hread := Text.readDigits?_until none (isDigit_of_mem_padded 4 year.natAbs)
      (padded_ne_nil 4 year.natAbs) hdash nofun
    rwa [numberOfDigits_padded] at hread
  rw [yearText]
  by_cases hnegative : year < 0
  · rw [if_pos hnegative, readYear?]
    have hlist : ("-" ++ padded 4 year.natAbs).toList ++ '-' :: rest =
        '-' :: ((padded 4 year.natAbs).toList ++ '-' :: rest) := by simp
    have hblanks (tail : List Char) : Text.dropBlanks ('-' :: tail) = '-' :: tail := rfl
    simp only [hlist, hblanks, hsigned, Option.map_some, Option.some.injEq, Prod.mk.injEq, and_true]
    omega
  · rw [if_neg hnegative]
    by_cases hshort : year < 10000
    · rw [if_pos hshort, readYear?, Text.dropBlanks_append (isDigit_of_mem_padded _ _) (padded_ne_nil _ _)]
      have hread : Text.readDigits? (some 4) ((padded 4 year.natAbs).toList ++ '-' :: rest) =
          some (year.natAbs, '-' :: rest) := readDigits?_padded (by decide) (by omega)
      obtain ⟨c, tail, hlist⟩ := List.exists_cons_of_ne_nil (padded_ne_nil 4 year.natAbs)
      have hdigit : c.isDigit = true := isDigit_of_mem_padded 4 year.natAbs c (by simp [hlist])
      rw [hlist, List.cons_append] at hread ⊢
      split
      · next heq =>
          cases heq
          exact absurd hdigit (by decide)
      · next heq =>
          cases heq
          exact absurd hdigit (by decide)
      · have hnatAbs : (year.natAbs : Int) = year := by omega
        simp [hread, hnatAbs]
    · rw [if_neg hshort, readYear?]
      have hlist : ("+" ++ padded 4 year.natAbs).toList ++ '-' :: rest =
          '+' :: ((padded 4 year.natAbs).toList ++ '-' :: rest) := by simp
      have hblanks (tail : List Char) : Text.dropBlanks ('+' :: tail) = '+' :: tail := rfl
      simp only [hlist, hblanks, hsigned, Option.map_some, Option.some.injEq, Prod.mk.injEq, and_true]
      omega

/-- As many digits are written as are needed, in steps of three. -/
theorem readFraction?_fractionText (n : Nat) :
    readFraction? (fractionText n).toList = some (n % nanosPerSecond, []) := by
  have hpoint (places k : Nat) (hplaces : 0 < places) (hnine : places ≤ 9) (hk : k < 10 ^ places) :
      readFraction? ("." ++ padded places k).toList = some (k * 10 ^ (9 - places), []) := by
    have hlength : (padded places k).toList.length ≤ 9 := by
      rw [length_padded hplaces hk]
      exact hnine
    have hend : ([] : List Char).takeWhile Char.isDigit = [] := rfl
    have hread := Text.readDigits?_until (some 9) (isDigit_of_mem_padded places k)
      (padded_ne_nil places k) hend (fun n hn => Option.some.inj hn ▸ hlength)
    rw [List.append_nil, numberOfDigits_padded] at hread
    have hlist : ("." ++ padded places k).toList = '.' :: (padded places k).toList := by simp
    rw [hlist, readFraction?, hread]
    simp [length_padded hplaces hk]
  have hbound : n % nanosPerSecond < 1000000000 := Nat.mod_lt _ (by decide)
  simp only [fractionText]
  by_cases hzero : n % nanosPerSecond = 0
  · rw [if_pos hzero, hzero]
    rfl
  · rw [if_neg hzero]
    by_cases hmillis : n % nanosPerSecond % 1000000 = 0
    · rw [if_pos hmillis, hpoint 3 _ (by decide) (by decide) (by omega)]
      congr 2
      omega
    · rw [if_neg hmillis]
      by_cases hmicros : n % nanosPerSecond % 1000 = 0
      · rw [if_pos hmicros, hpoint 6 _ (by decide) (by decide) (by omega)]
        congr 2
        omega
      · rw [if_neg hmicros, hpoint 9 _ (by decide) (by decide) (by omega)]
        congr 2
        omega

/-- What is stored of a timestamp that exists reads back. -/
theorem ofStoredText?_storedText {t : Timestamp} (h : t.isValid = true) :
    ofStoredText? t.storedText = some t := by
  have hvalid := h
  simp only [isValid, Bool.and_eq_true, Bool.or_eq_true, decide_eq_true_eq] at hvalid
  obtain ⟨⟨⟨⟨⟨⟨⟨⟨⟨-, -⟩, -⟩, hmonth⟩, -⟩, hday⟩, hhour⟩, hminute⟩, hsecond⟩, hnano⟩ := hvalid
  have hdays : daysInMonth t.year t.month ≤ 31 := by
    rw [daysInMonth]
    split
    · split <;> decide
    · split <;> decide
  have hlist : t.storedText.toList = (yearText t.year).toList ++ '-' :: ((padded 2 t.month).toList ++
      '-' :: ((padded 2 t.day).toList ++ 'T' :: ((padded 2 t.hour).toList ++
      ':' :: ((padded 2 t.minute).toList ++ ':' :: ((padded 2 (t.second +
      t.nanosecond / nanosPerSecond)).toList ++ (fractionText t.nanosecond).toList))))) := by
    simp [storedText, textWith]
  have hshown : t.second + t.nanosecond / nanosPerSecond < 100 := by
    rw [nanosPerSecond] at hnano ⊢
    omega
  -- A leap second is shown as second 60, and no other second is.
  have hsecond' : (if t.second + t.nanosecond / nanosPerSecond = 60 then 59
      else t.second + t.nanosecond / nanosPerSecond) = t.second := by
    rw [nanosPerSecond] at hnano ⊢
    split <;> omega
  have hnano' : (if t.second + t.nanosecond / nanosPerSecond = 60
      then nanosPerSecond + t.nanosecond % nanosPerSecond
      else t.nanosecond % nanosPerSecond) = t.nanosecond := by
    rw [nanosPerSecond] at hnano ⊢
    split <;> omega
  rw [ofStoredText?, hlist]
  simp only [bind, Option.bind, readYear?_yearText, readChar?, if_true,
    readField?_padded (show t.month < 100 by omega), readField?_padded (show t.day < 100 by omega),
    readField?_padded (show t.hour < 100 by omega), readField?_padded (show t.minute < 100 by omega),
    readField?_padded hshown, readFraction?_fractionText, beq_iff_eq, hsecond', hnano', h,
    List.isEmpty_nil, Bool.and_self]

end Timestamp

end RecordAlgebra
