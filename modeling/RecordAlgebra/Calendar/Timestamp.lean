/-!
# Timestamps

A date and a time of day without a zone. A leap second is the last second of a
minute with a thousand million nanoseconds or more.
-/

namespace RecordAlgebra

structure Timestamp where
  year : Int
  month : Nat
  day : Nat
  hour : Nat
  minute : Nat
  second : Nat
  nanosecond : Nat
  deriving DecidableEq, Repr

namespace Timestamp

def isLeapYear (year : Int) : Bool := year % 4 = 0 && (year % 100 ≠ 0 || year % 400 = 0)

def daysInMonth (year : Int) (month : Nat) : Nat :=
  if month = 2 then if isLeapYear year then 29 else 28
  else if month = 4 || month = 6 || month = 9 || month = 11 then 30
  else 31

def nanosPerSecond : Nat := 1000000000

/-- The days and times that exist. Years are limited so that every day has a
count of days from the epoch in 32 bits. -/
def isValid (t : Timestamp) : Bool :=
  -262143 ≤ t.year && t.year ≤ 262142 && 1 ≤ t.month && t.month ≤ 12 &&
  1 ≤ t.day && t.day ≤ daysInMonth t.year t.month &&
  t.hour ≤ 23 && t.minute ≤ 59 && t.second ≤ 59 &&
  (t.nanosecond < nanosPerSecond || (t.second = 59 && t.nanosecond < 2 * nanosPerSecond))

/-- The fields from the coarsest to the finest. -/
def fields (t : Timestamp) : List Int :=
  [t.year, t.month, t.day, t.hour, t.minute, t.second, t.nanosecond]

/-- Earlier timestamps come first. -/
def order (a b : Timestamp) : Ordering :=
  (compare a.year b.year).then <| (compare a.month b.month).then <|
  (compare a.day b.day).then <| (compare a.hour b.hour).then <|
  (compare a.minute b.minute).then <| (compare a.second b.second).then <|
  compare a.nanosecond b.nanosecond

theorem order_eq_iff (a b : Timestamp) : order a b = .eq ↔ a = b := by
  simp only [order, Ordering.then_eq_eq, Std.LawfulEqCmp.compare_eq_iff_eq]
  constructor
  · rintro ⟨h1, h2, h3, h4, h5, h6, h7⟩
    cases a
    cases b
    simp_all
  · rintro rfl
    simp

end Timestamp

end RecordAlgebra
