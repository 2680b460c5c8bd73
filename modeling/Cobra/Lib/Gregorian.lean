/-
The proleptic Gregorian calendar, with years of both signs: which dates
there are, which date follows which, and the number of a day.

# Shape

`Date.next` is the calendar: the lengths of the months, the leap rule and
nothing else. `Date.number` counts the days, year by year and month by
month, so that 1 January of the year 1 is day 1. The two say the same
(`number_next`, `iterate_next_eq_iff`), and the numbers are in the order
of the dates (`before_iff`).

What is proved about a closed form for the day number is proved against
`number`, and with that against the calendar.
-/
import Mathlib.Logic.Function.Iterate

namespace Gregorian

-- ============================================================= the dates

structure Date where
  year : Int
  month : Int
  day : Int
  deriving Repr, DecidableEq

/-- Every fourth year, but of the years of a century every fourth. -/
def isLeap (year : Int) : Bool :=
  (year % 4 == 0 && year % 100 != 0) || year % 400 == 0

def daysInMonth (year month : Int) : Int :=
  if month = 2 then if isLeap year then 29 else 28
  else if month = 4 ∨ month = 6 ∨ month = 9 ∨ month = 11 then 30
  else 31

structure Date.Valid (d : Date) : Prop where
  month_pos : 1 ≤ d.month
  month_le : d.month ≤ 12
  day_pos : 1 ≤ d.day
  day_le : d.day ≤ daysInMonth d.year d.month

instance (d : Date) : Decidable d.Valid :=
  decidable_of_iff
    (1 ≤ d.month ∧ d.month ≤ 12 ∧ 1 ≤ d.day
      ∧ d.day ≤ daysInMonth d.year d.month)
    ⟨fun ⟨h1, h2, h3, h4⟩ => ⟨h1, h2, h3, h4⟩,
      fun ⟨h1, h2, h3, h4⟩ => ⟨h1, h2, h3, h4⟩⟩

/-- The day after. -/
def Date.next (d : Date) : Date :=
  if d.day < daysInMonth d.year d.month then { d with day := d.day + 1 }
  else if d.month < 12 then { d with month := d.month + 1, day := 1 }
  else ⟨d.year + 1, 1, 1⟩

/-- The earlier one of two dates. -/
def Date.Before (a b : Date) : Prop :=
  a.year < b.year ∨ a.year = b.year
    ∧ (a.month < b.month ∨ a.month = b.month ∧ a.day < b.day)

instance (a b : Date) : Decidable (a.Before b) :=
  inferInstanceAs (Decidable (_ ∨ _))

-- the last day of February in a common, a leap and a century year
example : Date.next ⟨1900, 2, 28⟩ = ⟨1900, 3, 1⟩
    ∧ Date.next ⟨2000, 2, 28⟩ = ⟨2000, 2, 29⟩
    ∧ Date.next ⟨-1, 12, 31⟩ = ⟨0, 1, 1⟩ := by decide

theorem isLeap_iff (year : Int) :
    isLeap year = true ↔ year % 4 = 0 ∧ year % 100 ≠ 0 ∨ year % 400 = 0 := by
  unfold isLeap
  simp

/-- No month is shorter than the shortest February. -/
theorem daysInMonth_ge (year month : Int) : 28 ≤ daysInMonth year month := by
  unfold daysInMonth
  split
  next =>
    split
    next => decide
    next => decide
  next =>
    split
    next => decide
    next => decide

theorem Date.Valid.next {d : Date} (h : d.Valid) : d.next.Valid := by
  have hmonth := h.month_pos
  have hday := h.day_pos
  unfold Date.next
  split
  next hless =>
    refine ⟨hmonth, h.month_le, ?_, ?_⟩
    · simp only
      omega
    · simp only
      omega
  next =>
    split
    next hless =>
      have hlen := daysInMonth_ge d.year (d.month + 1)
      refine ⟨?_, ?_, Int.le_refl 1, ?_⟩
      · simp only
        omega
      · simp only
        omega
      · simp only
        omega
    next =>
      have hlen := daysInMonth_ge (d.year + 1) 1
      refine ⟨Int.le_refl 1, ?_, Int.le_refl 1, ?_⟩
      · simp only
        omega
      · simp only
        omega

-- =========================================================== the numbers

/-- The days before 1 January of a year, from the year 1 on. -/
def daysBeforeYear (year : Int) : Int :=
  365 * (year - 1) + (year - 1) / 4 - (year - 1) / 100 + (year - 1) / 400

/-- The days of the first months of a year. -/
def daysBefore (year : Int) : Nat → Int
  | 0 => 0
  | m + 1 => daysBefore year m + daysInMonth year (m + 1)

/-- The number of a day: the years before it, the months before it, and
the day. -/
def Date.number (d : Date) : Int :=
  daysBeforeYear d.year + daysBefore d.year (d.month - 1).toNat + d.day

/-- The twelve months are the year. -/
theorem daysBefore_twelve (year : Int) :
    daysBeforeYear year + daysBefore year 12 = daysBeforeYear (year + 1) := by
  have hyear : daysBefore year 12 = if isLeap year then 366 else 365 := by
    unfold daysBefore
    simp only [daysBefore, daysInMonth]
    cases isLeap year with
    | true => decide
    | false => decide
  rw [hyear]
  have hleap := isLeap_iff year
  unfold daysBeforeYear
  split
  next h =>
    have hrule := hleap.1 h
    omega
  next h =>
    have hrule := mt hleap.2 h
    omega

theorem daysBefore_mono (year : Int) {m n : Nat} (h : m ≤ n) :
    daysBefore year m ≤ daysBefore year n := by
  induction n with
  | zero => exact Int.le_of_eq (congrArg (daysBefore year) (Nat.le_zero.1 h))
  | succ n ih =>
      by_cases heq : m = n + 1
      · exact Int.le_of_eq (congrArg (daysBefore year) heq)
      · have hprev := ih (by omega)
        have hlen := daysInMonth_ge year (n + 1)
        simp only [daysBefore]
        omega

/-- A month ends where the next one begins. -/
theorem daysBefore_month {d : Date} (h : d.Valid) :
    daysBefore d.year d.month.toNat
      = daysBefore d.year (d.month - 1).toNat + daysInMonth d.year d.month := by
  have hmonth := h.month_pos
  obtain ⟨m, hm⟩ : ∃ m : Nat, d.month = m + 1 :=
    ⟨(d.month - 1).toNat, by omega⟩
  have hsucc : d.month.toNat = m + 1 := by omega
  have hpred : (d.month - 1).toNat = m := by omega
  rw [hsucc, hpred, hm]
  rfl

/-- The number counts the days of the calendar. -/
theorem number_next {d : Date} (h : d.Valid) :
    d.next.number = d.number + 1 := by
  have hmonth := h.month_pos
  have hle := h.month_le
  have hday := h.day_le
  have hend := daysBefore_month h
  unfold Date.next Date.number
  split
  next =>
    simp only
    omega
  next hlast =>
    split
    next =>
      simp only [Int.add_sub_cancel]
      omega
    next hdec =>
      have htwelve : d.month.toNat = 12 := by omega
      have hyear := daysBefore_twelve d.year
      rw [htwelve] at hend
      simp only [Int.sub_self, Int.toNat_zero, daysBefore]
      omega

theorem iterate_next_valid {d : Date} (h : d.Valid) (n : Nat) :
    (Date.next^[n] d).Valid := by
  induction n with
  | zero => exact h
  | succ n ih =>
      rw [Function.iterate_succ_apply']
      exact ih.next

/-- The date `n` days later has the number `n` further on. -/
theorem number_iterate_next {d : Date} (h : d.Valid) (n : Nat) :
    (Date.next^[n] d).number = d.number + n := by
  induction n with
  | zero => exact (Int.add_zero _).symm
  | succ n ih =>
      rw [Function.iterate_succ_apply', number_next (iterate_next_valid h n), ih]
      omega

-- ============================================================= the order

theorem daysBeforeYear_mono {x y : Int} (h : x ≤ y) :
    daysBeforeYear x ≤ daysBeforeYear y := by
  unfold daysBeforeYear
  omega

/-- A date is in its year. -/
theorem number_bounds {d : Date} (h : d.Valid) :
    daysBeforeYear d.year < d.number
      ∧ d.number ≤ daysBeforeYear (d.year + 1) := by
  have hday := h.day_pos
  have hle := h.day_le
  have hmonth := h.month_le
  have hend := daysBefore_month h
  have hfirst := daysBefore_mono d.year (Nat.zero_le (d.month - 1).toNat)
  have hlast := daysBefore_mono d.year (show d.month.toNat ≤ 12 by omega)
  have hyear := daysBefore_twelve d.year
  unfold Date.number
  simp only [daysBefore] at hfirst
  constructor
  · omega
  · omega

theorem number_lt_of_before {a b : Date} (ha : a.Valid) (hb : b.Valid)
    (h : a.Before b) : a.number < b.number := by
  obtain hyear | ⟨hyear, hmonth | ⟨hmonth, hday⟩⟩ := h
  · have hmono := daysBeforeYear_mono (show a.year + 1 ≤ b.year by omega)
    have h1 := (number_bounds ha).2
    have h2 := (number_bounds hb).1
    omega
  · have hpos := ha.month_pos
    have hend := daysBefore_month ha
    have hmono := daysBefore_mono a.year
      (show a.month.toNat ≤ (b.month - 1).toNat by omega)
    have h1 := ha.day_le
    have h2 := hb.day_pos
    unfold Date.number
    rw [← hyear]
    omega
  · unfold Date.number
    rw [hyear, hmonth]
    omega

theorem eq_or_before (a b : Date) : a = b ∨ a.Before b ∨ b.Before a := by
  obtain ⟨y, m, d⟩ := a
  obtain ⟨y', m', d'⟩ := b
  unfold Date.Before
  simp only [Date.mk.injEq]
  omega

/-- The numbers are in the order of the dates. -/
theorem before_iff {a b : Date} (ha : a.Valid) (hb : b.Valid) :
    a.Before b ↔ a.number < b.number := by
  constructor
  · exact number_lt_of_before ha hb
  · intro hlt
    obtain rfl | hab | hba := eq_or_before a b
    · exact absurd hlt (Int.lt_irrefl _)
    · exact hab
    · have hgt := number_lt_of_before hb ha hba
      omega

theorem number_injective {a b : Date} (ha : a.Valid) (hb : b.Valid)
    (h : a.number = b.number) : a = b := by
  obtain heq | hab | hba := eq_or_before a b
  · exact heq
  · have hlt := number_lt_of_before ha hb hab
    omega
  · have hlt := number_lt_of_before hb ha hba
    omega

/-- One date is `n` days after another, in the calendar and by the
numbers. -/
theorem iterate_next_eq_iff {a b : Date} (ha : a.Valid) (hb : b.Valid)
    (n : Nat) : Date.next^[n] a = b ↔ b.number - a.number = n := by
  have hn := number_iterate_next ha n
  constructor
  · intro h
    rw [h] at hn
    omega
  · intro h
    exact number_injective (iterate_next_valid ha n) hb (by omega)

-- ============================================================== weekdays

/-- The day of the week, from Sunday on: day 1 was a Monday. -/
def Date.weekday (d : Date) : Int := d.number % 7

/-- The days of the week follow each other. -/
theorem weekday_next {d : Date} (h : d.Valid) :
    d.next.weekday = (d.weekday + 1) % 7 := by
  unfold Date.weekday
  rw [number_next h]
  omega

-- 1 January 1970 was a Thursday
example : Date.weekday ⟨1970, 1, 1⟩ = 4 := by decide

end Gregorian
