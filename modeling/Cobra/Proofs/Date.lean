/-
The closed forms of `Date` (Cobra.Date) are the Gregorian calendar.

# Main results

- `julianDayNumber_inverse`: numbers and valid dates are inverse to each
  other, up to the last number that no `int` overflows for.
- `getJulianDayNumber_counts`: one day more is one more, so that
  differences count days and the order of `Date`s is that of the days.

# How

Both are proved against the number of a day by the calendar
(Cobra.Lib.Gregorian). `julianDay_eq` is the closed form with divisions
that round down; C's divisions agree with it from the year -4799 on, and
before that the result is negative (`getJulianDayNumber_inv`). The way
back takes a number apart (`Parts`): two of its three divisions are the
same one, days into a cycle of four periods the last of which is a day
longer (`cycle_bounds`).
-/
import Cobra.Date

namespace Cobra

open Machine

-- ============================================ the closed form, rounding down

/-- The day that February gets in a leap year. -/
def leapDay (year : Int) : Int := if Gregorian.isLeap year then 1 else 0

/-- The first two months are counted from the March before. -/
theorem daysBefore_winter (year : Int) {month : Int} (h1 : 1 ≤ month)
    (h2 : month ≤ 2) :
    Gregorian.daysBefore year (month - 1).toNat
      = (153 * (month + 9) + 2) / 5 - 306 := by
  obtain rfl | rfl : month = 1 ∨ month = 2 := by omega
  · rfl
  · rfl

/-- From March on `(153 * m + 2) / 5` adds up the lengths of the months. -/
theorem daysBefore_march (year : Int) {month : Int} (h3 : 3 ≤ month)
    (h12 : month ≤ 12) :
    Gregorian.daysBefore year (month - 1).toNat
      = 59 + leapDay year + (153 * (month - 3) + 2) / 5 := by
  obtain rfl | rfl | rfl | rfl | rfl | rfl | rfl | rfl | rfl | rfl :
      month = 3 ∨ month = 4 ∨ month = 5 ∨ month = 6 ∨ month = 7 ∨ month = 8
        ∨ month = 9 ∨ month = 10 ∨ month = 11 ∨ month = 12 := by omega
  all_goals
    unfold leapDay
    cases hleap : Gregorian.isLeap year with
    | true => simp [Gregorian.daysBefore, Gregorian.daysInMonth, hleap]
    | false => simp [Gregorian.daysBefore, Gregorian.daysInMonth, hleap]

/-- A leap year has its day in February: the years are counted from the
March before the year 1. -/
theorem daysBeforeYear_leapDay (year : Int) :
    Gregorian.daysBeforeYear year + leapDay year
      = 365 * (year - 1) + year / 4 - year / 100 + year / 400 := by
  have hleap := Gregorian.isLeap_iff year
  unfold Gregorian.daysBeforeYear leapDay
  split
  next h =>
    have hrule := hleap.1 h
    omega
  next h =>
    have hrule := mt hleap.2 h
    omega

/-- The closed form, with divisions that round down. -/
theorem julianDay_eq {d : Gregorian.Date} (h : d.Valid) {a y m : Int}
    (ha : a = (14 - d.month) / 12) (hy : y = d.year + 4800 - a)
    (hm : m = d.month + 12 * a - 3) :
    julianDay d
      = d.day + (153 * m + 2) / 5 + y * 365 + y / 4 - y / 100 + y / 400
        - 32045 := by
  have hpos := h.month_pos
  have hle := h.month_le
  unfold julianDay Gregorian.Date.number
  by_cases hwinter : d.month ≤ 2
  · have hone : a = 1 := by omega
    rw [daysBefore_winter d.year hpos hwinter, hm, hy, hone]
    unfold Gregorian.daysBeforeYear
    have hmonth : d.month + 12 * 1 - 3 = d.month + 9 := by omega
    rw [hmonth]
    omega
  · have hzero : a = 0 := by omega
    have hyear := daysBeforeYear_leapDay d.year
    rw [daysBefore_march d.year (by omega) hle, hm, hy, hzero]
    have hmonth : d.month + 12 * 0 - 3 = d.month - 3 := by omega
    rw [hmonth]
    omega

-- ==================================================== getJulianDayNumber

/-- The dates that the arithmetic of `getJulianDayNumber` is right for. -/
structure Reckoned (d : Gregorian.Date) : Prop where
  valid : d.Valid
  year_ge : -4799 ≤ d.year
  year_le : d.year ≤ 5000001

theorem day_le {d : Gregorian.Date} (h : d.Valid) : d.day ≤ 31 := by
  have hle := h.day_le
  unfold Gregorian.daysInMonth at hle
  split at hle
  next =>
    split at hle
    next => omega
    next => omega
  next =>
    split at hle
    next => omega
    next => omega

theorem getJulianDayNumber_eq {d : Gregorian.Date} (h : Reckoned d) :
    getJulianDayNumber d.year d.month d.day = .ok (julianDay d) := by
  have hpos := h.valid.month_pos
  have hle := h.valid.month_le
  have hlo := h.year_ge
  have hhi := h.year_le
  have hday := h.valid.day_pos
  have hday' := day_le h.valid
  -- the year begins in March
  obtain ⟨a, ha⟩ : ∃ a, a = (14 - d.month) / 12 := ⟨_, rfl⟩
  obtain ⟨y, hy⟩ : ∃ y, y = d.year + 4800 - a := ⟨_, rfl⟩
  obtain ⟨m, hm⟩ : ∃ m, m = d.month + 12 * a - 3 := ⟨_, rfl⟩
  rw [julianDay_eq h.valid ha hy hm]
  unfold getJulianDayNumber
  rw [int_of (by omega) (by omega), ok_bind,
    Int.tdiv_eq_ediv_of_nonneg (by omega), ← ha]
  simp (disch := omega) only [int_of, ok_bind]
  rw [← hy, ← hm]
  have hy0 : 0 ≤ y := by omega
  have hy1 : y ≤ 5004801 := by omega
  have hm0 : 0 ≤ m := by omega
  have hm1 : m ≤ 11 := by omega
  clear ha hy hm
  -- and the sum
  rw [Int.tdiv_eq_ediv_of_nonneg hy0, Int.tdiv_eq_ediv_of_nonneg hy0,
    Int.tdiv_eq_ediv_of_nonneg hy0, Int.tdiv_eq_ediv_of_nonneg (by omega)]
  simp (disch := omega) only [int_of, ok_bind]

/-- A number that `getJulianDayNumber` computes is negative for a year that
is too early, and the right one otherwise. -/
theorem getJulianDayNumber_inv {d : Gregorian.Date} (h : d.Valid) {j : Int}
    (hj : getJulianDayNumber d.year d.month d.day = .ok j) :
    j < 0 ∨ j = julianDay d := by
  have hpos := h.month_pos
  have hle := h.month_le
  have hday := day_le h
  unfold getJulianDayNumber at hj
  simp only [int_bind_ok_iff, int_ok_iff] at hj
  obtain ⟨-, -, -, -, -, -, -, -, -, -, -, -, -, -, -, hsum⟩ := hj
  rw [Int.tdiv_eq_ediv_of_nonneg (by omega : 0 ≤ 14 - d.month)] at hsum
  obtain ⟨a, ha⟩ : ∃ a, a = (14 - d.month) / 12 := ⟨_, rfl⟩
  obtain ⟨y, hy⟩ : ∃ y, y = d.year + 4800 - a := ⟨_, rfl⟩
  obtain ⟨m, hm⟩ : ∃ m, m = d.month + 12 * a - 3 := ⟨_, rfl⟩
  rw [← ha, ← hy, ← hm, Int.tdiv_eq_ediv_of_nonneg (by omega)] at hsum
  by_cases hneg : 0 ≤ y
  · right
    rw [julianDay_eq h ha hy hm, ← hsum]
    simp only [Int.tdiv_eq_ediv_of_nonneg hneg]
  · left
    -- rounding towards zero cannot make up for the years
    obtain ⟨z, hz⟩ : ∃ z, y = -z := ⟨-y, by omega⟩
    rw [hz, Int.neg_tdiv, Int.neg_tdiv, Int.neg_tdiv,
      Int.tdiv_eq_ediv_of_nonneg (by omega), Int.tdiv_eq_ediv_of_nonneg (by omega),
      Int.tdiv_eq_ediv_of_nonneg (by omega)] at hsum
    have hm11 : m ≤ 11 := by omega
    omega

-- ======================================================= getYearMonthDay

/-- The last Julian day number that `4 * a + 3` does not overflow for. -/
def kMaxJulianDay : Int := 536838867

/-- A day number taken apart: centuries, years of the century and days of
the year, all of them from March on. -/
structure Parts (j b d e : Int) : Prop where
  sum : j + 32044 = 36524 * b + b / 4 + 365 * d + d / 4 + e
  b_nonneg : 0 ≤ b
  d_nonneg : 0 ≤ d
  d_le : d ≤ 99
  e_nonneg : 0 ≤ e
  /-- only a leap year has a 366th day -/
  e_le : e ≤ 364 ∨ e = 365 ∧ d % 4 = 3 ∧ (d = 99 → b % 4 = 3)

/-- Days into a cycle of four periods, the last of them one day longer:
which period, and which day of it. -/
theorem cycle_bounds {a b c n : Int} (hn : n = 36524 ∨ n = 365)
    (hb : b = (4 * a + 3) / (4 * n + 1)) (hc : c = a - (4 * n + 1) * b / 4) :
    a = n * b + b / 4 + c ∧ 0 ≤ c ∧ (c < n ∨ c = n ∧ b % 4 = 3) := by
  obtain ⟨q, r, hq, hr⟩ : ∃ q r, b = 4 * q + r ∧ (r = 0 ∨ r = 1 ∨ r = 2 ∨ r = 3) :=
    ⟨b / 4, b % 4, by omega, by omega⟩
  obtain rfl | rfl := hn
  · have hstart : (4 * 36524 + 1) * b / 4 = 36524 * b + b / 4 := by omega
    rw [hstart] at hc
    have hlo : 146097 * b ≤ 4 * a + 3 := by omega
    have hhi : 4 * a + 3 < 146097 * b + 146097 := by omega
    clear hb hstart
    obtain rfl | rfl | rfl | rfl := hr
    · omega
    · omega
    · omega
    · omega
  · have hstart : (4 * 365 + 1) * b / 4 = 365 * b + b / 4 := by omega
    rw [hstart] at hc
    have hlo : 1461 * b ≤ 4 * a + 3 := by omega
    have hhi : 4 * a + 3 < 1461 * b + 1461 := by omega
    clear hb hstart
    obtain rfl | rfl | rfl | rfl := hr
    · omega
    · omega
    · omega
    · omega

/-- The three divisions take the day number apart. -/
theorem parts_of_divisions {j b c d e : Int} (h0 : 0 ≤ j)
    (hb : b = (4 * (j + 32044) + 3) / 146097)
    (hc : c = j + 32044 - b * 146097 / 4) (hd : d = (4 * c + 3) / 1461)
    (he : e = c - 1461 * d / 4) : Parts j b d e := by
  rw [Int.mul_comm] at hc
  obtain ⟨hsum, hc0, hc1⟩ := cycle_bounds (.inl rfl) hb hc
  obtain ⟨hsum', he0, he1⟩ := cycle_bounds (.inr rfl) hd he
  have hb0 : 0 ≤ b := by omega
  clear hb hc he
  have hd0 : 0 ≤ d := by omega
  have hd1 : d ≤ 99 := by omega
  refine ⟨by omega, hb0, hd0, hd1, he0, ?_⟩
  clear hd hsum
  omega

/-- The date that `getYearMonthDay` makes of the parts. -/
def dateOfParts (b d e m : Int) : Gregorian.Date where
  year := b * 100 + d - 4800 + m / 10
  month := m + 3 - 12 * (m / 10)
  day := e - (153 * m + 2) / 5 + 1

theorem getYearMonthDay_eq {j : Int} (h0 : 0 ≤ j) (h1 : j ≤ kMaxJulianDay) :
    ∃ b d e, Parts j b d e ∧ getYearMonthDay j
      = .ok (dateOfParts b d e ((5 * e + 2) / 153)) := by
  unfold kMaxJulianDay at h1
  obtain ⟨b, hb⟩ : ∃ b, b = (4 * (j + 32044) + 3) / 146097 := ⟨_, rfl⟩
  obtain ⟨c, hc⟩ : ∃ c, c = j + 32044 - b * 146097 / 4 := ⟨_, rfl⟩
  obtain ⟨d, hd⟩ : ∃ d, d = (4 * c + 3) / 1461 := ⟨_, rfl⟩
  obtain ⟨e, he⟩ : ∃ e, e = c - 1461 * d / 4 := ⟨_, rfl⟩
  obtain ⟨m, hm⟩ : ∃ m, m = (5 * e + 2) / 153 := ⟨_, rfl⟩
  have hparts := parts_of_divisions h0 hb hc hd he
  refine ⟨b, d, e, hparts, ?_⟩
  have hb0 := hparts.b_nonneg
  have hd0 := hparts.d_nonneg
  have hd1 := hparts.d_le
  have he0 := hparts.e_nonneg
  have he1 : e ≤ 365 := by have h := hparts.e_le; omega
  have hb1 : b ≤ 14699 := by omega
  have hc0 : 0 ≤ c := by omega
  have hc1 : c ≤ 36524 := by omega
  have hm0 : 0 ≤ m := by omega
  have hm1 : m ≤ 11 := by omega
  unfold getYearMonthDay dateOfParts
  -- one division after the other
  rw [int_of (by omega) (by omega), ok_bind, int_of (by omega) (by omega),
    ok_bind, int_of (by omega) (by omega), ok_bind,
    Int.tdiv_eq_ediv_of_nonneg (by omega), ← hb]
  dsimp only
  rw [int_of (by omega) (by omega), ok_bind,
    Int.tdiv_eq_ediv_of_nonneg (by omega), ← hc,
    int_of (by omega) (by omega), ok_bind]
  clear hb hc hparts
  rw [int_of (by omega) (by omega), ok_bind, int_of (by omega) (by omega),
    ok_bind, Int.tdiv_eq_ediv_of_nonneg (by omega), ← hd]
  rw [int_of (by omega) (by omega), ok_bind,
    Int.tdiv_eq_ediv_of_nonneg (by omega), ← he,
    int_of (by omega) (by omega), ok_bind]
  clear hd he
  rw [int_of (by omega) (by omega), ok_bind, int_of (by omega) (by omega),
    ok_bind, Int.tdiv_eq_ediv_of_nonneg (by omega), ← hm]
  clear hm
  rw [Int.tdiv_eq_ediv_of_nonneg hm0]
  simp (disch := omega) only [int_of, ok_bind, Int.tdiv_eq_ediv_of_nonneg]

/-- The months of the parts have the lengths of the calendar, and the day
that only leap years have is a 29 February. -/
theorem dateOfParts_valid {j b d e : Int} (h : Parts j b d e) :
    (dateOfParts b d e ((5 * e + 2) / 153)).Valid := by
  have hd0 := h.d_nonneg
  have hd1 := h.d_le
  have he0 := h.e_nonneg
  have he1 := h.e_le
  obtain ⟨m, hm⟩ : ∃ m, m = (5 * e + 2) / 153 := ⟨_, rfl⟩
  rw [← hm]
  have hm0 : 0 ≤ m := by omega
  have hm1 : m ≤ 11 := by omega
  refine ⟨?_, ?_, ?_, ?_⟩
  · simp only [dateOfParts]
    omega
  · simp only [dateOfParts]
    omega
  · simp only [dateOfParts]
    omega
  · have hleap := Gregorian.isLeap_iff (b * 100 + d - 4800 + m / 10)
    simp only [dateOfParts]
    unfold Gregorian.daysInMonth
    by_cases hfeb : m = 11
    · -- e = 365 is the last day of a leap year
      subst hfeb
      rw [if_pos (by decide)]
      by_cases hyear : Gregorian.isLeap (b * 100 + d - 4800 + 11 / 10) = true
      · rw [if_pos hyear]
        omega
      · rw [if_neg hyear]
        have hrule := mt hleap.2 hyear
        omega
    · rw [if_neg (by omega)]
      by_cases hshort : m = 1 ∨ m = 3 ∨ m = 6 ∨ m = 8
      · rw [if_pos (by omega)]
        omega
      · rw [if_neg (by omega)]
        omega

/-- The date of the parts has the number that was taken apart. -/
theorem julianDay_dateOfParts {j b d e : Int} (h : Parts j b d e) :
    julianDay (dateOfParts b d e ((5 * e + 2) / 153)) = j := by
  have hvalid := dateOfParts_valid h
  have hsum := h.sum
  have hd0 := h.d_nonneg
  have hd1 := h.d_le
  have he0 := h.e_nonneg
  have he1 := h.e_le
  obtain ⟨m, hm⟩ : ∃ m, m = (5 * e + 2) / 153 := ⟨_, rfl⟩
  rw [← hm] at hvalid ⊢
  have hm0 : 0 ≤ m := by omega
  have hm1 : m ≤ 11 := by omega
  have hmarch : (14 - (m + 3 - 12 * (m / 10))) / 12 = m / 10 := by omega
  rw [julianDay_eq hvalid (a := m / 10) (y := b * 100 + d) (m := m)
    hmarch.symm (by simp only [dateOfParts]; omega)
    (by simp only [dateOfParts]; omega)]
  simp only [dateOfParts]
  omega

/-- A day number of the range is that of a date no `int` overflows for. -/
theorem reckoned_of_julianDay {d : Gregorian.Date} (h : d.Valid)
    (h0 : 0 ≤ julianDay d) (h1 : julianDay d ≤ kMaxJulianDay) :
    Reckoned d := by
  have hbounds := Gregorian.number_bounds h
  unfold kMaxJulianDay at h1
  unfold julianDay at h0 h1
  unfold Gregorian.daysBeforeYear at hbounds
  exact ⟨h, by omega, by omega⟩

/-- `getYearMonthDay` finds the date of the calendar. -/
theorem getYearMonthDay_date {j : Int} (h0 : 0 ≤ j) (h1 : j ≤ kMaxJulianDay) :
    ∃ d, getYearMonthDay j = .ok d ∧ Reckoned d ∧ julianDay d = j := by
  obtain ⟨b, d, e, hparts, hok⟩ := getYearMonthDay_eq h0 h1
  have hj := julianDay_dateOfParts hparts
  have hvalid := dateOfParts_valid hparts
  exact ⟨_, hok, reckoned_of_julianDay hvalid (by rw [hj]; exact h0)
    (by rw [hj]; exact h1), hj⟩

theorem julianDay_injective {a b : Gregorian.Date} (ha : a.Valid)
    (hb : b.Valid) (h : julianDay a = julianDay b) : a = b := by
  apply Gregorian.number_injective ha hb
  unfold julianDay at h
  omega

theorem getYearMonthDay_julianDay {d : Gregorian.Date} (h : d.Valid)
    (h0 : 0 ≤ julianDay d) (h1 : julianDay d ≤ kMaxJulianDay) :
    getYearMonthDay (julianDay d) = .ok d := by
  obtain ⟨d', hok, hreck, hj⟩ := getYearMonthDay_date h0 h1
  rw [hok, julianDay_injective hreck.valid h hj]

/-- Numbers and dates are inverse to each other, and nothing overflows: the
number of a date is taken by the calendar or as it is computed. -/
theorem julianDayNumber_inverse {j : Int} (h0 : 0 ≤ j)
    (h1 : j ≤ kMaxJulianDay) :
    (∃ d, getYearMonthDay j = .ok d ∧ d.Valid
      ∧ getJulianDayNumber d.year d.month d.day = .ok j)
    ∧ (∀ d : Gregorian.Date, d.Valid → julianDay d = j →
        getJulianDayNumber d.year d.month d.day = .ok j
          ∧ getYearMonthDay j = .ok d)
    ∧ (∀ d : Gregorian.Date, d.Valid →
        getJulianDayNumber d.year d.month d.day = .ok j →
        getYearMonthDay j = .ok d) := by
  refine ⟨?_, ?_, ?_⟩
  · obtain ⟨d, hok, hreck, rfl⟩ := getYearMonthDay_date h0 h1
    exact ⟨d, hok, hreck.valid, getJulianDayNumber_eq hreck⟩
  · rintro d hvalid rfl
    exact ⟨getJulianDayNumber_eq (reckoned_of_julianDay hvalid h0 h1),
      getYearMonthDay_julianDay hvalid h0 h1⟩
  · intro d hvalid hcomp
    obtain hneg | rfl := getJulianDayNumber_inv hvalid hcomp
    · omega
    · exact getYearMonthDay_julianDay hvalid h0 h1

/-- At the end of the range. -/
theorem julianDayNumber_inverse_at_max :
    (∃ d, getYearMonthDay kMaxJulianDay = .ok d ∧ d.Valid
      ∧ getJulianDayNumber d.year d.month d.day = .ok kMaxJulianDay)
    ∧ (∀ d : Gregorian.Date, d.Valid → julianDay d = kMaxJulianDay →
        getJulianDayNumber d.year d.month d.day = .ok kMaxJulianDay
          ∧ getYearMonthDay kMaxJulianDay = .ok d)
    ∧ (∀ d : Gregorian.Date, d.Valid →
        getJulianDayNumber d.year d.month d.day = .ok kMaxJulianDay →
        getYearMonthDay kMaxJulianDay = .ok d) :=
  julianDayNumber_inverse (by decide) (by decide)

-- the next number overflows
example : getYearMonthDay (kMaxJulianDay + 1) = .error .overflow := by
  decide +kernel

-- ============================================================= the class

/-- The dates that are counted: the day after is still reckoned. -/
structure Counted (d : Gregorian.Date) : Prop where
  valid : d.Valid
  year_ge : -4799 ≤ d.year
  year_le : d.year ≤ 5000000

theorem Counted.reckoned {d : Gregorian.Date} (h : Counted d) : Reckoned d := by
  have hle := h.year_le
  exact ⟨h.valid, h.year_ge, by omega⟩

theorem Counted.next_reckoned {d : Gregorian.Date} (h : Counted d) :
    Reckoned d.next := by
  have hge := h.year_ge
  have hle := h.year_le
  have hnext : d.year ≤ d.next.year ∧ d.next.year ≤ d.year + 1 := by
    unfold Gregorian.Date.next
    split
    next => simp only; omega
    next =>
      split
      next => simp only; omega
      next => simp only; omega
  exact ⟨h.valid.next, by omega, by omega⟩

theorem ofYmd_eq {d : Gregorian.Date} (h : Reckoned d) :
    Date.ofYmd d.year d.month d.day = .ok ⟨julianDay d⟩ := by
  unfold Date.ofYmd
  rw [getJulianDayNumber_eq h]
  rfl

/-- `getJulianDayNumber` counts the days: the day after has the next
number, the difference of two `Date`s is the number of days between them,
and their order is the order of the days. -/
theorem getJulianDayNumber_counts {a b : Gregorian.Date} (ha : Counted a)
    (hb : Counted b) :
    getJulianDayNumber 1970 1 1 = .ok 2440588
    ∧ (∃ j, getJulianDayNumber a.year a.month a.day = .ok j
        ∧ getJulianDayNumber a.next.year a.next.month a.next.day = .ok (j + 1))
    ∧ ∃ x y, Date.ofYmd a.year a.month a.day = .ok x
        ∧ Date.ofYmd b.year b.month b.day = .ok y
        ∧ (∀ n : Nat, Gregorian.Date.next^[n] a = b
            ↔ y.julianDayNumber - x.julianDayNumber = n)
        ∧ (x.lt y = true ↔ a.Before b)
        ∧ (x.beq y = true ↔ a = b) := by
  refine ⟨by decide +kernel, ⟨julianDay a, getJulianDayNumber_eq ha.reckoned, ?_⟩,
    _, _, ofYmd_eq ha.reckoned, ofYmd_eq hb.reckoned, ?_, ?_, ?_⟩
  · rw [getJulianDayNumber_eq ha.next_reckoned]
    unfold julianDay
    rw [Gregorian.number_next ha.valid]
    congr 1
    omega
  · intro n
    rw [Gregorian.iterate_next_eq_iff ha.valid hb.valid]
    unfold julianDay
    simp only
    omega
  · rw [Gregorian.before_iff ha.valid hb.valid]
    unfold Date.lt julianDay
    simp
  · unfold Date.beq
    rw [beq_iff_eq]
    constructor
    · exact julianDay_injective ha.valid hb.valid
    · rintro rfl
      rfl

/-- From the last day of February of a leap year to the end of the range. -/
theorem getJulianDayNumber_counts_leap :
    getJulianDayNumber 1970 1 1 = .ok 2440588
    ∧ (∃ j, getJulianDayNumber 2000 2 29 = .ok j
        ∧ getJulianDayNumber 2000 3 1 = .ok (j + 1))
    ∧ ∃ x y, Date.ofYmd 2000 2 29 = .ok x
        ∧ Date.ofYmd 5000000 12 31 = .ok y
        ∧ (∀ n : Nat, Gregorian.Date.next^[n] ⟨2000, 2, 29⟩ = ⟨5000000, 12, 31⟩
            ↔ y.julianDayNumber - x.julianDayNumber = n)
        ∧ (x.lt y = true
            ↔ Gregorian.Date.Before ⟨2000, 2, 29⟩ ⟨5000000, 12, 31⟩)
        ∧ (x.beq y = true
            ↔ (⟨2000, 2, 29⟩ : Gregorian.Date) = ⟨5000000, 12, 31⟩) :=
  getJulianDayNumber_counts (a := ⟨2000, 2, 29⟩) (b := ⟨5000000, 12, 31⟩)
    ⟨by decide, by decide, by decide⟩ ⟨by decide, by decide, by decide⟩

end Cobra
