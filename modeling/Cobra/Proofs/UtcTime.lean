/-
`toUtcTime` and `fromUtcTime` (Cobra.UtcTime) are inverse to each other,
and what they make of a time is the calendar's.

# Main result

`toUtcTime_roundtrip`, for every time whose day `getYearMonthDay` can
take apart. The time is split into a day and a second of the day, with
divisions that round down (`splitDay_eq`); the day becomes a date by
Cobra.Proofs.Date, the second hours, minutes and seconds (`utcOf`).
-/
import Cobra.Proofs.Date
import Cobra.UtcTime

namespace Cobra

open Machine

/-- The Julian day number of a time. -/
def dayOf (t : Int) : Int := t / 86400 + 2440588

/-- The times that `toUtcTime` is right for. -/
structure Dated (t : Int) : Prop where
  day_nonneg : 0 ≤ dayOf t
  day_le : dayOf t ≤ kMaxJulianDay

/-- The broken-down time of a second of a date. -/
def utcOf (second : Nat) (d : Gregorian.Date) (yday : Int) : Tm where
  sec := (second % 60 : Nat)
  min := (second / 60 % 60 : Nat)
  hour := (second / 60 / 60 : Nat)
  mday := d.day
  mon := d.month - 1
  year := d.year - 1900
  wday := d.weekday
  yday := yday
  isdst := 0
  gmtoff := 0
  zone := gmt

/-- The days since 1 January. -/
def dayOfYear (d : Gregorian.Date) : Int :=
  d.number - Gregorian.Date.number ⟨d.year, 1, 1⟩

-- ============================================================ splitting

/-- The quotient and the remainder, rounded down. -/
theorem splitDay_eq {t : Int} (h : Dated t) :
    splitDay t = .ok (t % 86400, t / 86400) := by
  have h0 := h.day_nonneg
  have h1 := h.day_le
  unfold dayOf kMaxJulianDay at h1
  unfold dayOf at h0
  unfold splitDay castTime
  rw [show kSecondsPerDay = 86400 from rfl]
  by_cases hneg : 0 ≤ t
  · rw [Int.tmod_eq_emod_of_nonneg hneg, Int.tdiv_eq_ediv_of_nonneg hneg]
    simp only
    rw [if_neg (by omega)]
    congr 2
    · omega
    · omega
  · obtain ⟨z, rfl⟩ : ∃ z, t = -z := ⟨-t, by omega⟩
    rw [Int.neg_tmod, Int.neg_tdiv, Int.tmod_eq_emod_of_nonneg (by omega),
      Int.tdiv_eq_ediv_of_nonneg (by omega)]
    simp only
    split
    next hrest =>
      rw [int_of (by omega) (by omega), int_of (by omega) (by omega)]
      simp only [ok_bind]
      congr 2
      · omega
      · omega
    next hrest =>
      congr 2
      · omega
      · omega

theorem kJulianDayOf1970_eq : Date.kJulianDayOf1970_01_01 = .ok 2440588 := by
  decide +kernel

-- ============================================================= the fields

theorem weekDay_eq {d : Gregorian.Date} (h0 : 0 ≤ julianDay d)
    (h1 : julianDay d ≤ kMaxJulianDay) :
    Date.weekDay ⟨julianDay d⟩ = .ok d.weekday := by
  unfold kMaxJulianDay at h1
  unfold Date.weekDay Date.kDaysPerWeek Gregorian.Date.weekday
  simp only
  rw [int_of (by omega) (by omega), ok_bind,
    Int.tmod_eq_emod_of_nonneg (by omega)]
  unfold julianDay
  congr 1
  omega

/-- 1 January of the year of a reckoned date. -/
theorem Reckoned.newYear {d : Gregorian.Date} (h : Reckoned d) :
    Reckoned ⟨d.year, 1, 1⟩ :=
  ⟨⟨Int.le_refl 1, by simp only; omega, Int.le_refl 1,
    Int.le_trans (by decide : (1 : Int) ≤ 28) (Gregorian.daysInMonth_ge _ _)⟩,
    h.year_ge, h.year_le⟩

/-- `tm_yday` counts the days since 1 January. -/
theorem dayOfYear_bounds {d : Gregorian.Date} (h : d.Valid) :
    0 ≤ dayOfYear d ∧ dayOfYear d ≤ 365 := by
  have hbounds := Gregorian.number_bounds h
  have hfirst : Gregorian.Date.number ⟨d.year, 1, 1⟩
      = Gregorian.daysBeforeYear d.year + 1 := by
    unfold Gregorian.Date.number
    simp only [Int.sub_self, Int.toNat_zero, Gregorian.daysBefore]
    omega
  unfold dayOfYear
  rw [hfirst]
  unfold Gregorian.daysBeforeYear at hbounds ⊢
  omega

theorem yearDay_eq {d : Gregorian.Date} (h : Reckoned d) (yday : Bool) :
    yearDay ⟨julianDay d⟩ d yday = .ok (if yday then dayOfYear d else 0) := by
  unfold yearDay
  cases yday with
  | false => rfl
  | true =>
      have hbounds := dayOfYear_bounds h.valid
      have hdiff : julianDay d - julianDay ⟨d.year, 1, 1⟩ = dayOfYear d := by
        unfold julianDay dayOfYear
        omega
      simp only [if_true]
      rw [ofYmd_eq h.newYear, ok_bind, hdiff]
      exact int_of (by omega) (by omega)

/-- What `toUtcTime` returns. -/
theorem toUtcTime_eq {t : Int} (h : Dated t) (yday : Bool) :
    ∃ d, Reckoned d ∧ julianDay d = dayOf t ∧ toUtcTime t yday
      = .ok (utcOf (t % 86400).toNat d (if yday then dayOfYear d else 0)) := by
  obtain ⟨d, hdate, hreck, hday⟩ := getYearMonthDay_date h.day_nonneg h.day_le
  refine ⟨d, hreck, hday, ?_⟩
  have h0 := h.day_nonneg
  have h1 := h.day_le
  have hwday := weekDay_eq (hday ▸ h0) (hday ▸ h1)
  have hyday := yearDay_eq hreck yday
  have hlo := hreck.year_ge
  have hhi := hreck.year_le
  have hmonth := hreck.valid.month_pos
  have hmonth' := hreck.valid.month_le
  have hsec : (t % 86400 % 4294967296).toNat = (t % 86400).toNat := by omega
  rw [hday] at hwday hyday
  unfold kMaxJulianDay at h1
  unfold dayOf at h0 h1 hdate hwday hyday
  unfold toUtcTime Date.yearMonthDay
  rw [splitDay_eq h, ok_bind]
  dsimp only
  rw [kJulianDayOf1970_eq, ok_bind, int_of (by omega) (by omega), ok_bind]
  rw [hdate, ok_bind, int_of (by omega) (by omega), ok_bind,
    int_of (by omega) (by omega), ok_bind, hwday, ok_bind, hyday, ok_bind]
  unfold fillHMS utcOf Tm.zero
  simp only [hsec]

-- ======================================================== the way back

theorem fromUtcTime_utcOf {t : Int} {d : Gregorian.Date} (h : Reckoned d)
    (hday : julianDay d = dayOf t) (hdated : Dated t) (yday : Int) :
    fromUtcTime (utcOf (t % 86400).toNat d yday) = .ok t := by
  have h0 := hdated.day_nonneg
  have h1 := hdated.day_le
  have hlo := h.year_ge
  have hhi := h.year_le
  have hmonth := h.valid.month_pos
  have hmonth' := h.valid.month_le
  unfold kMaxJulianDay at h1
  obtain ⟨s, hs⟩ : ∃ s, s = (t % 86400).toNat := ⟨_, rfl⟩
  have hs' : s < 86400 := by omega
  have hsum : ((s / 60 / 60 : Nat) : Int) * 3600 + ((s / 60 % 60 : Nat) : Int) * 60
      + ((s % 60 : Nat) : Int) = t % 86400 := by omega
  unfold dayOf at h0 h1 hday
  unfold fromUtcTime utcOf fromUtcFields
  rw [← hs]
  simp only [Int.sub_add_cancel]
  rw [int_of (by omega) (by omega), ok_bind, int_of (by omega) (by omega),
    ok_bind, ofYmd_eq h, ok_bind, kJulianDayOf1970_eq]
  simp (disch := omega) only [int_of, ok_bind, hday, hsum]
  rw [show kSecondsPerDay = 86400 from rfl, time_of (by omega) (by omega),
    ok_bind, time_of (by omega) (by omega)]
  congr 1
  omega

-- ============================================================ the theorem

/-- A broken-down time has the fields of its second and its date. -/
structure Tm.WellFormed (utc : Tm) : Prop where
  sec : 0 ≤ utc.sec ∧ utc.sec ≤ 59
  min : 0 ≤ utc.min ∧ utc.min ≤ 59
  hour : 0 ≤ utc.hour ∧ utc.hour ≤ 23
  date : utc.date.Valid

theorem date_utcOf (s : Nat) (d : Gregorian.Date) (yday : Int) :
    (utcOf s d yday).date = d := by
  unfold Tm.date utcOf
  simp only [Int.sub_add_cancel]

theorem wellFormed_utcOf {s : Nat} (hs : s < 86400) {d : Gregorian.Date}
    (h : d.Valid) (yday : Int) : (utcOf s d yday).WellFormed := by
  refine ⟨?_, ?_, ?_, (date_utcOf s d yday).symm ▸ h⟩
  · simp only [utcOf]
    omega
  · simp only [utcOf]
    omega
  · simp only [utcOf]
    omega

/-- The fields of a later time are greater. -/
theorem fields_lt {t u : Int} (h : t < u) {d e : Gregorian.Date}
    (hd : d.Valid) (he : e.Valid) (hday : julianDay d = dayOf t)
    (heday : julianDay e = dayOf u) (yday yday' : Int) :
    (utcOf (t % 86400).toNat d yday).fields
      < (utcOf (u % 86400).toNat e yday').fields := by
  unfold julianDay dayOf at hday heday
  unfold Tm.fields utcOf
  simp only [List.cons_lt_cons_iff]
  by_cases hsame : t / 86400 = u / 86400
  · obtain rfl : d = e := Gregorian.number_injective hd he (by omega)
    omega
  · have hbefore := (Gregorian.before_iff hd he).2 (by omega)
    unfold Gregorian.Date.Before at hbefore
    omega

/-- `toUtcTime` gives the date, the weekday and the day of the year by the
calendar, without an overflow, `fromUtcTime` gives the time back, and later
times have greater fields. -/
theorem toUtcTime_roundtrip {t : Int} (h : Dated t) :
    (∃ utc, toUtcTime t true = .ok utc
      ∧ utc.WellFormed
      ∧ julianDay utc.date = dayOf t
      ∧ utc.wday = utc.date.weekday
      ∧ (∃ n : Nat, utc.yday = n
          ∧ Gregorian.Date.next^[n] ⟨utc.date.year, 1, 1⟩ = utc.date)
      ∧ ∀ u, Dated u → t < u → ∃ utc', toUtcTime u true = .ok utc'
          ∧ utc.fields < utc'.fields)
    ∧ ∀ yday, ∃ utc, toUtcTime t yday = .ok utc ∧ fromUtcTime utc = .ok t := by
  constructor
  · obtain ⟨d, hreck, hday, hok⟩ := toUtcTime_eq h true
    have hyday := dayOfYear_bounds hreck.valid
    have hdate := date_utcOf (t % 86400).toNat d (dayOfYear d)
    refine ⟨_, hok, wellFormed_utcOf (by omega) hreck.valid _, ?_⟩
    rw [if_pos rfl, hdate]
    refine ⟨hday, rfl, ⟨(dayOfYear d).toNat, ?_, ?_⟩, ?_⟩
    · simp only [utcOf]
      omega
    · rw [Gregorian.iterate_next_eq_iff hreck.newYear.valid hreck.valid]
      unfold dayOfYear at hyday ⊢
      omega
    · intro u hu hlt
      obtain ⟨e, hreck', hday', hok'⟩ := toUtcTime_eq hu true
      exact ⟨_, hok', fields_lt hlt hreck.valid hreck'.valid hday hday' _ _⟩
  · intro yday
    obtain ⟨d, hreck, hday, hok⟩ := toUtcTime_eq h yday
    exact ⟨_, hok, fromUtcTime_utcOf hreck hday h _⟩

/-- The last second before 1970. -/
theorem toUtcTime_roundtrip_before_epoch :
    (∃ utc, toUtcTime (-1) true = .ok utc
      ∧ utc.WellFormed
      ∧ julianDay utc.date = dayOf (-1)
      ∧ utc.wday = utc.date.weekday
      ∧ (∃ n : Nat, utc.yday = n
          ∧ Gregorian.Date.next^[n] ⟨utc.date.year, 1, 1⟩ = utc.date)
      ∧ ∀ u, Dated u → -1 < u → ∃ utc', toUtcTime u true = .ok utc'
          ∧ utc.fields < utc'.fields)
    ∧ ∀ yday, ∃ utc, toUtcTime (-1) yday = .ok utc
        ∧ fromUtcTime utc = .ok (-1) :=
  toUtcTime_roundtrip ⟨by decide, by decide⟩

end Cobra
