/-
`TimeZone::toUtcTime` and `fromUtcTime` (base/TimeZone.cc): a `time_t`
and the broken-down time in UTC, by way of `Date`.

# Arithmetic

`int` and its overflow are those of Cobra.Date; a `time_t` has 64 bits
and goes through `time`. A conversion to a narrower type keeps the low
bits (`castTime`, and the `unsigned` argument of `fillHMS`).
-/
import Cobra.Date

namespace Cobra

open Machine

/-- `struct tm`. `tm_zone` points into the text given here. -/
structure Tm where
  sec : Int
  min : Int
  hour : Int
  mday : Int
  mon : Int
  year : Int
  wday : Int
  yday : Int
  isdst : Int
  gmtoff : Int
  zone : Option (List UInt8)
  deriving Repr, DecidableEq

namespace Tm

/-- A `struct tm` after `bzero`. -/
def zero : Tm := ⟨0, 0, 0, 0, 0, 0, 0, 0, 0, 0, none⟩

/-- The date, with the offsets that `struct tm` has taken off. -/
def date (utc : Tm) : Gregorian.Date := ⟨utc.year + 1900, utc.mon + 1, utc.mday⟩

/-- What a broken-down time is compared by. -/
def fields (utc : Tm) : List Int :=
  [utc.year, utc.mon, utc.mday, utc.hour, utc.min, utc.sec]

end Tm

/-- The values of `time_t`. -/
def InTime (x : Int) : Prop :=
  -9223372036854775808 ≤ x ∧ x ≤ 9223372036854775807

instance (x : Int) : Decidable (InTime x) := inferInstanceAs (Decidable (_ ∧ _))

/-- The result of an operation on `time_t`s. -/
def time (x : Int) : Except CalcFault Int := do
  require (InTime x) .overflow
  .ok x

theorem time_of {x : Int} (hlo : -9223372036854775808 ≤ x)
    (hhi : x ≤ 9223372036854775807) : time x = .ok x := by
  unfold time
  rw [require_bind ⟨hlo, hhi⟩]

/-- `static_cast<int>` of a `time_t`. -/
def castTime (x : Int) : Int := (x + 2147483648) % 4294967296 - 2147483648

def kSecondsPerDay : Int := 24 * 60 * 60

/-- The characters of `"GMT"`. -/
def gmt : List UInt8 := [71, 77, 84]

def fillHMS (seconds : Nat) (utc : Tm) : Tm :=
  let minutes := seconds / 60
  { utc with
    sec := (seconds % 60 : Nat)
    min := (minutes % 60 : Nat)
    hour := (minutes / 60 : Nat) }

/-- The locals `seconds` and `days` of `toUtcTime`, corrected for the
times before 1970. -/
def splitDay (secondsSinceEpoch : Int) : Except CalcFault (Int × Int) :=
  let seconds := castTime (secondsSinceEpoch.tmod kSecondsPerDay)
  let days := castTime (secondsSinceEpoch.tdiv kSecondsPerDay)
  if seconds < 0 then do
    .ok (← int (seconds + kSecondsPerDay), ← int (days - 1))
  else .ok (seconds, days)

/-- `tm_yday`, which only a caller that asks for it gets. -/
def yearDay (date : Date) (ymd : Gregorian.Date) (yday : Bool) :
    Except CalcFault Int :=
  if yday then do
    let startOfYear ← Date.ofYmd ymd.year 1 1
    int (date.julianDayNumber - startOfYear.julianDayNumber)
  else .ok 0

def toUtcTime (secondsSinceEpoch : Int) (yday : Bool) :
    Except CalcFault Tm := do
  let (seconds, days) ← splitDay secondsSinceEpoch
  let utc := fillHMS (seconds % 4294967296).toNat { Tm.zero with zone := gmt }
  let date : Date := ⟨← int (days + (← Date.kJulianDayOf1970_01_01))⟩
  let ymd ← date.yearMonthDay
  .ok { utc with
    year := ← int (ymd.year - 1900)
    mon := ← int (ymd.month - 1)
    mday := ymd.day
    wday := ← date.weekDay
    yday := ← yearDay date ymd yday }

/-- `fromUtcTime(int year, int month, int day, int hour, int minute,
int seconds)`. -/
def fromUtcFields (year month day hour minute seconds : Int) :
    Except CalcFault Int := do
  let date ← Date.ofYmd year month day
  let secondsInDay ←
    int ((← int ((← int (hour * 3600)) + (← int (minute * 60)))) + seconds)
  let days ← int (date.julianDayNumber - (← Date.kJulianDayOf1970_01_01))
  time ((← time (days * kSecondsPerDay)) + secondsInDay)

/-- `fromUtcTime(const struct tm& utc)`. -/
def fromUtcTime (utc : Tm) : Except CalcFault Int := do
  fromUtcFields (← int (utc.year + 1900)) (← int (utc.mon + 1)) utc.mday
    utc.hour utc.min utc.sec

end Cobra
