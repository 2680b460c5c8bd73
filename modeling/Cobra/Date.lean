/-
`Date` (base/Date.h, Date.cc): a day, kept as its Julian day number, and
the two closed forms between the number and the calendar.

# Arithmetic

Everything is an `int` of 32 bits. Each intermediate result goes through
`int`, which fails where the machine's arithmetic overflows; `/` and `%`
are those of C and round towards zero. `Date::YearMonthDay` is a date of
Cobra.Lib.Gregorian, which says nothing about its being valid.

# What it is for

`julianDay` is the Julian day number by the calendar, the one day after
the other.
-/
import Cobra.Lib.Gregorian
import Cobra.Lib.Machine

namespace Cobra

open Machine

/-- What the arithmetic of `int` can run into. -/
inductive CalcFault
  | overflow
  deriving Repr, DecidableEq

/-- The values of `int`. -/
def InInt (x : Int) : Prop := -2147483648 ≤ x ∧ x ≤ 2147483647

instance (x : Int) : Decidable (InInt x) := inferInstanceAs (Decidable (_ ∧ _))

/-- The result of an operation on `int`s. -/
def int (x : Int) : Except CalcFault Int := do
  require (InInt x) .overflow
  .ok x

theorem int_of {x : Int} (hlo : -2147483648 ≤ x) (hhi : x ≤ 2147483647) :
    int x = .ok x := by
  unfold int
  rw [require_bind ⟨hlo, hhi⟩]

/-- A computation that goes on from an `int` has computed it exactly. -/
theorem int_bind_ok_iff {α : Type} {x : Int} {f : Int → Except CalcFault α}
    {c : α} : (int x >>= f) = .ok c ↔ InInt x ∧ f x = .ok c := by
  constructor
  · intro h
    obtain ⟨y, hint, hrest⟩ := bind_ok_inv h
    obtain ⟨u, hreq, hok⟩ := bind_ok_inv hint
    cases hok
    exact ⟨require_inv hreq, hrest⟩
  · intro h
    rw [int_of h.1.1 h.1.2]
    exact h.2

theorem int_ok_iff {x y : Int} : int x = .ok y ↔ InInt x ∧ x = y := by
  have h := int_bind_ok_iff (x := x) (f := Except.ok) (c := y)
  rw [show (int x >>= Except.ok) = int x by cases int x <;> rfl] at h
  rw [h, Except.ok.injEq]

-- ======================================================= the closed forms

def getJulianDayNumber (year month day : Int) : Except CalcFault Int := do
  let a := (← int (14 - month)).tdiv 12
  let y ← int ((← int (year + 4800)) - a)
  let m ← int ((← int (month + (← int (12 * a)))) - 3)
  -- the sum, from left to right
  let days := (← int ((← int (153 * m)) + 2)).tdiv 5
  let sum ← int (day + days)
  let sum ← int (sum + (← int (y * 365)))
  let sum ← int (sum + y.tdiv 4)
  let sum ← int (sum - y.tdiv 100)
  let sum ← int (sum + y.tdiv 400)
  int (sum - 32045)

def getYearMonthDay (julianDayNumber : Int) :
    Except CalcFault Gregorian.Date := do
  let a ← int (julianDayNumber + 32044)
  let b := (← int ((← int (4 * a)) + 3)).tdiv 146097
  let c ← int (a - (← int (b * 146097)).tdiv 4)
  let d := (← int ((← int (4 * c)) + 3)).tdiv 1461
  let e ← int (c - (← int (1461 * d)).tdiv 4)
  let m := (← int ((← int (5 * e)) + 2)).tdiv 153
  let before := (← int ((← int (153 * m)) + 2)).tdiv 5
  let day ← int ((← int (e - before)) + 1)
  let month ← int ((← int (m + 3)) - (← int (12 * m.tdiv 10)))
  let century ← int ((← int (b * 100)) + d)
  let year ← int ((← int (century - 4800)) + m.tdiv 10)
  .ok ⟨year, month, day⟩

-- ============================================================= the class

structure Date where
  julianDayNumber : Int
  deriving Repr, DecidableEq

namespace Date

def kDaysPerWeek : Int := 7

def kJulianDayOf1970_01_01 : Except CalcFault Int := getJulianDayNumber 1970 1 1

/-- `Date(int y, int m, int d)`. -/
def ofYmd (y m d : Int) : Except CalcFault Date := do
  .ok ⟨← getJulianDayNumber y m d⟩

def yearMonthDay (date : Date) : Except CalcFault Gregorian.Date :=
  getYearMonthDay date.julianDayNumber

def weekDay (date : Date) : Except CalcFault Int := do
  .ok ((← int (date.julianDayNumber + 1)).tmod kDaysPerWeek)

/-- `operator<`. -/
def lt (x y : Date) : Bool := x.julianDayNumber < y.julianDayNumber

/-- `operator==`. -/
def beq (x y : Date) : Bool := x.julianDayNumber == y.julianDayNumber

end Date

-- =========================================================== what it is for

/-- The Julian day number of a date: 1721426 on 1 January of the year 1,
and from there one more every day. -/
def julianDay (d : Gregorian.Date) : Int := d.number + 1721425

end Cobra
