/-
The Gregorian calendar, counted from 1 January 1970, and the usual way to
write a second of it down with digits.

A date is found by counting days one by one (`dateOf`). That is slow and
easy to check: `next` is the calendar. Written as one number the date
grows with every day, which is all that is needed to tell two days apart.
-/
import Mathlib.Order.Monotone.Basic

namespace Calendar

-- ============================================================= the days

structure Date where
  year : Nat
  month : Nat
  day : Nat
  deriving Repr, DecidableEq

def isLeap (year : Nat) : Bool :=
  (year % 4 == 0 && year % 100 != 0) || year % 400 == 0

def daysInMonth (year month : Nat) : Nat :=
  if month = 2 then if isLeap year then 29 else 28
  else if month = 4 ∨ month = 6 ∨ month = 9 ∨ month = 11 then 30
  else 31

/-- The day after. -/
def Date.next (d : Date) : Date :=
  if d.day < daysInMonth d.year d.month then { d with day := d.day + 1 }
  else if d.month < 12 then { d with month := d.month + 1, day := 1 }
  else ⟨d.year + 1, 1, 1⟩

/-- The date `n` days after 1 January 1970. -/
def dateOf : Nat → Date
  | 0 => ⟨1970, 1, 1⟩
  | n + 1 => (dateOf n).next

example : dateOf 59 = ⟨1970, 3, 1⟩ ∧ dateOf 789 = ⟨1972, 2, 29⟩ := by
  decide +kernel

structure Date.Valid (d : Date) : Prop where
  month_le : d.month ≤ 12
  day_pos : 1 ≤ d.day
  day_le : d.day ≤ 31

theorem daysInMonth_le (year month : Nat) : daysInMonth year month ≤ 31 := by
  unfold daysInMonth
  split
  next =>
    split
    next => decide
    next => decide
  next =>
    split
    next => decide
    next => exact Nat.le_refl _

theorem Date.Valid.next {d : Date} (h : d.Valid) : d.next.Valid := by
  have hlast := daysInMonth_le d.year d.month
  have hmonth := h.month_le
  unfold Date.next
  split
  next hday =>
    refine ⟨hmonth, Nat.le_add_left .., ?_⟩
    simp only
    omega
  next =>
    split
    next hless => exact ⟨hless, Nat.le_refl _, Nat.le_add_left 1 30⟩
    next =>
      exact ⟨Nat.le_add_left 1 11, Nat.le_refl _, Nat.le_add_left 1 30⟩

theorem dateOf_valid (n : Nat) : (dateOf n).Valid := by
  induction n with
  | zero => exact ⟨by decide, by decide, by decide⟩
  | succ n ih => exact ih.next

/-- The date as one number. -/
def Date.key (d : Date) : Nat := d.year * 10000 + d.month * 100 + d.day

theorem Date.Valid.key_lt_next {d : Date} (h : d.Valid) :
    d.key < d.next.key := by
  have hmonth := h.month_le
  have hday := h.day_le
  unfold Date.next Date.key
  split
  next =>
    simp only
    omega
  next =>
    split
    next =>
      simp only
      omega
    next =>
      simp only
      omega

theorem dateOf_injective {m n : Nat} (h : dateOf m = dateOf n) : m = n := by
  have hmono : StrictMono fun n => (dateOf n).key :=
    strictMono_nat_of_lt_succ fun n => (dateOf_valid n).key_lt_next
  exact hmono.injective (congrArg Date.key h)

-- =========================================================== the digits

/-- A number below 100 with two digits. -/
def twoDigits (n : Nat) : List Char :=
  [Nat.digitChar (n / 10), Nat.digitChar (n % 10)]

theorem twoDigits_injective {m n : Nat} (hm : m < 100) (hn : n < 100)
    (h : twoDigits m = twoDigits n) : m = n := by
  have hdigit : ∀ a < 10, ∀ b < 10, Nat.digitChar a = Nat.digitChar b → a = b := by
    decide
  injection h with htens hrest
  injection hrest with hones
  have h1 := hdigit _ (by omega) _ (by omega) htens
  have h2 := hdigit _ (by omega) _ (by omega) hones
  omega

end Calendar
