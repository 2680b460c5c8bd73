/-
The days of the two calendars are the same, and the usual way to write a
second down puts the texts in the order of the seconds.

`stampKey` is a second as one number, with two digits for each field below
the year. It grows with every second, so that a text of one width for the
key is one for the second.
-/
import Cobra.Lib.Calendar
import Cobra.Lib.FixedWidth
import Cobra.Lib.Gregorian

namespace Calendar

-- ======================================================== the calendars

def Date.gregorian (d : Date) : Gregorian.Date := ⟨d.year, d.month, d.day⟩

theorem isLeap_cast (year : Nat) : Gregorian.isLeap year = isLeap year := by
  have h4 : ((year : Int) % 4 == 0) = (year % 4 == 0) := by
    rw [Bool.eq_iff_iff, beq_iff_eq, beq_iff_eq]
    omega
  have h100 : ((year : Int) % 100 != 0) = (year % 100 != 0) := by
    rw [Bool.eq_iff_iff, bne_iff_ne, bne_iff_ne]
    omega
  have h400 : ((year : Int) % 400 == 0) = (year % 400 == 0) := by
    rw [Bool.eq_iff_iff, beq_iff_eq, beq_iff_eq]
    omega
  unfold Gregorian.isLeap isLeap
  rw [h4, h100, h400]

theorem daysInMonth_cast (year month : Nat) :
    Gregorian.daysInMonth year month = daysInMonth year month := by
  have hfeb : (month : Int) = 2 ↔ month = 2 := by omega
  have hshort : ((month : Int) = 4 ∨ (month : Int) = 6 ∨ (month : Int) = 9
      ∨ (month : Int) = 11) ↔ (month = 4 ∨ month = 6 ∨ month = 9 ∨ month = 11) := by
    omega
  unfold Gregorian.daysInMonth daysInMonth
  simp only [isLeap_cast, hfeb, hshort]
  by_cases h2 : month = 2
  · simp only [if_pos h2]
    cases isLeap year with
    | true => rfl
    | false => rfl
  · simp only [if_neg h2]
    by_cases h30 : month = 4 ∨ month = 6 ∨ month = 9 ∨ month = 11
    · simp only [if_pos h30]
      rfl
    · simp only [if_neg h30]
      rfl

theorem gregorian_next (d : Date) : d.next.gregorian = d.gregorian.next := by
  have hdays := daysInMonth_cast d.year d.month
  have hlast : (d.day : Int) < daysInMonth d.year d.month
      ↔ d.day < daysInMonth d.year d.month := Int.ofNat_lt
  have hmonth : (d.month : Int) < 12 ↔ d.month < 12 := by omega
  unfold Date.next Gregorian.Date.next
  simp only [Date.gregorian, hdays, hlast, hmonth]
  split
  next => rfl
  next =>
    split
    next => rfl
    next => rfl

theorem gregorian_dateOf (n : Nat) :
    (dateOf n).gregorian = Gregorian.Date.next^[n] ⟨1970, 1, 1⟩ := by
  induction n with
  | zero => rfl
  | succ n ih =>
      rw [Function.iterate_succ_apply', ← ih, ← gregorian_next]
      rfl

/-- The first 2932897 days have a year of four digits. -/
theorem dateOf_year_bounds (n : Nat) :
    1970 ≤ (dateOf n).year
      ∧ ((dateOf n).year ≤ 9999 ↔ n < 2932897) := by
  have hfirst : (⟨1970, 1, 1⟩ : Gregorian.Date).Valid := by decide
  have hvalid := Gregorian.iterate_next_valid hfirst n
  have hnumber := Gregorian.number_iterate_next hfirst n
  rw [← gregorian_dateOf] at hvalid hnumber
  obtain ⟨hlow, hhigh⟩ := Gregorian.number_bounds hvalid
  have hepoch : (⟨1970, 1, 1⟩ : Gregorian.Date).number = 719163 := by decide
  have hyear : (dateOf n).gregorian.year = (dateOf n).year := rfl
  rw [hnumber, hepoch, hyear] at hlow hhigh
  unfold Gregorian.daysBeforeYear at hlow hhigh
  omega

-- ============================================================= the text

theorem digit_fixed : FixedWidth 1 10 fun n => [Nat.digitChar n] where
  width _ _ := rfl
  mono m n hlt hn := by
    have hdigit : ∀ n < 10, ∀ m < n, Nat.digitChar m < Nat.digitChar n := by
      decide
    exact List.cons_lt_cons_iff.2 (.inl (hdigit n hn m hlt))

theorem twoDigits_fixed : FixedWidth 2 100 twoDigits :=
  digit_fixed.pair digit_fixed (by decide)

/-- The second `n` after the epoch: `YYYYMMDDhhmmss`. -/
def stampKey (n : Nat) : Nat :=
  (dateOf (n / 86400)).key * 1000000
    + (n % 86400 / 3600 * 10000 + n % 86400 % 3600 / 60 * 100
      + n % 86400 % 60)

theorem stampKey_strictMono : StrictMono stampKey := by
  have hkey : StrictMono fun n => (dateOf n).key :=
    strictMono_nat_of_lt_succ fun n => (dateOf_valid n).key_lt_next
  intro m n hlt
  unfold stampKey
  obtain hday | hday := Nat.lt_or_eq_of_le
    (Nat.div_le_div_right (c := 86400) (Nat.le_of_lt hlt))
  · have hdate : (dateOf (m / 86400)).key < (dateOf (n / 86400)).key :=
      hkey hday
    omega
  · rw [hday]
    omega

/-- The second `n` after the epoch, with four digits for the year, `a`
between the day and the time, and `b` within the time. -/
def stampText (a b : List Char) (n : Nat) : List Char :=
  let date := dateOf (n / 86400)
  let second := n % 86400
  twoDigits (date.year / 100) ++ twoDigits (date.year % 100)
    ++ twoDigits date.month ++ twoDigits date.day ++ a
    ++ twoDigits (second / 3600) ++ b ++ twoDigits (second % 3600 / 60) ++ b
    ++ twoDigits (second % 60)

/-- The fields of a key, from the last one on. -/
theorem stampText_of_key (a b : List Char) (n : Nat) :
    stampText a b n = (fun k => twoDigits (k / 100 / 100 / 100 / 100 / 100 / 100)
      ++ twoDigits (k / 100 / 100 / 100 / 100 / 100 % 100)
      ++ twoDigits (k / 100 / 100 / 100 / 100 % 100)
      ++ twoDigits (k / 100 / 100 / 100 % 100) ++ a
      ++ twoDigits (k / 100 / 100 % 100) ++ b ++ twoDigits (k / 100 % 100) ++ b
      ++ twoDigits (k % 100)) (stampKey n) := by
  have hvalid := dateOf_valid (n / 86400)
  have hmonth := hvalid.month_le
  have hday := hvalid.day_le
  have h1 : stampKey n % 100 = n % 86400 % 60 := by
    unfold stampKey
    omega
  have h2 : stampKey n / 100 % 100 = n % 86400 % 3600 / 60 := by
    unfold stampKey
    omega
  have h3 : stampKey n / 100 / 100 % 100 = n % 86400 / 3600 := by
    unfold stampKey
    omega
  have hdate : stampKey n / 100 / 100 / 100 = (dateOf (n / 86400)).key := by
    unfold stampKey
    omega
  have h4 : (dateOf (n / 86400)).key % 100 = (dateOf (n / 86400)).day := by
    unfold Date.key
    omega
  have h5 : (dateOf (n / 86400)).key / 100 % 100
      = (dateOf (n / 86400)).month := by
    unfold Date.key
    omega
  have h6 : (dateOf (n / 86400)).key / 100 / 100
      = (dateOf (n / 86400)).year := by
    unfold Date.key
    omega
  simp only [h1, h2, h3, hdate, h4, h5, h6, stampText]

/-- Up to the year 9999 the texts are ordered as the seconds. -/
theorem stampText_fixed (a b : List Char) :
    FixedWidth (14 + a.length + 2 * b.length) 253402300800 (stampText a b) := by
  have hkey := ((((((((twoDigits_fixed.pair twoDigits_fixed (by decide)).pair
    twoDigits_fixed (by decide)).pair twoDigits_fixed (by decide)).suffixed
    a).pair twoDigits_fixed (by decide)).suffixed b).pair twoDigits_fixed
    (by decide)).suffixed b).pair twoDigits_fixed (by decide)
  have hbound : ∀ n < 253402300800,
      stampKey n < 100 * 100 * 100 * 100 * 100 * 100 * 100 := by
    intro n hn
    have hyear := (dateOf_year_bounds (n / 86400)).2.2 (by omega)
    have hvalid := dateOf_valid (n / 86400)
    have hmonth := hvalid.month_le
    have hday := hvalid.day_le
    unfold stampKey Date.key
    omega
  refine ⟨fun n hn => ?_, fun m n hlt hn => ?_⟩
  · have hwidth := hkey.width _ (hbound n hn)
    rw [stampText_of_key]
    refine hwidth.trans ?_
    omega
  · rw [stampText_of_key, stampText_of_key]
    exact hkey.mono _ _ (stampKey_strictMono hlt) (hbound n hn)

end Calendar
