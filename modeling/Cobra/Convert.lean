/-
`convert` (base/LogStream.cc) at the integer types, and the numerals that
it and `convertHex` are there to write.

# Types

The template keeps the value in a variable of its type `T` and the digit
in an `int`. The operands of `i % 10` and `i /= 10` are brought to a common
type first, which has them both, so that the results are those on the
integers; what is stored goes through the conversion to the type of the
variable (`IntegralType.cast`). A value comes with the proof that its type has
it.

`convert` of Cobra.LogStream is the same loop on the integers.
-/
import Cobra.Lib.Numeral
import Cobra.LogStream

namespace Cobra

open Machine Window

-- =========================================================== the types

/-- A signed or unsigned integer type of at most 64 bits. -/
structure IntegralType where
  signed : Bool
  bits : Nat
  bits_pos : 0 < bits
  bits_le : bits ≤ 64
  deriving Repr, DecidableEq

namespace IntegralType

/-- How many values there are. -/
def card (t : IntegralType) : Nat := 2 ^ t.bits

/-- The least value. -/
def low (t : IntegralType) : Int :=
  if t.signed then -((2 ^ (t.bits - 1) : Nat) : Int) else 0

/-- The values of the type. -/
def Has (t : IntegralType) (v : Int) : Prop := t.low ≤ v ∧ v < t.low + t.card

instance (t : IntegralType) (v : Int) : Decidable (t.Has v) :=
  inferInstanceAs (Decidable (_ ∧ _))

abbrev Val (t : IntegralType) : Type := { v : Int // t.Has v }

/-- The conversion: the value that differs by a multiple of their number. -/
def cast (t : IntegralType) (v : Int) : Int := t.low + (v - t.low) % t.card

theorem card_pos (t : IntegralType) : 0 < (t.card : Int) :=
  Int.natCast_pos.2 (Nat.two_pow_pos t.bits)

theorem has_cast (t : IntegralType) (v : Int) : t.Has (t.cast v) := by
  have hpos := t.card_pos
  have hlow := Int.emod_nonneg (v - t.low) (Int.ne_of_gt hpos)
  have hhigh := Int.emod_lt_of_pos (v - t.low) hpos
  unfold Has cast
  omega

def ofInt (t : IntegralType) (v : Int) : t.Val := ⟨t.cast v, t.has_cast v⟩

/-- A value that the type has is not changed. -/
theorem cast_of_has {t : IntegralType} {v : Int} (h : t.Has v) : t.cast v = v := by
  obtain ⟨hlow, hhigh⟩ := h
  unfold cast
  rw [Int.emod_eq_of_lt (by omega) (by omega)]
  omega

/-- Every type has zero. -/
theorem has_zero (t : IntegralType) : t.Has 0 := by
  have hpos := t.card_pos
  have hbits := t.bits_pos
  have hlt : 2 ^ (t.bits - 1) < t.card :=
    Nat.pow_lt_pow_right (by decide) (by omega)
  unfold Has low
  generalize 2 ^ (t.bits - 1) = half at hlt
  split
  · omega
  · omega

/-- A quotient is between the number and zero. -/
theorem has_tdiv {t : IntegralType} {v : Int} (h : t.Has v) (k : Nat) :
    t.Has (v.tdiv k) := by
  have hzero := t.has_zero
  unfold Has at *
  rcases Int.le_total 0 v with hpos | hneg
  · have hlow : 0 ≤ v.tdiv k := Int.tdiv_nonneg hpos (Int.natCast_nonneg k)
    have hhigh : v.tdiv k ≤ v := Int.tdiv_le_self k hpos
    omega
  · have hlow : 0 ≤ (-v).tdiv k :=
      Int.tdiv_nonneg (by omega) (Int.natCast_nonneg k)
    have hhigh : (-v).tdiv k ≤ -v := Int.tdiv_le_self k (by omega)
    rw [Int.neg_tdiv] at hlow hhigh
    omega

/-- `i /= 10` loses nothing in the type. -/
theorem ofInt_tdiv {t : IntegralType} (v : t.Val) (k : Nat) :
    (t.ofInt (v.val.tdiv k)).val = v.val.tdiv k :=
  cast_of_has (has_tdiv v.property k)

def int : IntegralType := ⟨true, 32, by decide, by decide⟩

end IntegralType

-- ============================================================ the code

namespace Detail

theorem natAbs_tdiv_ten_lt {i : Int} (h : i.tdiv 10 ≠ 0) :
    (i.tdiv 10).natAbs < i.natAbs := by
  have hne : i.natAbs ≠ 0 := by
    intro hzero
    rw [Int.natAbs_eq_zero.1 hzero, Int.zero_tdiv] at h
    exact h rfl
  rw [Int.natAbs_tdiv]
  exact Nat.div_lt_self (Nat.pos_of_ne_zero hne) (by decide)

/-- `do { .. } while (i != 0)` with `T i` and `int lsd`. -/
def convertLoop (t : IntegralType) (mem : List UInt8) (p : Nat) (i : t.Val) :
    Except StreamFault (List UInt8 × Nat) := do
  let lsd := IntegralType.int.ofInt (i.val.tmod 10)
  let i' := t.ofInt (i.val.tdiv 10)
  let c ← element digits (zero + lsd.val)
  let mem ← put mem p [c]
  if i'.val ≠ 0 then convertLoop t mem (p + 1) i' else .ok (mem, p + 1)
termination_by i.val.natAbs
decreasing_by
  rename_i hmore
  have hi : i'.val = i.val.tdiv 10 := IntegralType.ofInt_tdiv i 10
  rw [hi] at hmore ⊢
  exact natAbs_tdiv_ten_lt hmore

/-- `convert<T>`: the memory after the call, and the length. -/
def convertAs (t : IntegralType) (mem : List UInt8) (buf : Nat) (value : t.Val) :
    Except StreamFault (List UInt8 × Nat) := do
  let (mem, p) ← convertLoop t mem buf value
  let (mem, p) ← putSign mem p value.val
  let mem ← put mem p [0]
  let mem ← reverse mem buf p
  .ok (mem, p - buf)

end Detail

-- ======================================================== the numerals

section Digits

variable {c : UInt8} {d : Nat}

def decimalChar (d : Nat) : UInt8 := UInt8.ofNat (48 + d)

def decimalDigit (c : UInt8) : Option Nat :=
  if 48 ≤ c.toNat ∧ c.toNat < 58 then some (c.toNat - 48) else none

theorem decimalDigit_inv (h : decimalDigit c = some d) :
    d < 10 ∧ c.toNat = 48 + d := by
  unfold decimalDigit at h
  split at h
  next hc =>
    cases h
    omega
  next => cases h

theorem decimalDigit_char (h : d < 10) :
    decimalDigit (decimalChar d) = some d := by
  unfold decimalDigit decimalChar
  rw [UInt8.toNat_ofNat', Nat.mod_eq_of_lt (by omega), if_pos (by omega),
    Nat.add_sub_cancel_left]

theorem decimalDigit_lt (h : decimalDigit c = some d) : d < 10 :=
  (decimalDigit_inv h).1

theorem decimalChar_digit (h : decimalDigit c = some d) :
    decimalChar d = c := by
  unfold decimalChar
  rw [← (decimalDigit_inv h).2, UInt8.ofNat_toNat]

theorem one_lt_ten : 1 < 10 := by decide

/-- `'0'` to `'9'`. -/
def decimalDigits : Numeral.Alphabet UInt8 where
  base := 10
  char := decimalChar
  digit := decimalDigit
  one_lt_base := one_lt_ten
  digit_char := decimalDigit_char
  digit_lt := decimalDigit_lt
  char_digit := decimalChar_digit

/-- The digits above nine are letters in upper case. -/
def hexChar (d : Nat) : UInt8 :=
  UInt8.ofNat (if d < 10 then 48 + d else 55 + d)

def hexDigit (c : UInt8) : Option Nat :=
  if 48 ≤ c.toNat ∧ c.toNat < 58 then some (c.toNat - 48)
  else if 65 ≤ c.toNat ∧ c.toNat < 71 then some (c.toNat - 55)
  else none

theorem hexDigit_inv (h : hexDigit c = some d) :
    d < 16 ∧ c.toNat = if d < 10 then 48 + d else 55 + d := by
  unfold hexDigit at h
  split at h
  next hc =>
    cases h
    rw [if_pos (by omega)]
    omega
  next =>
    split at h
    next hc =>
      cases h
      rw [if_neg (by omega)]
      omega
    next => cases h

theorem hexDigit_char (h : d < 16) : hexDigit (hexChar d) = some d := by
  unfold hexDigit hexChar
  by_cases hlt : d < 10
  · rw [if_pos hlt, UInt8.toNat_ofNat', Nat.mod_eq_of_lt (by omega),
      if_pos (by omega), Nat.add_sub_cancel_left]
  · rw [if_neg hlt, UInt8.toNat_ofNat', Nat.mod_eq_of_lt (by omega),
      if_neg (by omega), if_pos (by omega), Nat.add_sub_cancel_left]

theorem hexDigit_lt (h : hexDigit c = some d) : d < 16 := (hexDigit_inv h).1

theorem hexChar_digit (h : hexDigit c = some d) : hexChar d = c := by
  unfold hexChar
  rw [← (hexDigit_inv h).2, UInt8.ofNat_toNat]

theorem one_lt_sixteen : 1 < 16 := by decide

/-- `'0'` to `'9'`, and `'A'` to `'F'`. -/
def hexDigits : Numeral.Alphabet UInt8 where
  base := 16
  char := hexChar
  digit := hexDigit
  one_lt_base := one_lt_sixteen
  digit_char := hexDigit_char
  digit_lt := hexDigit_lt
  char_digit := hexChar_digit

end Digits

/-- `'-'`. -/
def minusSign : UInt8 := 45

/-- What is behind the sign. -/
def magnitude (s : List UInt8) : List UInt8 :=
  if s.head? = some minusSign then s.tail else s

/-- The value of a decimal numeral with or without a sign. -/
def readDecimal (s : List UInt8) : Option Int :=
  (decimalDigits.read (magnitude s)).map fun n : Nat =>
    if s.head? = some minusSign then -(n : Int) else (n : Int)

/-- The sign is there for the negative values, and no zeros in front. -/
def CanonicalDecimal (v : Int) (s : List UInt8) : Prop :=
  (s.head? = some minusSign ↔ v < 0) ∧ decimalDigits.Canonical (magnitude s)

end Cobra
