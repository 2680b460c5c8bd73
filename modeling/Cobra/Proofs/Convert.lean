/-
`convert` and `convertHex` write the canonical numeral, for every value of
every integer type.

# The argument

The variables of `convert` hold what the integers would be: a digit fits
into an `int`, and a quotient lies between the value and zero, so that the
type has it, the least value of a signed type included (`convertAs_eq`).
What the loop on the integers writes is known (`convert_ok`). It is the
one word that has no zeros in front, has a sign for the negative values
alone, and reads as the value (`decimal_iff`, `hexadecimal_iff`).
-/
import Cobra.Convert
import Cobra.Proofs.LogStream

namespace Cobra

open Machine Window Detail Numeral

-- =========================================================== the types

namespace IntegralType

/-- A remainder by ten fits into an `int`. -/
theorem int_ofInt_tmod (i : Int) :
    (int.ofInt (i.tmod 10)).val = i.tmod 10 := by
  have habs : (i.tmod 10).natAbs < 10 := by
    rw [Int.natAbs_tmod]
    exact Nat.mod_lt _ (by decide)
  have hlow : int.low = -2147483648 := by decide
  have hcard : int.card = 4294967296 := by decide
  apply cast_of_has
  unfold Has
  rw [hlow, hcard]
  omega

/-- The types have 64 bits at most. -/
theorem Has.in64 {t : IntegralType} {v : Int} (h : t.Has v) : In64 v := by
  have hbits := t.bits_pos
  have hmax := t.bits_le
  have hcard : t.card = 2 ^ (t.bits - 1) + 2 ^ (t.bits - 1) := by
    unfold card
    rw [← Nat.two_mul, ← Nat.pow_succ', Nat.succ_eq_add_one,
      Nat.sub_add_cancel hbits]
  have hhalf : 2 ^ (t.bits - 1) ≤ 9223372036854775808 :=
    Nat.pow_le_pow_right (n := 2) (j := 63) (by decide) (by omega)
  unfold Has low at h
  unfold In64
  rw [hcard] at h
  generalize 2 ^ (t.bits - 1) = half at h hhalf
  split at h
  · omega
  · omega

end IntegralType

namespace Detail

/-- The loop at a type is the loop on the integers. -/
theorem convertLoop_eq (t : IntegralType) (mem : List UInt8) (p : Nat)
    (i : t.Val) :
    convertLoop t mem p i = digitLoop 10 (by decide) digits zero mem p i.val := by
  induction hn : i.val.natAbs using Nat.strongRecOn
    generalizing mem p i with
  | ind n ih =>
      rw [convertLoop, digitLoop]
      have hi : (t.ofInt (i.val.tdiv 10)).val = i.val.tdiv 10 :=
        IntegralType.ofInt_tdiv i 10
      show (element digits (zero + (IntegralType.int.ofInt (i.val.tmod 10)).val)
        >>= _) = (element digits (zero + i.val.tmod 10) >>= _)
      rw [IntegralType.int_ofInt_tmod]
      congr 1
      funext c
      congr 1
      funext mem'
      show (if (t.ofInt (i.val.tdiv 10)).val ≠ 0 then _ else _)
        = (if i.val.tdiv 10 ≠ 0 then _ else _)
      rw [hi]
      split
      next hmore =>
        rw [ih _ (by rw [hi, ← hn]; exact natAbs_tdiv_ten_lt hmore) _ _ _ rfl,
          hi]
        rfl
      next => rfl

/-- `convert<T>` is `convert` on the integers. -/
theorem convertAs_eq (t : IntegralType) (mem : List UInt8) (buf : Nat)
    (v : t.Val) : convertAs t mem buf v = convert mem buf v.val := by
  unfold convertAs convert
  rw [convertLoop_eq]

end Detail

-- ======================================================== the numerals

theorem ascii_toDigits (n : Nat) :
    ascii (Nat.toDigits 10 n) = decimalDigits.numeral n := by
  refine decimalDigits.map_toDigits _ ?_ n
  show ∀ d, d < 10 → _
  decide

theorem ascii_hexadecimal (n : Nat) :
    ascii (hexadecimal n) = hexDigits.numeral n := by
  unfold ascii hexadecimal
  rw [List.map_map]
  refine hexDigits.map_toDigits _ ?_ n
  show ∀ d, d < 16 → _
  decide

/-- A numeral begins with a digit. -/
theorem head?_numeral_ne_minus (n : Nat) :
    (decimalDigits.numeral n).head? ≠ some minusSign := by
  intro h
  have hdigit := Alphabet.isSome_digit_of_readFrom Alphabet.readFrom_numeral
    _ (List.mem_of_head? h)
  revert hdigit
  decide

theorem head?_sign_iff (v : Int) (n : Nat) :
    (sign v ++ decimalDigits.numeral n).head? = some minusSign ↔ v < 0 := by
  unfold sign
  split
  next hneg => exact iff_of_true rfl hneg
  next hpos => exact iff_of_false (head?_numeral_ne_minus n) hpos

theorem magnitude_sign (v : Int) (n : Nat) :
    magnitude (sign v ++ decimalDigits.numeral n)
      = decimalDigits.numeral n := by
  have hhead := head?_sign_iff v n
  unfold magnitude
  unfold sign at *
  by_cases hneg : v < 0
  · rw [if_pos (hhead.2 hneg), if_pos hneg]
    rfl
  · rw [if_neg (fun h => hneg (hhead.1 h)), if_neg hneg]
    rfl

/-- A word is its sign and its magnitude. -/
theorem eq_sign_magnitude {v : Int} {s : List UInt8}
    (h : s.head? = some minusSign ↔ v < 0) : s = sign v ++ magnitude s := by
  unfold sign magnitude
  by_cases hneg : v < 0
  · rw [if_pos hneg, if_pos (h.2 hneg)]
    exact (List.cons_head?_tail (h.2 hneg)).symm
  · rw [if_neg hneg, if_neg fun hs => hneg (h.1 hs)]
    rfl

/-- The one decimal numeral of an integer. -/
theorem decimal_iff {v : Int} {s : List UInt8} :
    readDecimal s = some v ∧ CanonicalDecimal v s ↔ s = ascii (decimal v) := by
  rw [ascii_decimal, ascii_toDigits]
  constructor
  · rintro ⟨hread, hsign, hcanonical⟩
    obtain ⟨n, hn, hv⟩ := Option.map_eq_some_iff.1 hread
    have habs : n = v.natAbs := by
      by_cases hneg : v < 0
      · rw [if_pos (hsign.2 hneg)] at hv
        omega
      · rw [if_neg fun hs => hneg (hsign.1 hs)] at hv
        omega
    rw [← habs, ← Alphabet.eq_numeral hn hcanonical]
    exact eq_sign_magnitude hsign
  · rintro rfl
    have hsign := head?_sign_iff v v.natAbs
    refine ⟨?_, hsign, ?_⟩
    · unfold readDecimal
      rw [magnitude_sign, Alphabet.read_numeral, Option.map_some]
      by_cases hneg : v < 0
      · rw [if_pos (hsign.2 hneg)]
        congr 1
        omega
      · rw [if_neg fun hs => hneg (hsign.1 hs)]
        congr 1
        omega
    · rw [magnitude_sign]
      exact Alphabet.canonical_numeral

example : readDecimal (ascii "-42".toList) = some (-42)
    ∧ readDecimal (ascii "--42".toList) = none := by decide

/-- The one hexadecimal numeral of a number. -/
theorem hexadecimal_iff {n : Nat} {s : List UInt8} :
    hexDigits.read s = some n ∧ hexDigits.Canonical s
      ↔ s = ascii (hexadecimal n) := by
  rw [ascii_hexadecimal]
  exact Alphabet.numeral_iff

-- ====================================================== the conversions

/-- At every type and for every value, `convert` writes the one canonical
numeral that reads as the value, and a zero, in no more than 21 bytes;
`convertHex` writes the hexadecimal one in no more than 17. -/
theorem convert_exact :
    (∀ (t : IntegralType) (v : t.Val), ∃ s : List UInt8,
      (∀ s', readDecimal s' = some v.val ∧ CanonicalDecimal v.val s' ↔ s' = s)
        ∧ s.length + 1 ≤ 21
        ∧ ∀ mem buf, buf + (s.length + 1) ≤ mem.length →
          convertAs t mem buf v
            = .ok (overlay mem buf (s ++ [0]), s.length))
      ∧ ∀ v : UInt64, ∃ s : List UInt8,
        (∀ s', hexDigits.read s' = some v.toNat ∧ hexDigits.Canonical s'
          ↔ s' = s)
          ∧ s.length + 1 ≤ 17
          ∧ ∀ mem buf, buf + (s.length + 1) ≤ mem.length →
            convertHex mem buf v
              = .ok (overlay mem buf (s ++ [0]), s.length) := by
  refine ⟨fun t v => ⟨ascii (decimal v.val), fun _ => decimal_iff, ?_, ?_⟩,
    fun v => ⟨ascii (hexadecimal v.toNat), fun _ => hexadecimal_iff, ?_, ?_⟩⟩
  · rw [length_ascii]
    exact Nat.succ_le_succ (length_decimal v.property.in64)
  · intro mem buf hroom
    rw [length_ascii] at hroom ⊢
    rw [convertAs_eq, convert_ok (by omega)]
  · rw [length_ascii]
    exact Nat.succ_le_succ (length_hexadecimal v)
  · intro mem buf hroom
    rw [length_ascii] at hroom ⊢
    rw [convertHex_ok (by omega)]

/-- The least value of a type with 64 bits fills the 21 bytes, and the
greatest `uintptr_t` the 17. -/
theorem convert_exact_extremes :
    (∃ s, readDecimal s = some (-9223372036854775808)
      ∧ convertAs ⟨true, 64, by decide, by decide⟩ (List.replicate 21 0) 0
          ⟨-9223372036854775808, by decide⟩
        = .ok (overlay (List.replicate 21 0) 0 (s ++ [0]), s.length))
      ∧ ∃ s, hexDigits.read s = some 18446744073709551615
        ∧ convertHex (List.replicate 17 0) 0 18446744073709551615
          = .ok (overlay (List.replicate 17 0) 0 (s ++ [0]), s.length) := by
  obtain ⟨s, hs, hlen, hwritten⟩ := convert_exact.1
    ⟨true, 64, by decide, by decide⟩ ⟨-9223372036854775808, by decide⟩
  obtain ⟨s', hs', hlen', hwritten'⟩ := convert_exact.2 18446744073709551615
  refine ⟨⟨s, ((hs s).2 rfl).1, hwritten _ 0 ?_⟩,
    ⟨s', ((hs' s').2 rfl).1, hwritten' _ 0 ?_⟩⟩
  · rw [List.length_replicate, Nat.zero_add]
    exact hlen
  · rw [List.length_replicate, Nat.zero_add]
    exact hlen'

end Cobra
