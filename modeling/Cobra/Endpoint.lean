/-
`Endpoint` (cobra/endpoint.h, endpoint.cpp) and the formatting it and
`Server` name things with. Texts are lists of characters.
-/
import Mathlib.Algebra.Group.Nat.Defs
import Mathlib.Data.BitVec

namespace Cobra

-- =========================================================== formatting

/-- `snprintf(buf, size, ..)`: the text, cut so that the terminating zero
fits in. -/
def snprintf (size : Nat) (text : List Char) : List Char :=
  text.take (size - 1)

/-- `%u`. -/
def formatU (n : Nat) : List Char := Nat.toDigits 10 n

/-- `%d`, of the bits of an `int`. -/
def formatD (v : BitVec 32) : List Char :=
  if v.toInt < 0 then '-' :: formatU v.toInt.natAbs else formatU v.toInt.natAbs

theorem formatU_injective {m n : Nat} (h : formatU m = formatU n) : m = n := by
  have hparsed := congrArg (fun digits => Nat.ofDigitChars 10 digits 0) h
  simpa [formatU] using hparsed

/-- A number of at most `k` digits. -/
theorem length_formatU {n k : Nat} (hk : 0 < k) (h : n < 10 ^ k) :
    (formatU n).length ≤ k :=
  (Nat.length_toDigits_le_iff (by decide) hk).2 h

/-- No digit is a sign. -/
theorem formatU_ne_sign (n : Nat) (text : List Char) :
    formatU n ≠ '-' :: text := by
  intro h
  have hmem : '-' ∈ Nat.toDigits 10 n := by
    rw [← formatU, h]
    exact List.mem_cons_self
  have hdigit := Nat.isDigit_of_mem_toDigits (by decide) (by decide) hmem
  revert hdigit
  decide

/-- The signed format of an unsigned counter loses nothing. -/
theorem formatD_injective {v w : BitVec 32} (h : formatD v = formatD w) :
    v = w := by
  refine BitVec.eq_of_toInt_eq ?_
  unfold formatD at h
  by_cases hv : v.toInt < 0
  · by_cases hw : w.toInt < 0
    · rw [if_pos hv, if_pos hw] at h
      have habs := formatU_injective (List.cons.inj h).2
      omega
    · rw [if_pos hv, if_neg hw] at h
      exact absurd h.symm (formatU_ne_sign _ _)
  · by_cases hw : w.toInt < 0
    · rw [if_neg hv, if_pos hw] at h
      exact absurd h (formatU_ne_sign _ _)
    · rw [if_neg hv, if_neg hw] at h
      have habs := formatU_injective h
      omega

/-- A sign and ten digits. -/
theorem length_formatD (v : BitVec 32) : (formatD v).length ≤ 11 := by
  have hlo := BitVec.le_toInt v
  have hhi := BitVec.toInt_lt (x := v)
  have habs : v.toInt.natAbs < 10 ^ 10 := by omega
  have hlen := length_formatU (by decide : 0 < 10) habs
  unfold formatD
  split
  · rw [List.length_cons]
    omega
  · omega

-- ============================================================ endpoints

structure Endpoint where
  /-- `sin_addr.s_addr` -/
  addr : BitVec 32
  port : BitVec 16
  deriving Repr, DecidableEq

namespace Endpoint

/-- `Endpoint::toIpPort`. The address is printed into `buf`, and `buf` is
then overwritten by the text made of `host`, which nobody has filled. -/
def toIpPort (e : Endpoint) : List Char :=
  let host := "INVALID".toList
  snprintf 32 (host ++ [':'] ++ formatU e.port.toNat)

/-- The text is short, and nothing of it is cut. -/
theorem length_toIpPort (e : Endpoint) : e.toIpPort.length ≤ 13 := by
  have hport : e.port.toNat < 10 ^ 5 := by
    have := e.port.isLt
    omega
  have hlen := length_formatU (by decide : 0 < 5) hport
  have hhost : "INVALID".toList.length = 7 := by decide
  unfold toIpPort snprintf
  rw [List.length_take, List.length_append, List.length_append, hhost,
    List.length_singleton]
  omega

end Endpoint

end Cobra
