/-
`StringPiece` (base/string_piece.h): a pointer and a length that is an
`int`, although the strings and the buffers it is made of count with
`size_t`.

# Conversions

A `size_t` becomes an `int` by its last 32 bits (`castInt`), and an `int`
becomes a `size_t` by its remainder modulo `2 ^ 64` (`castSize`), which
is what the compilers the library is built with do. A length below
`2 ^ 31` comes back as it was; no other one does.

A pointer is the memory it points at: the bytes from there to the end of
the object.
-/
import Cobra.RawBuffer

namespace Cobra

/-- The values of `int` that are not negative. -/
def intMod : Nat := 2 ^ 31

/-- `static_cast<int>` of a `size_t`. -/
def castInt (n : Nat) : Int :=
  if n % (2 * intMod) < intMod then n % (2 * intMod)
  else n % (2 * intMod) - 2 * intMod

/-- An `int` converted to `size_t`. -/
def castSize (i : Int) : Nat := (i % sizeMod).toNat

structure StringPiece where
  /-- the object behind `ptr_`, from there to its end -/
  ptr : List UInt8
  length : Int
  deriving Repr, DecidableEq

namespace StringPiece

/-- `StringPiece(const string& str)`. -/
def ofString (str : List UInt8) : StringPiece := ⟨str, castInt str.length⟩

/-- `StringPiece(const char* offset, int len)`. -/
def ofPointer (offset : List UInt8) (len : Int) : StringPiece := ⟨offset, len⟩

def data (p : StringPiece) : List UInt8 := p.ptr

def size (p : StringPiece) : Int := p.length

/-- The piece points at as many bytes as it says, a number that an `int`
can hold. -/
def Denotes (p : StringPiece) : Prop :=
  0 ≤ p.length ∧ p.length ≤ p.ptr.length ∧ p.length < intMod

instance (p : StringPiece) : Decidable p.Denotes :=
  inferInstanceAs (Decidable (_ ∧ _))

end StringPiece

-- ====================================================== the conversions

theorem castInt_of_lt {n : Nat} (h : n < intMod) : castInt n = n := by
  unfold castInt
  unfold intMod at h ⊢
  split <;> omega

theorem castSize_of_nat {n : Nat} (h : n < sizeMod) : castSize n = n := by
  unfold castSize
  unfold sizeMod at h ⊢
  omega

/-- An `int` is a `size_t` below `2 ^ 31`, or one of the last `2 ^ 31`. -/
theorem castSize_castInt (n : Nat) :
    castSize (castInt n) < intMod
      ∨ sizeMod - intMod ≤ castSize (castInt n)
        ∧ castSize (castInt n) < sizeMod := by
  unfold castSize castInt sizeMod intMod
  split <;> omega

/-- A length survives the two conversions only if an `int` can hold it. -/
theorem castSize_castInt_eq_iff {n : Nat} (h : n < sizeMod - intMod) :
    castSize (castInt n) = n ↔ n < intMod := by
  constructor
  · intro heq
    have hcast := castSize_castInt n
    omega
  · intro hlt
    rw [castInt_of_lt hlt]
    apply castSize_of_nat
    unfold sizeMod
    unfold intMod at hlt
    omega

end Cobra
