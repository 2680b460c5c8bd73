/-
Numbers as bytes, in either order.

`toLE k n` is the `k` low bytes of `n` with the lowest first, `ofLE` the
number back; `toBE` and `ofBE` have the highest first. A machine keeps a
number of `k` bytes in memory in its own order (`store`, `load`) and has
a swap of the bytes to the network's order, which is the highest first
(`toNetwork`, `ofNetwork`). Whatever the machine's order, what it stores
after the swap is `toBE` (`store_toNetwork`), and what it loads and swaps
back is the number (`ofNetwork_load`).
-/
import Mathlib.Data.List.Basic
import Mathlib.Algebra.Group.Nat.Defs

namespace Bytes

-- ============================================================ the orders

/-- The `k` low bytes of a number, the lowest first. -/
def toLE : Nat → Nat → List UInt8
  | 0, _ => []
  | k + 1, n => UInt8.ofNat n :: toLE k (n / 256)

def ofLE : List UInt8 → Nat
  | [] => 0
  | x :: xs => x.toNat + 256 * ofLE xs

/-- The `k` low bytes of a number, the highest first. -/
def toBE (k n : Nat) : List UInt8 :=
  (List.range k).map fun j => UInt8.ofNat (n / 256 ^ (k - 1 - j))

def ofBE (xs : List UInt8) : Nat := ofLE xs.reverse

theorem length_toLE (k n : Nat) : (toLE k n).length = k := by
  induction k generalizing n with
  | zero => rfl
  | succ k ih => rw [toLE, List.length_cons, ih]

theorem length_toBE (k n : Nat) : (toBE k n).length = k := by
  unfold toBE
  rw [List.length_map, List.length_range]

theorem ofLE_toLE (k n : Nat) : ofLE (toLE k n) = n % 256 ^ k := by
  induction k generalizing n with
  | zero => rw [toLE, ofLE, Nat.pow_zero, Nat.mod_one]
  | succ k ih =>
      have hlow : (UInt8.ofNat n).toNat = n % 256 := UInt8.toNat_ofNat'
      rw [toLE, ofLE, ih, hlow, Nat.pow_succ', Nat.mod_mul]

theorem toLE_ofLE (xs : List UInt8) : toLE xs.length (ofLE xs) = xs := by
  induction xs with
  | nil => rfl
  | cons x xs ih =>
      have hx := x.toNat_lt
      have hhigh : (x.toNat + 256 * ofLE xs) / 256 = ofLE xs := by omega
      have hlow : UInt8.ofNat (x.toNat + 256 * ofLE xs) = x := by
        apply UInt8.toNat_inj.mp
        rw [UInt8.toNat_ofNat']
        omega
      rw [List.length_cons, toLE, ofLE, hhigh, hlow, ih]

theorem ofLE_lt (xs : List UInt8) : ofLE xs < 256 ^ xs.length := by
  have hmod := ofLE_toLE xs.length (ofLE xs)
  rw [toLE_ofLE] at hmod
  rw [hmod]
  exact Nat.mod_lt _ (Nat.pow_pos (by decide))

theorem getElem_toLE {k n j : Nat} (h : j < (toLE k n).length) :
    (toLE k n)[j] = UInt8.ofNat (n / 256 ^ j) := by
  induction k generalizing n j with
  | zero => exact absurd h (Nat.not_lt_zero j)
  | succ k ih =>
      cases j with
      | zero => simp only [toLE, List.getElem_cons_zero, Nat.pow_zero, Nat.div_one]
      | succ j =>
          simp only [toLE, List.getElem_cons_succ]
          rw [ih, Nat.div_div_eq_div_mul, Nat.pow_succ']

/-- The two orders are each other's reverse. -/
theorem toBE_eq (k n : Nat) : toBE k n = (toLE k n).reverse := by
  apply List.ext_getElem
  · rw [length_toBE, List.length_reverse, length_toLE]
  · intro j hj hj'
    rw [List.getElem_reverse, getElem_toLE, length_toLE]
    simp only [toBE, List.getElem_map, List.getElem_range]

theorem ofBE_toBE (k n : Nat) : ofBE (toBE k n) = n % 256 ^ k := by
  rw [ofBE, toBE_eq, List.reverse_reverse, ofLE_toLE]

-- =========================================================== the machine

/-- The order a machine keeps numbers in. -/
inductive ByteOrder
  | little
  | big
  deriving Repr, DecidableEq

namespace ByteOrder

/-- A number of `k` bytes in memory. -/
def store (o : ByteOrder) (k n : Nat) : List UInt8 :=
  match o with
  | .little => toLE k n
  | .big => toBE k n

/-- The number in memory. -/
def load (o : ByteOrder) (mem : List UInt8) : Nat :=
  match o with
  | .little => ofLE mem
  | .big => ofBE mem

/-- The bytes of a number in the other order. -/
def byteSwap (k n : Nat) : Nat := ofLE (toBE k n)

/-- To the network's order, the highest byte first. -/
def toNetwork (o : ByteOrder) (k n : Nat) : Nat :=
  match o with
  | .little => byteSwap k n
  | .big => n

/-- From the network's order. -/
def ofNetwork (o : ByteOrder) (k n : Nat) : Nat :=
  match o with
  | .little => byteSwap k n
  | .big => n

theorem load_store (o : ByteOrder) {k n : Nat} (h : n < 256 ^ k) :
    o.load (o.store k n) = n := by
  cases o with
  | little =>
      show ofLE (toLE k n) = n
      rw [ofLE_toLE, Nat.mod_eq_of_lt h]
  | big =>
      show ofBE (toBE k n) = n
      rw [ofBE_toBE, Nat.mod_eq_of_lt h]

theorem length_store (o : ByteOrder) (k n : Nat) :
    (o.store k n).length = k := by
  cases o with
  | little => exact length_toLE k n
  | big => exact length_toBE k n

/-- What is stored after the swap has the highest byte first. -/
theorem store_toNetwork (o : ByteOrder) (k n : Nat) :
    o.store k (o.toNetwork k n) = toBE k n := by
  cases o with
  | little =>
      show toLE k (ofLE (toBE k n)) = _
      have hback := toLE_ofLE (toBE k n)
      rw [length_toBE] at hback
      exact hback
  | big => rfl

/-- What was stored with the highest byte first is loaded and swapped
back. -/
theorem ofNetwork_load (o : ByteOrder) {k n : Nat} (h : n < 256 ^ k) :
    o.ofNetwork k (o.load (toBE k n)) = n := by
  cases o with
  | little =>
      have hback := toLE_ofLE (toBE k n)
      rw [length_toBE] at hback
      show ofLE (toBE k (ofLE (toBE k n))) = n
      rw [toBE_eq k (ofLE _), hback, toBE_eq, List.reverse_reverse,
        ofLE_toLE, Nat.mod_eq_of_lt h]
  | big =>
      show ofBE (toBE k n) = n
      rw [ofBE_toBE, Nat.mod_eq_of_lt h]

/-- The swapped number has no more bytes. -/
theorem toNetwork_lt (o : ByteOrder) {k n : Nat} (h : n < 256 ^ k) :
    o.toNetwork k n < 256 ^ k := by
  cases o with
  | little =>
      have hlt := ofLE_lt (toBE k n)
      rw [length_toBE] at hlt
      exact hlt
  | big => exact h

theorem ofNetwork_toNetwork (o : ByteOrder) {k n : Nat} (h : n < 256 ^ k) :
    o.ofNetwork k (o.toNetwork k n) = n := by
  have hloaded := o.load_store (o.toNetwork_lt h)
  rw [store_toNetwork] at hloaded
  rw [← hloaded, o.ofNetwork_load h]

/-- What is loaded and swapped from the network's order was in it. -/
theorem toBE_ofNetwork_load (o : ByteOrder) {k : Nat} {mem : List UInt8}
    (h : mem.length = k) : toBE k (o.ofNetwork k (o.load mem)) = mem := by
  subst h
  cases o with
  | little =>
      have hback := toLE_ofLE (toBE mem.length (ofLE mem))
      rw [length_toBE] at hback
      show toBE mem.length (ofLE (toBE mem.length (ofLE mem))) = mem
      rw [toBE_eq, hback, toBE_eq, List.reverse_reverse, toLE_ofLE]
  | big =>
      have hback := toLE_ofLE mem.reverse
      rw [List.length_reverse] at hback
      show toBE mem.length (ofLE mem.reverse) = mem
      rw [toBE_eq, hback, List.reverse_reverse]

theorem ofNetwork_lt (o : ByteOrder) {k n : Nat} (h : n < 256 ^ k) :
    o.ofNetwork k n < 256 ^ k := by
  cases o with
  | little => exact ByteOrder.toNetwork_lt .little h
  | big => exact h

theorem load_lt (o : ByteOrder) (mem : List UInt8) :
    o.load mem < 256 ^ mem.length := by
  cases o with
  | little => exact ofLE_lt mem
  | big =>
      have hlt := ofLE_lt mem.reverse
      rw [List.length_reverse] at hlt
      exact hlt

end ByteOrder

end Bytes
