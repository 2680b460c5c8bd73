/-
The descriptors of a process: a table with a slot for each number below
its limit, and in a slot what the descriptor refers to.

# What the kernel promises

`alloc` takes the lowest free number, and fails when there is none.
`close` frees the number it is given and says what was behind it, which
may be something that the caller no longer has: a number is all that it
goes by. So who closes what is for the table's users to prove, and the
rules here say for each operation which slots it leaves alone.
-/
import Mathlib.Data.List.Basic

namespace Process

structure FdTable (κ : Type*) where
  slots : List (Option κ)
  deriving Repr, DecidableEq

namespace FdTable

variable {κ : Type*} {t t' : FdTable κ} {k : κ} {fd n : Nat}

/-- What is open under the number. -/
def lookup (t : FdTable κ) (fd : Nat) : Option κ := t.slots[fd]?.join

/-- How many numbers are free. -/
def free (t : FdTable κ) : Nat := t.slots.countP (·.isNone)

/-- The free number is put to use. -/
def put (t : FdTable κ) (fd : Nat) (k : κ) : FdTable κ :=
  ⟨t.slots.set fd (some k)⟩

/-- The lowest free number, and the table with it in use. -/
def alloc (t : FdTable κ) (k : κ) : Option (Nat × FdTable κ) :=
  (t.slots.findIdx? (·.isNone)).map fun fd => (fd, t.put fd k)

def close (t : FdTable κ) (fd : Nat) : FdTable κ := ⟨t.slots.set fd none⟩

-- ========================================================== one at a time

theorem lookup_put (h : fd < t.slots.length) (n : Nat) :
    (t.put fd k).lookup n = if fd = n then some k else t.lookup n := by
  unfold lookup put
  rw [List.getElem?_set]
  split <;> rfl

theorem lookup_close (t : FdTable κ) (fd n : Nat) :
    (t.close fd).lookup n = if fd = n then none else t.lookup n := by
  unfold lookup close
  rw [List.getElem?_set]
  split
  · split <;> rfl
  · rfl

/-- What is open is in the table. -/
theorem lt_of_lookup (h : t.lookup fd = some k) :
    t.slots[fd]? = some (some k) := by
  unfold lookup at h
  exact Option.join_eq_some_iff.1 h

/-- A number that was free, or is no number of the table. -/
theorem close_of_none (h : t.lookup fd = none) : t.close fd = t := by
  unfold lookup at h
  unfold close
  by_cases hlt : fd < t.slots.length
  · rw [List.getElem?_eq_getElem hlt] at h
    have hnone : t.slots[fd] = none := h
    rw [← hnone, List.set_getElem_self hlt]
  · rw [List.set_eq_of_length_le (Nat.le_of_not_lt hlt)]

/-- A number more is free. -/
theorem free_close (h : t.lookup fd = some k) :
    (t.close fd).free = t.free + 1 := by
  obtain ⟨hlt, hget⟩ := List.getElem?_eq_some_iff.1 (lt_of_lookup h)
  unfold free close
  rw [List.countP_set hlt, hget]
  rfl

/-- What is open under a number changes, and it stays in use. -/
theorem free_put {k' : κ} (h : t.lookup fd = some k') :
    (t.put fd k).free = t.free := by
  obtain ⟨hlt, hget⟩ := List.getElem?_eq_some_iff.1 (lt_of_lookup h)
  unfold free put
  rw [List.countP_set hlt, hget]
  rfl

-- ============================================================= allocation

/-- The number was free, and it alone changes. -/
theorem alloc_spec (h : t.alloc k = some (fd, t')) :
    t.lookup fd = none
      ∧ (∀ n, t'.lookup n = if fd = n then some k else t.lookup n)
      ∧ t'.free + 1 = t.free := by
  obtain ⟨i, hi, heq⟩ := Option.map_eq_some_iff.1 h
  cases heq
  obtain ⟨hlt, hfree, -⟩ := List.findIdx?_eq_some_iff_getElem.1 hi
  have hnone : t.slots[fd] = none := Option.isNone_iff_eq_none.1 hfree
  refine ⟨?_, lookup_put hlt, ?_⟩
  · unfold lookup
    rw [List.getElem?_eq_getElem hlt, hnone]
    rfl
  · have hpos : 0 < t.slots.countP (·.isNone) :=
      List.countP_pos_iff.2 ⟨_, List.getElem_mem hlt, hfree⟩
    unfold free put
    rw [List.countP_set hlt, if_pos hfree]
    simp only [Option.isNone_some, Bool.false_eq_true, if_false]
    omega

/-- The table is full. -/
theorem alloc_eq_none : t.alloc k = none ↔ t.free = 0 := by
  unfold alloc free
  rw [Option.map_eq_none_iff, List.findIdx?_eq_none_iff, List.countP_eq_zero]
  simp only [Bool.not_eq_true]

/-- With a number free the kernel finds one. -/
theorem exists_alloc (h : t.free ≠ 0) (k : κ) :
    ∃ fd t', t.alloc k = some (fd, t') := by
  cases ha : t.alloc k with
  | none => exact absurd (alloc_eq_none.1 ha) h
  | some p => exact ⟨p.1, p.2, rfl⟩

/-- The number that was taken and given back: the table is as before. -/
theorem close_alloc (h : t.alloc k = some (fd, t')) : t'.close fd = t := by
  obtain ⟨i, hi, heq⟩ := Option.map_eq_some_iff.1 h
  cases heq
  obtain ⟨hlt, hfree, -⟩ := List.findIdx?_eq_some_iff_getElem.1 hi
  have hnone : t.slots[fd] = none := Option.isNone_iff_eq_none.1 hfree
  unfold close put
  rw [List.set_set, ← hnone, List.set_getElem_self hlt]

end FdTable

end Process
