/-
Dense tables: a list of keys without holes, and for each key its
position. A key is added at the end; one is removed by moving the last
key into its place.

`Indexes pos l` says that `pos` is the index of `l`: a key is at a
position exactly if the index says so. The lemmas say what has to become
of the index in each of the changes.
-/
import Mathlib.Data.List.Nodup
import Mathlib.Logic.Function.Basic

namespace DenseTable

variable {κ : Type*} {pos : κ → Option Nat} {l : List κ}
  {k last : κ} {i : Nat}

/-- `pos` gives the position of each key of the table. -/
def Indexes (pos : κ → Option Nat) (l : List κ) : Prop :=
  ∀ k i, pos k = some i ↔ l[i]? = some k

/-- Move the last key to `i`. -/
def swapRemove (l : List κ) (i : Nat) (last : κ) : List κ :=
  (l.set i last).dropLast

theorem indexes_nil : Indexes (fun _ => none) ([] : List κ) := by
  intro k i
  simp

/-- A key that has no position is not in the table. -/
theorem Indexes.not_mem (h : Indexes pos l) (hk : pos k = none) : k ∉ l := by
  intro hm
  obtain ⟨i, hi⟩ := List.mem_iff_getElem?.1 hm
  rw [(h k i).2 hi] at hk
  cases hk

/-- Two keys are not at one position. -/
theorem Indexes.inj (h : Indexes pos l) {k' : κ} (hk : pos k = some i)
    (hk' : pos k' = some i) : k = k' := by
  have h₁ := (h k i).1 hk
  rw [(h k' i).1 hk'] at h₁
  exact (Option.some.inj h₁).symm

/-- The keys with a position are the keys of the table. -/
theorem Indexes.mem_iff (h : Indexes pos l) : k ∈ l ↔ ∃ i, pos k = some i := by
  rw [List.mem_iff_getElem?]
  exact exists_congr fun i => (h k i).symm

/-- No key is twice in the table. -/
theorem Indexes.nodup (h : Indexes pos l) : l.Nodup := by
  rw [List.nodup_iff_getElem?_ne_getElem?]
  intro i j hij hj heq
  have hk := List.getElem?_eq_getElem hj
  have hi := (h _ _).2 (heq.trans hk)
  rw [(h _ _).2 hk] at hi
  have := Option.some.inj hi
  omega

theorem getElem?_swapRemove (hi : i < l.length - 1) (j : Nat) :
    (swapRemove l i last)[j]?
      = if j < l.length - 1 then if j = i then some last else l[j]?
        else none := by
  unfold swapRemove
  rw [List.getElem?_dropLast, List.length_set]
  split
  next hlt =>
    by_cases hj : j = i
    · subst hj
      rw [if_pos rfl, List.getElem?_set_self (by omega)]
    · rw [if_neg hj, List.getElem?_set_ne (fun h => hj h.symm)]
  next => rfl

-- ============================================================== changes

variable [DecidableEq κ]

/-- A new key at the end. -/
theorem Indexes.push (h : Indexes pos l) (hk : pos k = none) :
    Indexes (Function.update pos k (some l.length)) (l ++ [k]) := by
  intro k' i
  by_cases hkk : k' = k
  · subst hkk
    rw [Function.update_self, Option.some_inj]
    constructor
    · intro hi
      rw [← hi]
      simp
    · intro hi
      by_cases hlt : i < l.length
      · rw [List.getElem?_append_left hlt, ← h, hk] at hi
        cases hi
      · have hlen := (List.getElem?_eq_some_iff.1 hi).1
        rw [List.length_append, List.length_singleton] at hlen
        omega
  · rw [Function.update_of_ne hkk, h]
    by_cases hlt : i < l.length
    · rw [List.getElem?_append_left hlt]
    · rw [List.getElem?_eq_none (by omega),
        List.getElem?_append_right (by omega)]
      constructor
      · intro hi
        cases hi
      · intro hi
        exfalso
        have hm := List.mem_of_getElem? hi
        exact hkk (List.mem_singleton.1 hm)

/-- The last key is removed. -/
theorem Indexes.pop (h : Indexes pos l) (hk : pos k = some (l.length - 1)) :
    Indexes (Function.update pos k none) l.dropLast := by
  have hlast := (List.getElem?_eq_some_iff.1 ((h k _).1 hk)).1
  intro k' i
  rw [List.getElem?_dropLast]
  by_cases hkk : k' = k
  · subst hkk
    rw [Function.update_self]
    split
    next hlt =>
      rw [← h, hk, Option.some_inj]
      constructor
      · intro hi
        cases hi
      · intro hi
        omega
    next => exact ⟨nofun, nofun⟩
  · rw [Function.update_of_ne hkk, h]
    split
    next => exact Iff.rfl
    next hge =>
      refine ⟨fun hi => ?_, nofun⟩
      have hlen := (List.getElem?_eq_some_iff.1 hi).1
      have hi' : i = l.length - 1 := by omega
      subst hi'
      exact absurd (h.inj ((h k' _).2 hi) hk) hkk

/-- A key before the last one is removed, and the last takes its
place. -/
theorem Indexes.swapRemove (h : Indexes pos l) (hk : pos k = some i)
    (hi : i < l.length - 1) (hlast : l[l.length - 1]? = some last) :
    Indexes (Function.update (Function.update pos last (some i)) k none)
      (swapRemove l i last) := by
  have hposlast := (h last _).2 hlast
  have hne : last ≠ k := by
    intro he
    rw [he, hk] at hposlast
    have := Option.some.inj hposlast
    omega
  intro k' j
  rw [getElem?_swapRemove hi]
  by_cases hkk : k' = k
  · subst hkk
    rw [Function.update_self]
    refine ⟨nofun, fun hj => ?_⟩
    split at hj
    · split at hj
      next => exact absurd (Option.some.inj hj) hne
      next hji =>
        have hpos := (h k' j).2 hj
        rw [hk] at hpos
        exact absurd (Option.some.inj hpos).symm hji
    · cases hj
  · rw [Function.update_of_ne hkk]
    by_cases hkl : k' = last
    · subst hkl
      rw [Function.update_self, Option.some_inj]
      constructor
      · intro hj
        subst hj
        rw [if_pos hi, if_pos rfl]
      · intro hj
        split at hj
        next hlt =>
          split at hj
          next hji => exact hji.symm
          next =>
            have hpos := (h k' j).2 hj
            rw [hposlast] at hpos
            have := Option.some.inj hpos
            omega
        next => cases hj
    · rw [Function.update_of_ne hkl, h]
      by_cases hlt : j < l.length - 1
      · rw [if_pos hlt]
        by_cases hji : j = i
        · subst hji
          rw [if_pos rfl, (h k j).1 hk]
          constructor
          · intro hj
            exact absurd (Option.some.inj hj).symm hkk
          · intro hj
            exact absurd (Option.some.inj hj).symm hkl
        · rw [if_neg hji]
      · rw [if_neg hlt]
        refine ⟨fun hj => ?_, nofun⟩
        have hlen := (List.getElem?_eq_some_iff.1 hj).1
        have hj' : j = l.length - 1 := by omega
        subst hj'
        rw [hlast] at hj
        exact absurd (Option.some.inj hj).symm hkl

end DenseTable
