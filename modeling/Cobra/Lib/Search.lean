/-
The first place of a pattern in a list, and what is known of it when the
list grows at its end.

`search pat l` compares the pattern with the list at one place after the
other. It finds the least place (`search_eq_some_iff`) or there is none
(`search_eq_none_iff`). More elements at the end leave a place that was
found alone (`search_append_some`). A place that they make is not in front
of the last `pat.length - 1` of the old elements, so that the search can
go on from there (`search_append_none`).
-/
import Mathlib.Data.List.Basic
import Mathlib.Data.List.Infix

namespace Search

variable {α : Type*} [DecidableEq α] {pat l : List α} {i : Nat}

/-- The first place at which the list goes on with the pattern. -/
def search (pat : List α) (l : List α) : Option Nat :=
  if pat <+: l then some 0
  else match l with
    | [] => none
    | _ :: xs => (search pat xs).map (· + 1)

/-- The pattern is at place `i` of the list. -/
def At (pat l : List α) (i : Nat) : Prop := i ≤ l.length ∧ pat <+: l.drop i

omit [DecidableEq α] in
/-- The pattern does not reach over the end. -/
theorem At.add_le (h : At pat l i) : i + pat.length ≤ l.length := by
  obtain ⟨hi, hpat⟩ := h
  have hlen := hpat.length_le
  rw [List.length_drop] at hlen
  omega

omit [DecidableEq α] in
theorem at_zero : At pat l 0 ↔ pat <+: l := by
  constructor
  · intro h
    exact h.2
  · intro h
    exact ⟨Nat.zero_le _, h⟩

omit [DecidableEq α] in
theorem at_succ {x : α} : At pat (x :: l) (i + 1) ↔ At pat l i := by
  constructor
  · rintro ⟨hi, hpat⟩
    exact ⟨Nat.le_of_succ_le_succ hi, hpat⟩
  · rintro ⟨hi, hpat⟩
    exact ⟨Nat.succ_le_succ hi, hpat⟩

omit [DecidableEq α] in
/-- Only the empty pattern is at the end of the list. -/
theorem not_at_nil (hpat : ¬ pat <+: []) : ¬ At pat [] i := by
  rintro ⟨-, h⟩
  rw [List.drop_nil] at h
  exact hpat h

-- ===================================================== the first place

/-- The search finds a place, and none in front of it. -/
theorem search_some {l : List α} : ∀ {i : Nat}, search pat l = some i →
    At pat l i ∧ ∀ j < i, ¬ At pat l j := by
  induction l with
  | nil =>
      intro i h
      unfold search at h
      split at h
      next hpat =>
        cases h
        exact ⟨at_zero.2 hpat, fun j hj => absurd hj (Nat.not_lt_zero j)⟩
      next => cases h
  | cons x xs ih =>
      intro i h
      unfold search at h
      split at h
      next hpat =>
        cases h
        exact ⟨at_zero.2 hpat, fun j hj => absurd hj (Nat.not_lt_zero j)⟩
      next hpat =>
        obtain ⟨k, hk, rfl⟩ := Option.map_eq_some_iff.1 h
        obtain ⟨hat, hleast⟩ := ih hk
        refine ⟨at_succ.2 hat, fun j hj => ?_⟩
        cases j with
        | zero => exact fun hzero => hpat (at_zero.1 hzero)
        | succ j =>
            exact fun hsucc =>
              hleast j (Nat.lt_of_succ_lt_succ hj) (at_succ.1 hsucc)

/-- A search that finds nothing has missed nothing. -/
theorem search_none {l : List α} (h : search pat l = none) :
    ∀ i, ¬ At pat l i := by
  induction l with
  | nil =>
      intro i
      unfold search at h
      split at h
      next => cases h
      next hpat => exact not_at_nil hpat
  | cons x xs ih =>
      intro i
      unfold search at h
      split at h
      next => cases h
      next hpat =>
        cases i with
        | zero => exact fun hzero => hpat (at_zero.1 hzero)
        | succ i =>
            exact fun hsucc =>
              ih (Option.map_eq_none_iff.1 h) i (at_succ.1 hsucc)

theorem search_eq_none_iff : search pat l = none ↔ ∀ i, ¬ At pat l i := by
  constructor
  · exact search_none
  · intro h
    cases hs : search pat l with
    | none => rfl
    | some i => exact absurd (search_some hs).1 (h i)

theorem search_eq_some_iff :
    search pat l = some i ↔ At pat l i ∧ ∀ j < i, ¬ At pat l j := by
  constructor
  · exact search_some
  · rintro ⟨hat, hleast⟩
    cases hs : search pat l with
    | none => exact absurd hat (search_none hs i)
    | some k =>
        obtain ⟨hk, hleast'⟩ := search_some hs
        have hle : ¬ i < k := fun hlt => hleast' i hlt hat
        have hge : ¬ k < i := fun hlt => hleast k hlt hk
        rw [Nat.le_antisymm (Nat.le_of_not_lt hle) (Nat.le_of_not_lt hge)]

-- ======================================================= a longer list

section Append

variable {c : List α} (d : List α)

omit [DecidableEq α] in
theorem At.append (h : At pat c i) : At pat (c ++ d) i := by
  obtain ⟨hi, hpat⟩ := h
  refine ⟨?_, ?_⟩
  · rw [List.length_append]
    omega
  · rw [List.drop_append_of_le_length hi]
    exact hpat.trans (List.prefix_append ..)

omit [DecidableEq α] in
/-- A place that ends with the old elements was one before. -/
theorem At.of_append (h : At pat (c ++ d) i) (hi : i + pat.length ≤ c.length) :
    At pat c i := by
  obtain ⟨-, hpat⟩ := h
  refine ⟨by omega, ?_⟩
  rw [List.drop_append_of_le_length (by omega)] at hpat
  refine List.prefix_of_prefix_length_le hpat (List.prefix_append ..) ?_
  rw [List.length_drop]
  omega

/-- A place that was found stays the first one. -/
theorem search_append_some (h : search pat c = some i) :
    search pat (c ++ d) = some i := by
  obtain ⟨hat, hleast⟩ := search_some h
  have hend := hat.add_le
  refine search_eq_some_iff.2 ⟨hat.append d, fun j hj hnew => ?_⟩
  exact hleast j hj (hnew.of_append d (by omega))

omit [DecidableEq α] in
/-- Places of the list from `n` on. -/
theorem at_drop {n : Nat} (hn : n ≤ l.length) :
    At pat (l.drop n) i ↔ At pat l (n + i) := by
  unfold At
  rw [List.length_drop, List.drop_drop]
  constructor
  · rintro ⟨hi, hpat⟩
    exact ⟨by omega, hpat⟩
  · rintro ⟨hi, hpat⟩
    exact ⟨by omega, hpat⟩

/-- Nothing in front of `n`: the search may begin there. -/
theorem search_drop {n : Nat} (hn : n ≤ l.length)
    (hfront : ∀ j < n, ¬ At pat l j) :
    search pat l = (search pat (l.drop n)).map (n + ·) := by
  cases hs : search pat (l.drop n) with
  | none =>
      refine search_eq_none_iff.2 fun i hat => ?_
      by_cases hi : i < n
      · exact hfront i hi hat
      · apply search_none hs (i - n)
        rw [at_drop hn, Nat.add_sub_cancel' (Nat.le_of_not_lt hi)]
        exact hat
  | some k =>
      obtain ⟨hat, hleast⟩ := search_some hs
      refine search_eq_some_iff.2 ⟨(at_drop hn).1 hat, fun j hj hnew => ?_⟩
      have hj' : j < n + k := hj
      by_cases hjn : j < n
      · exact hfront j hjn hnew
      · apply hleast (j - n) (by omega)
        rw [at_drop hn, Nat.add_sub_cancel' (Nat.le_of_not_lt hjn)]
        exact hnew

/-- After a search that found nothing, only the places that reach into the
new elements are left. -/
theorem search_append_none (h : search pat c = none) :
    search pat (c ++ d)
      = (search pat ((c ++ d).drop (c.length - (pat.length - 1)))).map
        (c.length - (pat.length - 1) + ·) := by
  apply search_drop
  · rw [List.length_append]
    omega
  · intro j hj hnew
    exact search_none h j (hnew.of_append d (by omega))

end Append

end Search
