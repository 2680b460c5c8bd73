/-
Binary search in a list, as `std::lower_bound` does it, and the linear
scan it stands for.

# Shape

`search` halves an interval of positions and knows nothing of a list or
an order. Whatever the predicate, it ends at a boundary: the position
before it answers yes, the position itself no, and where one of them is
missing the search has come to that end (`search_boundary`).

In a list that is strictly increasing in some key there is one boundary,
and next to it is the last element whose key is at most a given one
(`lastAtMost_of_hit`, `lastAtMost_of_miss`).
-/
import Mathlib.Data.List.Basic

namespace LowerBound

variable {α : Type*}

-- ============================================================ the search

/-- The loop over `[first, first + len)`, with the number of rounds as
fuel. -/
def search (below : Nat → Bool) : Nat → Nat → Nat → Nat
  | 0, first, _ => first
  | fuel + 1, first, len =>
      if len = 0 then first
      else
        let half := len / 2
        if below (first + half) then
          search below fuel (first + half + 1) (len - half - 1)
        else search below fuel first half

/-- The first position that is not below, in a list where those below come
first. -/
def lowerBound (below : α → Bool) (l : List α) : Nat :=
  search (fun i => (l[i]?).any below) l.length 0 l.length

/-- A boundary of the predicate between two positions. -/
structure Boundary (below : Nat → Bool) (first last r : Nat) : Prop where
  first_le : first ≤ r
  le_last : r ≤ last
  before : r = first ∨ below (r - 1) = true
  after : r = last ∨ below r = false

theorem search_boundary {below : Nat → Bool} {fuel first len : Nat}
    (hfuel : len ≤ fuel) :
    Boundary below first (first + len) (search below fuel first len) := by
  induction fuel generalizing first len with
  | zero =>
      obtain rfl : len = 0 := by omega
      exact ⟨Nat.le_refl _, Nat.le_refl _, .inl rfl, .inl rfl⟩
  | succ fuel ih =>
      unfold search
      by_cases hempty : len = 0
      · rw [if_pos hempty, hempty]
        exact ⟨Nat.le_refl _, Nat.le_refl _, .inl rfl, .inl rfl⟩
      rw [if_neg hempty]
      dsimp only
      by_cases hbelow : below (first + len / 2) = true
      · -- the boundary is behind the middle, or right behind it
        rw [if_pos hbelow]
        have hrest := @ih (first + len / 2 + 1) (len - len / 2 - 1) (by omega)
        have hlast : first + len / 2 + 1 + (len - len / 2 - 1) = first + len := by
          omega
        rw [hlast] at hrest
        refine ⟨by have h := hrest.first_le; omega, hrest.le_last, .inr ?_,
          hrest.after⟩
        obtain heq | hyes := hrest.before
        · rw [heq, Nat.add_sub_cancel]
          exact hbelow
        · exact hyes
      · rw [if_neg hbelow]
        have hrest := @ih first (len / 2) (by omega)
        refine ⟨hrest.first_le, by have h := hrest.le_last; omega,
          hrest.before, .inr ?_⟩
        obtain heq | hno := hrest.after
        · rw [heq]
          exact Bool.eq_false_iff.2 hbelow
        · exact hno

/-- Where the search in a list ends, whether or not the list is sorted. -/
theorem lowerBound_boundary (below : α → Bool) (l : List α) :
    Boundary (fun i => (l[i]?).any below) 0 l.length (lowerBound below l) := by
  have h : Boundary (fun i => (l[i]?).any below) 0 (0 + l.length)
      (lowerBound below l) := search_boundary (Nat.le_refl l.length)
  rw [Nat.zero_add] at h
  exact h

/-- The element in front of where the search ends is below. -/
theorem lowerBound_before (below : α → Bool) (l : List α)
    (h : lowerBound below l ≠ 0) :
    ∃ x, l[lowerBound below l - 1]? = some x ∧ below x = true :=
  match (lowerBound_boundary below l).before with
  | .inl hzero => absurd hzero h
  | .inr hyes => (Option.any_eq_true _ _).1 hyes

/-- The element where the search ends is not below. -/
theorem lowerBound_after {below : α → Bool} {l : List α} {x : α}
    (h : l[lowerBound below l]? = some x) : below x = false := by
  obtain hlast | hno := (lowerBound_boundary below l).after
  · rw [hlast, List.getElem?_eq_none (Nat.le_refl _)] at h
    cases h
  · rw [h] at hno
    exact hno

-- ============================================================== the scan

/-- The last element whose key is at most `k`. -/
def lastAtMost (key : α → Int) (k : Int) (l : List α) : Option α :=
  (l.filter fun x => key x ≤ k).getLast?

variable {key : α → Int} {k : Int} {l : List α} {x : α} {i : Nat}

theorem lastAtMost_eq_none (h : ∀ y ∈ l, k < key y) :
    lastAtMost key k l = none := by
  unfold lastAtMost
  rw [List.filter_eq_nil_iff.2]
  · rfl
  · intro y hy
    have hlt := h y hy
    rw [decide_eq_true_eq]
    omega

/-- An element with a small enough key that only greater ones follow. -/
theorem lastAtMost_eq_some (hi : l[i]? = some x) (hx : key x ≤ k)
    (hrest : ∀ y ∈ l.drop (i + 1), k < key y) :
    lastAtMost key k l = some x := by
  have hsplit : l = l.take i ++ x :: l.drop (i + 1) := by
    rw [← List.getElem?_eq_some_iff.1 hi |>.2]
    exact (List.take_append_drop i l).symm.trans
      (by rw [List.drop_eq_getElem_cons (List.getElem?_eq_some_iff.1 hi).1])
  have hlast : (l.drop (i + 1)).filter (fun y => key y ≤ k) = [] := by
    rw [List.filter_eq_nil_iff]
    intro y hy
    have hlt := hrest y hy
    rw [decide_eq_true_eq]
    omega
  unfold lastAtMost
  rw [hsplit, List.filter_append, List.filter_cons_of_pos (by simpa using hx),
    hlast]
  simp

theorem lastAtMost_mem (h : lastAtMost key k l = some x) :
    x ∈ l ∧ key x ≤ k := by
  have hmem := List.mem_of_getLast? h
  rw [List.mem_filter, decide_eq_true_eq] at hmem
  exact hmem

/-- In a sorted list it is the greatest of them. -/
theorem key_le_lastAtMost (hs : l.Pairwise (key · < key ·)) {y : α} (hy : y ∈ l)
    (hle : key y ≤ k) (h : lastAtMost key k l = some x) : key y ≤ key x := by
  have hmem : y ∈ l.filter fun z => key z ≤ k :=
    List.mem_filter.2 ⟨hy, decide_eq_true hle⟩
  have hfilter := hs.filter fun z => key z ≤ k
  obtain ⟨ys, hys⟩ := List.getLast?_eq_some_iff.1 h
  rw [hys] at hmem hfilter
  obtain hmem | hmem := List.mem_append.1 hmem
  · exact Int.le_of_lt
      ((List.pairwise_append.1 hfilter).2.2 y hmem x (List.mem_singleton.2 rfl))
  · exact Int.le_of_eq (congrArg key (List.mem_singleton.1 hmem))

theorem lastAtMost_ne_none {y : α} (hy : y ∈ l) (hle : key y ≤ k) :
    ∃ x, lastAtMost key k l = some x := by
  have hmem : y ∈ l.filter fun z => key z ≤ k :=
    List.mem_filter.2 ⟨hy, decide_eq_true hle⟩
  exact ⟨_, List.getLast?_eq_some_getLast (List.ne_nil_of_mem hmem)⟩

/-- Two keys that pick the same elements pick the same last one. -/
theorem lastAtMost_congr {key' : α → Int} {k' : Int}
    (h : ∀ y ∈ l, key y ≤ k ↔ key' y ≤ k') :
    lastAtMost key k l = lastAtMost key' k' l := by
  unfold lastAtMost
  rw [List.filter_congr fun y hy => decide_eq_decide.2 (h y hy)]

/-- Two keys that both increase along a list order it in the same way. -/
theorem key_lt_iff {key' : α → Int} (hs : l.Pairwise (key · < key ·))
    (hs' : l.Pairwise (key' · < key' ·)) {y : α} (hx : x ∈ l) (hy : y ∈ l) :
    key x < key y ↔ key' x < key' y := by
  induction l with
  | nil => cases hx
  | cons a l ih =>
      rw [List.pairwise_cons] at hs hs'
      obtain rfl | hxl := List.mem_cons.1 hx
      · obtain rfl | hyl := List.mem_cons.1 hy
        · exact iff_of_false (Int.lt_irrefl _) (Int.lt_irrefl _)
        · exact iff_of_true (hs.1 y hyl) (hs'.1 y hyl)
      · obtain rfl | hyl := List.mem_cons.1 hy
        · have h1 := hs.1 x hxl
          have h2 := hs'.1 x hxl
          exact iff_of_false (by omega) (by omega)
        · exact ih hs.2 hs'.2 hxl hyl

-- ============================================ the search finds the scan's

section Sorted

variable (hs : l.Pairwise (key · < key ·))

include hs

/-- What follows an element of a sorted list is greater. -/
theorem key_lt_of_mem_drop (hi : l[i]? = some x) :
    ∀ y ∈ l.drop (i + 1), key x < key y := by
  obtain ⟨hlt, rfl⟩ := List.getElem?_eq_some_iff.1 hi
  have hdrop := hs.drop (i := i)
  rw [List.drop_eq_getElem_cons hlt, List.pairwise_cons] at hdrop
  exact hdrop.1

/-- The search ends at an element with the key itself. -/
theorem lastAtMost_of_hit (hi : l[i]? = some x) (hx : key x = k) :
    lastAtMost key k l = some x := by
  apply lastAtMost_eq_some hi (Int.le_of_eq hx)
  intro y hy
  rw [← hx]
  exact key_lt_of_mem_drop hs hi y hy

/-- The search ends at an element with a greater key: the one in front of
it is meant. -/
theorem lastAtMost_of_miss
    (hi : l[lowerBound (fun y => decide (key y < k)) l]? = some x)
    (hx : key x ≠ k) (hpos : lowerBound (fun y => decide (key y < k)) l ≠ 0) :
    lastAtMost key k l
      = l[lowerBound (fun y => decide (key y < k)) l - 1]? := by
  obtain ⟨y, hy, hbelow⟩ := lowerBound_before _ l hpos
  have hno := lowerBound_after hi
  rw [decide_eq_true_eq] at hbelow
  rw [decide_eq_false_iff_not] at hno
  rw [hy]
  apply lastAtMost_eq_some hy (Int.le_of_lt hbelow)
  intro z hz
  obtain ⟨hlt, rfl⟩ := List.getElem?_eq_some_iff.1 hi
  rw [Nat.sub_add_cancel (Nat.pos_of_ne_zero hpos),
    List.drop_eq_getElem_cons hlt, List.mem_cons] at hz
  obtain rfl | hz := hz
  · omega
  · have hgt := key_lt_of_mem_drop hs hi z hz
    omega

omit hs in
/-- The search comes to the end: the last element is meant. -/
theorem lastAtMost_of_end
    (hi : l[lowerBound (fun y => decide (key y < k)) l]? = none) :
    lastAtMost key k l = l.getLast? := by
  have hle := (lowerBound_boundary (fun y => decide (key y < k)) l).le_last
  have hlast : lowerBound (fun y => decide (key y < k)) l = l.length :=
    Nat.le_antisymm hle (List.getElem?_eq_none_iff.1 hi)
  by_cases hnil : l = []
  · rw [hnil]
    rfl
  have hpos : lowerBound (fun y => decide (key y < k)) l ≠ 0 := by
    rw [hlast]
    exact fun h => hnil (List.length_eq_zero_iff.1 h)
  obtain ⟨y, hy, hbelow⟩ := lowerBound_before _ l hpos
  rw [decide_eq_true_eq] at hbelow
  rw [hlast] at hy
  rw [List.getLast?_eq_getElem?, hy]
  apply lastAtMost_eq_some hy (Int.le_of_lt hbelow)
  intro z hz
  rw [Nat.sub_add_cancel (List.length_pos_iff.2 hnil), List.drop_length] at hz
  cases hz

/-- Nothing is at most a key that is smaller than the first. -/
theorem lastAtMost_of_front (hi : l.head? = some x) (hx : k < key x) :
    lastAtMost key k l = none := by
  apply lastAtMost_eq_none
  cases l with
  | nil => cases hi
  | cons a l =>
      cases hi
      intro y hy
      obtain rfl | hy := List.mem_cons.1 hy
      · exact hx
      · exact Int.lt_trans hx ((List.pairwise_cons.1 hs).1 y hy)

end Sorted

end LowerBound
