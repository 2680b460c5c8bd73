/-
The search in a zone's table (Cobra.TimeZone) is a linear scan.

# Main result

- `findLocaltime_eq_scan`: the front test, `lower_bound`, the test for
  equality and the step back together find the last transition whose key
  is at most the sentry's.

# How

`findLocaltime_found` goes through the branches once, for any table. Only
the end of it asks for the table to be sorted, and what does not, that no
index is out of range, is there for the tables of any file.
-/
import Cobra.TimeZone

namespace Cobra.TimeZone

open Machine LowerBound

-- ============================================================= the search

theorem Comp.less_eq (comp : Comp) (a b : Transition) :
    comp.less a b = decide (comp.key a < comp.key b) := by
  unfold Comp.less Comp.key
  cases comp.compareGmt with
  | true => rfl
  | false => rfl

theorem Comp.equal_iff (comp : Comp) (a b : Transition) :
    comp.equal a b = true ↔ comp.key a = comp.key b := by
  unfold Comp.equal Comp.key
  cases comp.compareGmt with
  | true => exact beq_iff_eq
  | false => exact beq_iff_eq

/-- What `findLocaltime` does once it knows the transition. -/
def Data.lookup (data : Data) : Option Transition → Except ZoneFault Localtime
  | none => data.front
  | some t => data.at t.localtimeIdx

/-- The search behind the front test. Its assertion holds in any table: a
search that ends at the beginning ends at an element that is neither
smaller nor greater than the sentry. -/
theorem searched_found {data : Data} {sentry first : Transition} {comp : Comp}
    (hfirst : data.transitions.head? = some first)
    (hfront : ¬ comp.key sentry < comp.key first) :
    ∃ t ∈ data.transitions,
      searched data sentry comp (lowerBound (comp.less · sentry) data.transitions)
        = data.at t.localtimeIdx
      ∧ (data.Increasing comp.key →
          lastAtMost comp.key (comp.key sentry) data.transitions = some t) := by
  have hless : (comp.less · sentry)
      = fun t => decide (comp.key t < comp.key sentry) :=
    funext fun t => comp.less_eq t sentry
  rw [hless]
  unfold searched
  cases hfound : data.transitions[lowerBound
      (fun t => decide (comp.key t < comp.key sentry)) data.transitions]? with
  | none =>
      obtain ⟨back, hback⟩ : ∃ t, data.transitions.getLast? = some t :=
        ⟨_, List.getLast?_eq_some_getLast
          (fun hnil => by rw [hnil] at hfirst; cases hfirst)⟩
      refine ⟨back, List.mem_of_getLast? hback, ?_, fun _ => ?_⟩
      · dsimp only
        rw [hback]
        rfl
      · rw [lastAtMost_of_end hfound, hback]
  | some found =>
      have hno := lowerBound_after hfound
      rw [decide_eq_false_iff_not] at hno
      dsimp only
      by_cases hequal : comp.key sentry = comp.key found
      · rw [if_pos ((comp.equal_iff sentry found).2 hequal)]
        exact ⟨found, List.mem_of_getElem? hfound, rfl,
          fun hs => lastAtMost_of_hit hs hfound hequal.symm⟩
      · rw [if_neg (mt (comp.equal_iff sentry found).1 hequal)]
        have hpos : lowerBound (fun t => decide (comp.key t < comp.key sentry))
            data.transitions ≠ 0 := by
          intro hzero
          rw [hzero, ← List.head?_eq_getElem?, hfirst] at hfound
          cases hfound
          omega
        obtain ⟨t, ht, -⟩ := lowerBound_before _ data.transitions hpos
        rw [require_bind hpos, ht]
        exact ⟨t, List.mem_of_getElem? ht, rfl, fun hs =>
          (lastAtMost_of_miss hs hfound (Ne.symm hequal) hpos).trans ht⟩

/-- The branches of `findLocaltime`: it is the first entry or that of some
transition, and in a sorted table of the right one. -/
theorem findLocaltime_found (data : Data) (sentry : Transition) (comp : Comp) :
    ∃ o : Option Transition, (∀ t, o = some t → t ∈ data.transitions)
      ∧ findLocaltime data sentry comp = data.lookup o
      ∧ (data.Increasing comp.key →
          lastAtMost comp.key (comp.key sentry) data.transitions = o) := by
  unfold findLocaltime
  cases hl : data.transitions with
  | nil => exact ⟨none, fun t h => (nomatch h), rfl, fun _ => rfl⟩
  | cons first rest =>
      have hfirst : data.transitions.head? = some first := by rw [hl]; rfl
      dsimp only
      rw [comp.less_eq, ← hl]
      by_cases hfront : comp.key sentry < comp.key first
      · rw [if_pos (decide_eq_true hfront)]
        exact ⟨none, fun t h => (nomatch h), rfl,
          fun hs => lastAtMost_of_front hs hfirst hfront⟩
      · rw [if_neg (by rw [decide_eq_true_eq]; exact hfront)]
        obtain ⟨t, hmem, heq, hscan⟩ := searched_found hfirst hfront
        refine ⟨some t, ?_, heq, hscan⟩
        rintro _ ⟨⟩
        exact hmem

-- ============================================================== the entries

theorem Data.Indexed.front_ok {data : Data} (h : data.Indexed) :
    data.front = .ok (data.entry none) := by
  unfold Data.front Data.entry
  cases hl : data.localtimes with
  | nil => exact absurd hl h.nonempty
  | cons a l => rfl

theorem Data.Indexed.at_ok {data : Data} (h : data.Indexed) {t : Transition}
    (ht : t ∈ data.transitions) :
    data.at t.localtimeIdx = .ok (data.entry (some t)) := by
  obtain ⟨hpos, hlt⟩ := h.transition t ht
  have hget : t.localtimeIdx.toNat < data.localtimes.length := by omega
  unfold Data.at Data.entry
  rw [if_neg (by omega), List.getElem?_eq_getElem hget]
  dsimp only
  rw [List.getD_eq_getElem?_getD, List.getElem?_eq_getElem hget]
  rfl

theorem Data.Indexed.lookup_ok {data : Data} (h : data.Indexed)
    {o : Option Transition} (ho : ∀ t, o = some t → t ∈ data.transitions) :
    data.lookup o = .ok (data.entry o) := by
  cases o with
  | none => exact h.front_ok
  | some t => exact h.at_ok (ho t rfl)

/-- The entries that a lookup finds are entries of the table. -/
theorem Data.Indexed.entry_mem {data : Data} (h : data.Indexed)
    {o : Option Transition} (ho : ∀ t, o = some t → t ∈ data.transitions) :
    data.entry o ∈ data.localtimes := by
  unfold Data.entry
  cases o with
  | none =>
      cases hl : data.localtimes with
      | nil => exact absurd hl h.nonempty
      | cons a l => exact List.mem_cons_self
  | some t =>
      obtain ⟨hpos, hlt⟩ := h.transition t (ho t rfl)
      have hget : t.localtimeIdx.toNat < data.localtimes.length := by omega
      dsimp only
      rw [List.getD_eq_getElem?_getD, List.getElem?_eq_getElem hget]
      exact List.getElem_mem hget

theorem findLocaltime_scan {data : Data} (comp : Comp) (h : data.Indexed)
    (hs : data.Increasing comp.key) (sentry : Transition) :
    findLocaltime data sentry comp
      = .ok (data.scan comp.key (comp.key sentry)) := by
  obtain ⟨o, hmem, heq, hscan⟩ := findLocaltime_found data sentry comp
  unfold Data.scan
  rw [heq, h.lookup_ok hmem, hscan hs]

/-- `findLocaltime` finds the entry of the last transition whose key is at
most the sentry's, or the first entry. -/
theorem findLocaltime_eq_scan {data : Data} (comp : Comp) (h : data.Indexed)
    (hs : data.Increasing comp.key) (sentry : Transition) :
    ∃ found, findLocaltime data sentry comp = .ok found
      ∧ (lastAtMost comp.key (comp.key sentry) data.transitions = none →
          data.localtimes.head? = some found)
      ∧ ∀ t, lastAtMost comp.key (comp.key sentry) data.transitions = some t →
          data.localtimes[t.localtimeIdx.toNat]? = some found := by
  refine ⟨_, findLocaltime_scan comp h hs sentry, fun hnone => ?_, fun t ht => ?_⟩
  · unfold Data.scan Data.entry
    rw [hnone]
    cases hl : data.localtimes with
    | nil => exact absurd hl h.nonempty
    | cons a l => rfl
  · obtain ⟨hpos, hlt⟩ := h.transition t (lastAtMost_mem ht).1
    have hget : t.localtimeIdx.toNat < data.localtimes.length := by omega
    unfold Data.scan Data.entry
    rw [ht]
    dsimp only
    rw [List.getD_eq_getElem?_getD, List.getElem?_eq_getElem hget]
    rfl

/-- A summer of Lord Howe Island: from 2011-10-01 15:30 to 2012-03-31 15:00
UTC the clocks are half an hour ahead of +10:30. -/
def lordHowe : Data where
  transitions := [⟨1317483000, 1317522600, 1⟩, ⟨1333206000, 1333243800, 0⟩]
  localtimes := [⟨37800, false, 0⟩, ⟨39600, true, 6⟩]
  -- "+1030", "+11" and their NULs
  abbreviation := [43, 49, 48, 51, 48, 0, 43, 49, 49, 0]

theorem lordHowe_zone : lordHowe.Zone where
  nonempty := by decide
  transition := by decide
  abbreviation := by decide
  by_gmttime := by
    unfold Data.Increasing
    decide
  by_localtime := by
    unfold Data.Increasing
    decide
  localtime_eq := by decide

/-- Exactly at the second transition. -/
theorem findLocaltime_eq_scan_hit :
    ∃ found, findLocaltime lordHowe ⟨1333206000, 0, 0⟩ ⟨true⟩ = .ok found
      ∧ (lastAtMost (Comp.key ⟨true⟩) 1333206000 lordHowe.transitions = none →
          lordHowe.localtimes.head? = some found)
      ∧ ∀ t, lastAtMost (Comp.key ⟨true⟩) 1333206000 lordHowe.transitions
            = some t →
          lordHowe.localtimes[t.localtimeIdx.toNat]? = some found :=
  findLocaltime_eq_scan ⟨true⟩ lordHowe_zone.toIndexed
    lordHowe_zone.by_gmttime ⟨1333206000, 0, 0⟩

end Cobra.TimeZone
