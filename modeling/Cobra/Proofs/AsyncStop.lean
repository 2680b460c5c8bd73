/-
What `AsyncLogging::stop` leaves behind.

The back-end tests `running_` at the head of a round and takes the lines
away at the swap. A `stop` between the two still gets its round; one that
comes later, while the round writes out or recycles, or before the first
round, ends the loop at the next test, and what was appended since the
last swap stays where it is. The flush behind the loop is the output's.

The argument counts bytes: those that the rounds have found, and those
still pending. After `stop` there is at most one more swap, and it is
there exactly if it was ahead (`Counted`). A line that no round has found
is lost only if it has bytes, so that empty lines do not matter
(`flushed_iff`).
-/
import Cobra.Proofs.AsyncLogging

namespace Cobra.AsyncLogging

open Machine

variable {s s' t : AsyncLogging} {before all : List (List UInt8)}

/-- Every line of `before` that has any bytes is in a buffer that a round
has found, and the output has got these buffers, less those dropped. -/
def Flushed (before all : List (List UInt8)) (t : AsyncLogging) : Prop :=
  handed t.output = t.found.flatMap kept
    ∧ ∃ rounds pend cur, Split all t rounds pend cur
      ∧ ∀ l ∈ before.drop rounds.flatten.flatten.length, l = []

/-- The number of bytes that the rounds have found. -/
def foundBytes (s : AsyncLogging) : Nat := s.found.flatten.flatten.length

-- =========================================================== counting

/-- Cut at the end of `found`, the rest of `before` is empty lines if the
bytes of `before` are no more than those of `found`. -/
theorem drop_nil_iff {found rest : List (List UInt8)}
    (hall : all = found ++ rest) (hbefore : before <+: all) :
    (∀ l ∈ before.drop found.length, l = [])
      ↔ before.flatten.length ≤ found.flatten.length := by
  have hfound : found <+: all := ⟨rest, hall.symm⟩
  obtain hle | ⟨more, rfl⟩ := List.prefix_or_prefix_of_prefix hbefore hfound
  · refine iff_of_true ?_ ?_
    · rw [List.drop_eq_nil_of_le hle.length_le]
      exact fun l hl => absurd hl List.not_mem_nil
    · obtain ⟨more, rfl⟩ := hle
      rw [List.flatten_append, List.length_append]
      exact Nat.le_add_right ..
  · rw [List.drop_left, List.flatten_append, List.length_append,
      ← List.flatten_eq_nil_iff, ← List.length_eq_zero_iff]
    omega

/-- When `threadFunc` has returned. -/
theorem flushed_iff (h : LogInv all t) (hbefore : before <+: all)
    (hpc : t.pc = .returned) :
    Flushed before all t ↔ before.flatten.length ≤ t.foundBytes := by
  have hdata := h.data
  unfold unwritten at hdata
  rw [hpc, List.map_nil, List.append_nil] at hdata
  have hcut : ∀ rounds pend cur, Split all t rounds pend cur →
      ((∀ l ∈ before.drop rounds.flatten.flatten.length, l = [])
        ↔ before.flatten.length ≤ t.foundBytes) := by
    intro rounds pend cur hsplit
    unfold foundBytes
    rw [hsplit.found_eq]
    have hall := hsplit.lines_eq
    rw [List.append_assoc] at hall
    exact drop_nil_iff hall hbefore
  constructor
  · rintro ⟨-, rounds, pend, cur, hsplit, hrest⟩
    exact (hcut rounds pend cur hsplit).mp hrest
  · intro hle
    obtain ⟨rounds, pend, cur, hsplit⟩ := h.split
    exact ⟨hdata, rounds, pend, cur, hsplit,
      (hcut rounds pend cur hsplit).mpr hle⟩

/-- The bytes of all the lines are found or pending. -/
theorem LogInv.bytes_eq (h : LogInv all s) :
    all.flatten.length = s.foundBytes + s.pending.length := by
  obtain ⟨rounds, pend, cur, hsplit⟩ := h.split
  unfold foundBytes
  rw [hsplit.found_eq, hsplit.pending_eq, ← List.length_append,
    ← List.flatten_append, ← List.append_assoc, ← hsplit.lines_eq]

-- ========================================================== after stop

theorem append_pending {logline : List UInt8} (hs : s.append logline = .ok s') :
    s.pending.length ≤ s'.pending.length := by
  unfold append at hs
  split at hs
  next => cases hs
  next b hb =>
    split at hs
    next hfits =>
      cases hs
      simp only [pending, hb, Option.map_some, Option.getD_some,
        data_append hfits, List.length_append]
      omega
    next =>
      cases hs
      simp only [pending, hb, Option.map_some, Option.getD_some,
        List.flatMap_append, List.flatMap_cons, List.flatMap_nil,
        List.append_nil, List.length_append]
      omega

theorem swap_bytes (hs : s.swap = .ok s') :
    s'.pc = .swapped ∧ s'.running = s.running
      ∧ s'.foundBytes = s.foundBytes + s.pending.length := by
  have hbytes : ∀ b, s.currentBuffer = some b →
      (s.found ++ [(s.buffers ++ [b]).map FixedBuffer.data]).flatten.flatten.length
        = s.foundBytes + s.pending.length := by
    intro b hb
    unfold foundBytes pending
    rw [hb, Option.map_some, Option.getD_some, ← List.length_append,
      List.flatten_append, List.flatten_append, List.flatten_singleton,
      List.map_append, List.flatten_append, List.flatMap_def, List.map_singleton,
      List.flatten_singleton]
  unfold swap at hs
  split at hs
  next => cases hs
  next b hb =>
    simp only at hs
    split at hs
    next =>
      cases hs
      exact ⟨rfl, rfl, hbytes b hb⟩
    next =>
      cases hs
      exact ⟨rfl, rfl, hbytes b hb⟩

/-- The places of the back-end behind its swap. -/
theorem not_swapAhead {pc : BackendPc} (hpc : s.pc = pc)
    (h : pc ≠ .locking ∧ pc ≠ .waiting) : ¬ s.swapAhead := by
  rintro (hs | hs)
  · exact h.1 (hpc.symm.trans hs)
  · exact h.2 (hpc.symm.trans hs)

theorem started_of {pc : BackendPc} (hpc : s.pc = pc)
    (h : pc ≠ .notStarted ∧ pc ≠ .opening) : s.started :=
  ⟨fun hs => h.1 (hpc.symm.trans hs), fun hs => h.2 (hpc.symm.trans hs)⟩

/-- Of a stopped logger, a step keeps what was found, or is the swap that
was still ahead. -/
structure AfterStop (s s' : AsyncLogging) : Prop where
  started : s'.started
  stopped : s'.running = false
  move : (s'.found = s.found ∧ s.pending.length ≤ s'.pending.length
      ∧ (s'.swapAhead ↔ s.swapAhead))
    ∨ (s.swapAhead ∧ ¬ s'.swapAhead
      ∧ s'.foundBytes = s.foundBytes + s.pending.length)

theorem afterStop_step {a : AsyncAct} (hstart : s.started)
    (hstop : s.running = false) (hs : s.step a = .ok s') : AfterStop s s' := by
  cases step_effect hs with
  | append logline ha hs =>
      obtain ⟨hpc, hrunning, -, hfound, -⟩ := append_frame hs
      refine ⟨started_of hpc hstart, hrunning.trans hstop,
        .inl ⟨hfound, append_pending hs, ?_⟩⟩
      unfold swapAhead
      rw [hpc]
  | swap ha hpc hs =>
      obtain ⟨hpc', hrunning, hbytes⟩ := swap_bytes hs
      exact ⟨started_of hpc' (by decide), hrunning.trans hstop,
        .inr ⟨hpc, not_swapAhead hpc' (by decide), hbytes⟩⟩
  | check ha now hpc hs =>
      obtain ⟨hpc', hrunning, hfound, hbuffers, hcurrent⟩ := check_frame hs
      refine ⟨started_of hpc' (by decide), hrunning.trans hstop,
        .inl ⟨hfound, ?_, ?_⟩⟩
      · apply Nat.le_of_eq
        unfold pending
        rw [hbuffers, hcurrent]
      · exact iff_of_false (not_swapAhead hpc' (by decide))
          (not_swapAhead hpc (by decide))
  | write ha i hpc hs =>
      subst hs
      obtain ⟨hfound, hbuffers, hcurrent, hrunning, hpc'⟩ := write_frame s i
      have hplace : (s.write i).started ∧ ¬ (s.write i).swapAhead := by
        obtain hpc' | hpc' := hpc'
        · exact ⟨started_of hpc' ⟨nofun, nofun⟩,
            not_swapAhead hpc' ⟨nofun, nofun⟩⟩
        · exact ⟨started_of hpc' (by decide), not_swapAhead hpc' (by decide)⟩
      refine ⟨hplace.1, hrunning.trans hstop, .inl ⟨hfound, ?_, ?_⟩⟩
      · apply Nat.le_of_eq
        unfold pending
        rw [hbuffers, hcurrent]
      · exact iff_of_false hplace.2 (not_swapAhead hpc ⟨nofun, nofun⟩)
  | quiet ha hq =>
      obtain ⟨hstart', hstop', hiff⟩ := hq.stopped hstart hstop
      refine ⟨hstart', hstop', .inl ⟨hq.found, ?_, hiff⟩⟩
      apply Nat.le_of_eq
      unfold pending
      rw [hq.buffers, hq.current]

/-- Stopped, with `n` bytes found or still to be found. -/
structure Counted (n : Nat) (s : AsyncLogging) : Prop where
  started : s.started
  stopped : s.running = false
  ahead : s.swapAhead → n ≤ s.foundBytes + s.pending.length
  behind : ¬ s.swapAhead → n ≤ s.foundBytes

theorem counted_step {n : Nat} {a : AsyncAct} (h : Counted n s)
    (hs : s.step a = .ok s') : Counted n s' := by
  obtain ⟨hstart, hstop, hmove⟩ := afterStop_step h.started h.stopped hs
  obtain ⟨hfound, hpending, hiff⟩ | ⟨hahead, hbehind, hbytes⟩ := hmove
  · refine ⟨hstart, hstop, fun hs' => ?_, fun hs' => ?_⟩
    · have hn := h.ahead (hiff.mp hs')
      unfold foundBytes at hn ⊢
      rw [hfound]
      omega
    · have hn := h.behind (mt hiff.mpr hs')
      unfold foundBytes at hn ⊢
      rw [hfound]
      exact hn
  · refine ⟨hstart, hstop, fun hs' => absurd hs' hbehind, fun _ => ?_⟩
    rw [hbytes]
    exact h.ahead hahead

/-- Stopped, with no swap ahead. -/
structure Settled (found : List (List (List UInt8))) (s : AsyncLogging) :
    Prop where
  started : s.started
  stopped : s.running = false
  behind : ¬ s.swapAhead
  found_eq : s.found = found

theorem settled_step {found : List (List (List UInt8))} {a : AsyncAct}
    (h : Settled found s) (hs : s.step a = .ok s') : Settled found s' := by
  obtain ⟨hstart, hstop, hmove⟩ := afterStop_step h.started h.stopped hs
  obtain ⟨hfound, -, hiff⟩ | ⟨hahead, -, -⟩ := hmove
  · exact ⟨hstart, hstop, mt hiff.mp h.behind, hfound.trans h.found_eq⟩
  · exact absurd hahead h.behind

-- ============================================================ the claim

theorem linesOf_append (as bs : List AsyncAct) :
    linesOf (as ++ bs) = linesOf as ++ linesOf bs :=
  List.filterMap_append

/-- When `threadFunc` has returned after a `stop`, the lines appended
before it have been flushed exactly if the back-end was between its loop
test and its swap when `stop` came, or nothing was pending. -/
theorem stop_flushes_iff (pre post : List AsyncAct)
    (hshort : ∀ l ∈ linesOf (pre ++ .stop :: post), l.length < kLargeBuffer)
    (hpre : run step create pre = .ok s) (hstart : s.started)
    (hpost : run step s (.stop :: post) = .ok t) (hpc : t.pc = .returned) :
    Flushed (linesOf pre) (linesOf (pre ++ .stop :: post)) t
      ↔ s.swapAhead ∨ s.pending = [] := by
  have hlines := linesOf_append pre (.stop :: post)
  have hs : LogInv (linesOf pre) s := by
    refine (run_logInv create_logInv fun l hl => hshort l ?_).of_ok hpre
    rw [hlines]
    exact List.mem_append_left _ hl
  have ht : LogInv (linesOf (pre ++ .stop :: post)) t :=
    (run_logInv create_logInv hshort).of_ok ((run_append _ hpre).trans hpost)
  have hstep : s.step .stop = .ok { s with running := false } :=
    if_neg (not_or.mpr hstart)
  rw [run_cons_ok post hstep] at hpost
  rw [flushed_iff ht ⟨_, hlines.symm⟩ hpc, hs.bytes_eq,
    ← List.length_eq_zero_iff]
  have hbehind : ¬ t.swapAhead := not_swapAhead hpc (by decide)
  constructor
  · intro hle
    by_contra hno
    obtain ⟨hahead, hpending⟩ := not_or.mp hno
    have hstopped : Settled s.found { s with running := false } :=
      ⟨hstart, rfl, hahead, rfl⟩
    have hsettled : Settled s.found t :=
      run_inv_all (fun _ _ _ h hs => settled_step h hs) hstopped hpost
    unfold foundBytes at hle
    rw [hsettled.found_eq] at hle
    omega
  · intro hor
    have hstopped : Counted (s.foundBytes + s.pending.length)
        { s with running := false } := by
      refine ⟨hstart, rfl, fun _ => Nat.le_refl _, fun hno => ?_⟩
      have hpending := hor.resolve_left hno
      rw [hpending]
      exact Nat.le_refl _
    have hcounted : Counted (s.foundBytes + s.pending.length) t :=
      run_inv_all (fun _ _ _ h hs => counted_step h hs) hstopped hpost
    exact hcounted.behind hbehind

/-- `stop` comes while the back-end waits: the round is still made. -/
theorem stop_flushes_while_waiting :
    ∃ s t, run step create [.start, .opened, .append [1], .test, .lock] = .ok s
      ∧ run step s [.stop, .wake, .check "now", .write, .write, .recycle, .test]
        = .ok t
      ∧ t.pc = .returned
      ∧ Flushed [[1]] [[1]] t := by
  refine ⟨_, _, rfl, rfl, rfl, ?_⟩
  exact (stop_flushes_iff [.start, .opened, .append [1], .test, .lock]
    [.wake, .check "now", .write, .write, .recycle, .test] (by decide) rfl
    ⟨nofun, nofun⟩ rfl rfl).mpr (.inl (.inr rfl))

/-- `stop` comes after the swap of a round: the line appended in between
is never handed over. -/
theorem stop_leaves_line_behind :
    ∃ s t, run step create [.start, .opened, .test, .lock, .wake, .append [1]]
        = .ok s
      ∧ run step s [.stop, .check "now", .write, .write, .recycle, .test] = .ok t
      ∧ t.pc = .returned
      ∧ t.output.flatMap bytesOf = []
      ∧ t.pending = [1]
      ∧ ∀ r ∈ t.found, r.length ≤ kMaxBuffers := by
  refine ⟨_, _, rfl, rfl, rfl, rfl, rfl, ?_⟩
  intro r hr
  obtain rfl := List.mem_singleton.mp hr
  decide

end Cobra.AsyncLogging
