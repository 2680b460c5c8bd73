/-
The timerfd covers the earliest timer: between two steps of the loop it
is armed no later than the queue needs it, whatever was added, cancelled
or re-armed on the way, and every timespec it is armed with is sane.

# Why it holds

`Covered q w` says that the timerfd is armed early enough for a timer
that expires at `w`. Arming for a timer covers every later one
(`Covered.mono`), so it is enough that each change of the earliest timer
arms, and that nothing un-arms but the read at the start of
`handleRead`, after which `reset` arms again.

`FdInv` says how far that goes inside a batch, when the read may have
consumed the expiration. A timer that expires at or before the Epoch is
covered even then: it has been inserted in the batch, since what was
there before and is still there expires after `now`. `reset` relies on
it, since it arms for valid expirations only.

# When it fails

Twice the code counts on arithmetic that can leave 64 bits.
`howMuchTimeFromNow` subtracts before it compares with 100, so an
expiration more than `2^63` microseconds in the past becomes one far in
the future (`minValue_arms_late`); and a restart that wraps leaves a
timer that `reset` refuses to arm for. `KeepsCovered` excludes the two.
-/
import Cobra.Proofs.TimerQueue

namespace Cobra

open Machine TimerQueue

-- ========================================================= the timespec

/-- Non-negative microseconds, split into seconds and nanoseconds. -/
theorem toInt_seconds {m : Int64} (hm : 0 ≤ m.toInt) :
    (m / Timestamp.kMicroSecondsPerSecond).toInt = m.toInt / 1000000 := by
  have hk : Timestamp.kMicroSecondsPerSecond.toInt = 1000000 := by decide
  rw [Int64.toInt_div_of_ne_right _ _ (by decide), hk,
    Int.tdiv_eq_ediv_of_nonneg hm]

theorem toInt_nanoseconds {m : Int64} (hm : 0 ≤ m.toInt) :
    (m % Timestamp.kMicroSecondsPerSecond * 1000).toInt
      = m.toInt % 1000000 * 1000 := by
  have hk : Timestamp.kMicroSecondsPerSecond.toInt = 1000000 := by decide
  have h1000 : (1000 : Int64).toInt = 1000 := by decide
  rw [Int64.toInt_mul, Int64.toInt_mod, hk, h1000,
    Int.tmod_eq_emod_of_nonneg hm]
  apply Int.bmod_eq_of_le
  · omega
  · omega

/-- The microseconds `howMuchTimeFromNow` converts. -/
def microsFromNow (now when_ : Timestamp) : Int :=
  max 100 (when_.microSecondsSinceEpoch - now.microSecondsSinceEpoch).toInt

theorem howMuchTimeFromNow_eq (now when_ : Timestamp) :
    (howMuchTimeFromNow now when_).tv_sec.toInt
        = microsFromNow now when_ / 1000000
      ∧ (howMuchTimeFromNow now when_).tv_nsec.toInt
        = microsFromNow now when_ % 1000000 * 1000 := by
  have h100 : (100 : Int64).toInt = 100 := by decide
  unfold howMuchTimeFromNow microsFromNow
  simp only
  split
  next h =>
    rw [Int64.lt_iff_toInt_lt, h100] at h
    rw [toInt_seconds (by omega), toInt_nanoseconds (by omega), h100,
      max_eq_left h.le]
    exact ⟨rfl, rfl⟩
  next h =>
    rw [Int64.lt_iff_toInt_lt, h100, not_lt] at h
    rw [toInt_seconds (by omega), toInt_nanoseconds (by omega),
      max_eq_right h]
    exact ⟨rfl, rfl⟩

theorem nanos_howMuchTimeFromNow (now when_ : Timestamp) :
    (howMuchTimeFromNow now when_).nanos = 1000 * microsFromNow now when_ := by
  obtain ⟨hsec, hnsec⟩ := howMuchTimeFromNow_eq now when_
  unfold Timespec.nanos
  rw [hsec, hnsec]
  omega

/-- At least 100 microseconds, with the nanoseconds in range. -/
def Timespec.Sane (ts : Timespec) : Prop :=
  100 * 1000 ≤ ts.nanos ∧ 0 ≤ ts.tv_nsec.toInt ∧ ts.tv_nsec.toInt < 10 ^ 9

/-- Whatever the subtraction did, the timespec is sane. -/
theorem sane_howMuchTimeFromNow (now when_ : Timestamp) :
    (howMuchTimeFromNow now when_).Sane := by
  have h100 : 100 ≤ microsFromNow now when_ := le_max_left ..
  unfold Timespec.Sane
  rw [nanos_howMuchTimeFromNow, (howMuchTimeFromNow_eq now when_).2]
  omega

/-- The subtraction of `howMuchTimeFromNow` does not overflow. -/
def NoUnderflow (now when_ : Timestamp) : Prop :=
  -2 ^ 63 ≤ when_.micros - now.micros

theorem microsFromNow_eq {now when_ : Timestamp} (hnow : 0 ≤ now.micros)
    (h : NoUnderflow now when_) :
    microsFromNow now when_ = max 100 (when_.micros - now.micros) := by
  have hlt : when_.micros < 2 ^ 63 := when_.microSecondsSinceEpoch.toInt_lt
  unfold NoUnderflow at h
  unfold microsFromNow
  rw [Int64.toInt_sub]
  congr 1
  apply Int.bmod_eq_of_le
  · show -(18446744073709551616 / 2) ≤ when_.micros - now.micros
    omega
  · show when_.micros - now.micros < (18446744073709551616 + 1) / 2
    omega

-- ============================================================= covering

namespace TimerQueue

/-- The timerfd is armed early enough for a timer that expires at `w`. -/
def Covered (fd : Timerfd) (w : Timestamp) : Prop :=
  ∃ d, fd.armed = some d ∧ d ≤ 1000 * max w.micros (fd.setAt + 100)

theorem Covered.mono {fd : Timerfd} {w w' : Timestamp} (h : Covered fd w)
    (hw : w ≤ w') : Covered fd w' := by
  obtain ⟨d, hd, hle⟩ := h
  refine ⟨d, hd, hle.trans ?_⟩
  have hw' := Timestamp.le_def.1 hw
  omega

/-- Arming covers the timer it is for. -/
theorem covered_resetTimerfd (fd : Timerfd) {now w : Timestamp}
    (hnow : 0 ≤ now.micros) (h : NoUnderflow now w) :
    Covered (resetTimerfd fd now w) w := by
  refine ⟨_, rfl, ?_⟩
  rw [nanos_howMuchTimeFromNow, microsFromNow_eq hnow h]
  show now.micros * 1000 + 1000 * max 100 (w.micros - now.micros)
    ≤ 1000 * max w.micros (now.micros + 100)
  omega

/-- A valid expiration does not make the subtraction overflow. -/
theorem noUnderflow_of_valid {now w : Timestamp} (hw : w.valid = true) :
    NoUnderflow now w := by
  have hlt : now.micros < 2 ^ 63 := now.microSecondsSinceEpoch.toInt_lt
  unfold Timestamp.valid at hw
  unfold NoUnderflow
  have hpos : 0 < w.micros := of_decide_eq_true hw
  omega

/-- A timer that is not the earliest has an earlier one in front. -/
theorem exists_of_not_isEarliest {q : TimerQueue} {w : Timestamp}
    (h : ¬ q.isEarliest w = true) : ∃ e ∈ q.timers, e.when_ ≤ w := by
  unfold isEarliest at h
  cases hf : q.timers.first? with
  | none =>
      rw [hf] at h
      exact absurd rfl h
  | some e =>
      rw [hf] at h
      refine ⟨e, (OrdSet.first?_eq_some.1 hf).1, ?_⟩
      simpa using h

/-- The earliest timer is in front of all others. -/
theorem le_of_isEarliest {q : TimerQueue} {w : Timestamp}
    (h : q.isEarliest w = true) {e : Entry} (he : e ∈ q.timers) :
    w ≤ e.when_ := by
  unfold isEarliest at h
  cases hf : q.timers.first? with
  | none => exact absurd he (OrdSet.first?_eq_none.1 hf e)
  | some e₀ =>
      rw [hf] at h
      have hlt : w < e₀.when_ := of_decide_eq_true h
      have hle := Entry.when_le_of_le ((OrdSet.first?_eq_some.1 hf).2 e he)
      exact hlt.le.trans hle

end TimerQueue

-- ========================================================= the invariant

namespace TimerLoop

variable {L L' : TimerLoop}

/-- How far the timerfd covers the queue, also inside a batch. -/
structure FdInv (L : TimerLoop) : Prop where
  clock : 0 ≤ L.clock.micros
  covered : ∀ e ∈ L.queue.timers, L.frame = none ∨ e.when_.micros ≤ 0 →
    Covered L.queue.timerfd e.when_
  sane : ∀ ts ∈ L.queue.timerfd.passed, ts.Sane

theorem fdInv_create {clock : Timestamp} (h : 0 ≤ clock.micros) :
    FdInv (create clock) where
  clock := h
  covered := fun _ he => absurd he (OrdSet.not_mem_empty _)
  sane := fun _ hts => absurd hts List.not_mem_nil

/-- A timer that becomes the earliest one does so with arithmetic that
stays in range: it is added less than `2^63` microseconds late, or is
re-armed for a valid time. -/
def KeepsCovered (L : TimerLoop) : TimerAct → Prop
  | .addTimerInLoop p => ∀ t, L.queue.heap p = some t →
      L.queue.isEarliest t.expiration = true →
      NoUnderflow L.clock t.expiration
  | .endRead => ∀ f, L.frame = some f → ∀ e ∈ f.expired, ∀ t,
      L.queue.heap e.timer = some t → L.queue.Kept e.timer t →
      L.queue.isEarliest (t.restart f.now).expiration = true →
      (t.restart f.now).expiration.valid = true
  | _ => True

theorem sane_resetTimerfd {fd : Timerfd} (h : ∀ ts ∈ fd.passed, ts.Sane)
    (now w : Timestamp) :
    ∀ ts ∈ (resetTimerfd fd now w).passed, ts.Sane := by
  intro ts hts
  rcases List.mem_append.1 hts with hts | hts
  · exact h ts hts
  · rw [List.mem_singleton.1 hts]
    exact sane_howMuchTimeFromNow now w

/-- An insertion covers the timer, by arming for it or because an earlier
one is covered. -/
theorem fdInv_add (h : FdInv L) {p : Nat} {t : Timer} (obs : List TimerObs)
    (hC : L.queue.isEarliest t.expiration = true →
      NoUnderflow L.clock t.expiration) :
    FdInv { L with
      queue := L.queue.added L.clock p t
      fresh := L.fresh.erase p
      obs := obs } := by
  by_cases hearly : L.queue.isEarliest t.expiration = true
  · have heq : L.queue.added L.clock p t
        = { L.queue.withTimer p t with
            timerfd := resetTimerfd L.queue.timerfd L.clock t.expiration } :=
      if_pos hearly
    rw [heq]
    have hcov := covered_resetTimerfd L.queue.timerfd h.clock (hC hearly)
    refine ⟨h.clock, fun e he _ => ?_, sane_resetTimerfd h.sane _ _⟩
    rcases OrdSet.mem_insert.1 he with rfl | he
    · exact hcov
    · exact hcov.mono (le_of_isEarliest hearly he)
  · have heq : L.queue.added L.clock p t = L.queue.withTimer p t :=
      if_neg hearly
    rw [heq]
    refine ⟨h.clock, fun e he hor => ?_, h.sane⟩
    rcases OrdSet.mem_insert.1 he with rfl | he
    · obtain ⟨e₀, he₀, hle⟩ := exists_of_not_isEarliest hearly
      refine (h.covered e₀ he₀ ?_).mono hle
      exact hor.imp_right fun hw => (Timestamp.le_def.1 hle).trans hw
    · exact h.covered e he hor

/-- The end of a batch: `reset` arms for the earliest timer, unless that
one expires at or before the Epoch and was covered all along. -/
theorem fdInv_finish (h : FdInv L) {now : Timestamp} {expired : List Entry}
    {q : TimerQueue} (hf : L.frame = some ⟨now, expired, []⟩)
    (hr : Reset { L.queue with callingExpiredTimers := false } now expired q)
    (hC : KeepsCovered L .endRead) :
    FdInv { L with queue := q.rearmed L.clock, frame := none } := by
  have hfd : q.timerfd = L.queue.timerfd := hr.timerfd
  have hfirst : ∀ {e₀ : Entry}, q.timers.first? = some e₀ →
      ∀ e ∈ q.timers, e₀.when_ ≤ e.when_ := by
    intro e₀ hf₀ e he
    exact Entry.when_le_of_le ((OrdSet.first?_eq_some.1 hf₀).2 e he)
  unfold rearmed
  cases hf₀ : q.timers.first? with
  | none =>
      refine ⟨h.clock, fun e he _ => ?_, ?_⟩
      · exact absurd he (OrdSet.first?_eq_none.1 hf₀ e)
      · show ∀ ts ∈ q.timerfd.passed, ts.Sane
        rw [hfd]
        exact h.sane
  | some e₀ =>
      by_cases hvalid : e₀.when_.valid = true
      · simp only [if_pos hvalid]
        have hcov := covered_resetTimerfd q.timerfd (w := e₀.when_) h.clock
          (noUnderflow_of_valid hvalid)
        refine ⟨h.clock, fun e he _ => hcov.mono (hfirst hf₀ e he), ?_⟩
        rw [hfd]
        exact sane_resetTimerfd h.sane _ _
      · simp only [if_neg hvalid]
        have hpast : e₀.when_.micros ≤ 0 := by
          unfold Timestamp.valid at hvalid
          simpa using hvalid
        -- some timer of the old queue is covered and no later
        have hcov : Covered L.queue.timerfd e₀.when_ := by
          rcases hr.new e₀ (OrdSet.first?_eq_some.1 hf₀).1 with
            hold | ⟨p, t, hp, ht, hkept, hw⟩
          · exact h.covered e₀ hold (.inr hpast)
          · obtain ⟨e, he, rfl⟩ := List.mem_map.1 hp
            have hnot : ¬ L.queue.isEarliest e₀.when_ = true := by
              intro hearly
              rw [hw] at hearly hvalid
              exact hvalid (hC _ hf e he t ht hkept hearly)
            obtain ⟨e₁, he₁, hle⟩ := exists_of_not_isEarliest hnot
            exact (h.covered e₁ he₁
              (.inr ((Timestamp.le_def.1 hle).trans hpast))).mono hle
        refine ⟨h.clock, fun e he _ => ?_, ?_⟩
        · show Covered q.timerfd e.when_
          rw [hfd]
          exact hcov.mono (hfirst hf₀ e he)
        · show ∀ ts ∈ q.timerfd.passed, ts.Sane
          rw [hfd]
          exact h.sane

theorem passed_readTimerfd (fd : Timerfd) (now : Timestamp) :
    (readTimerfd fd now).passed = fd.passed := by
  unfold readTimerfd
  split
  · split <;> rfl
  · rfl

theorem fdInv_moves {a : TimerAct} (h : FdInv L) (hm : Moves L a L')
    (hC : KeepsCovered L a) : FdInv L' := by
  cases hm with
  | stay => exact h
  | tick t ht => exact ⟨h.clock.trans (Timestamp.le_def.1 ht), h.covered, h.sane⟩
  | new p w r d hp hfree => exact ⟨h.clock, h.covered, h.sane⟩
  | add p t hf ht => exact fdInv_add h _ (hC t ht)
  | drop id t hid ht =>
      refine ⟨h.clock, fun e he hor => ?_, h.sane⟩
      exact h.covered e (OrdSet.mem_erase.1 he).2 hor
  | mark => exact ⟨h.clock, h.covered, h.sane⟩
  | miss => exact ⟨h.clock, h.covered, h.sane⟩
  | begin hf expired q hq =>
      refine ⟨h.clock, fun e he hor => ?_, ?_⟩
      · -- what is left in the queue expires after `now`, past the Epoch
        exfalso
        have hlt := Timestamp.lt_def.1 ((hq.left e).1 he).2
        have hclock := h.clock
        rcases hor with hor | hor
        · cases hor
        · omega
      · show ∀ ts ∈ q.timerfd.passed, ts.Sane
        rw [hq.timerfd, passed_readTimerfd]
        exact h.sane
  | run now expired e rest t hf ht =>
      refine ⟨h.clock, fun e' he' hor => ?_, h.sane⟩
      refine h.covered e' he' (.inr ?_)
      rcases hor with hor | hor
      · cases hor
      · exact hor
  | finish now expired q hf hr =>
      exact fdInv_finish h hf hr hC

-- ============================================================ every run

/-- Between two steps of the loop the timerfd has expired and is still
to be read, or is armed no later than the earliest timer needs it, or
than 100 microseconds after it was set; and it was never passed a bad
timespec. -/
structure TimerfdCovers (L : TimerLoop) : Prop where
  earliest : L.frame = none → ∀ e, L.queue.timers.first? = some e →
    ∃ d, L.queue.timerfd.armed = some d
      ∧ (d ≤ 1000 * L.clock.micros
        ∨ d ≤ 1000 * max e.when_.micros (L.queue.timerfd.setAt + 100))
  sane : ∀ ts ∈ L.queue.timerfd.passed, ts.Sane

theorem FdInv.timerfdCovers (h : FdInv L) : TimerfdCovers L where
  earliest := by
    intro hf e he
    obtain ⟨d, hd, hle⟩ := h.covered e (OrdSet.first?_eq_some.1 he).1 (.inl hf)
    exact ⟨d, hd, .inr hle⟩
  sane := h.sane

/-- As long as the arithmetic of the timers that become the earliest ones
stays in range, the timerfd covers the earliest timer. -/
theorem timerfdCovers_of_keepsCovered (clock : Timestamp)
    (hclock : 0 ≤ clock.micros) (acts : List TimerAct)
    (hacts : Along step KeepsCovered (create clock) acts) :
    ∃ L, run step (create clock) acts = .ok L ∧ TimerfdCovers L := by
  have hstep : ∀ L a, (LoopInv L ∧ FdInv L) → KeepsCovered L a →
      ∃ L', L.step a = .ok L' ∧ (LoopInv L' ∧ FdInv L') := by
    intro L a ⟨hinv, hfd⟩ hC
    obtain ⟨L', hok, hm⟩ := step_moves hinv a
    exact ⟨L', hok, loopInv_moves hinv hm, fdInv_moves hfd hm hC⟩
  obtain ⟨L, hrun, -, hfd⟩ := run_safe hstep
    ⟨loopInv_create clock, fdInv_create hclock⟩ hacts
  exact ⟨L, hrun, hfd.timerfdCovers⟩

/-- A repeating timer and, from its callback, one that is overdue since
before the Epoch. -/
def overdueInBatch : List TimerAct :=
  [.newTimer 100 ⟨3⟩ true 10, .addTimerInLoop 100, .tick ⟨200⟩, .beginRead,
    .runNext, .newTimer 200 ⟨-7⟩ false 0, .addTimerInLoop 200, .endRead]

theorem timerfdCovers_overdue :
    0 ≤ (⟨5⟩ : Timestamp).micros
      ∧ Along step KeepsCovered (create ⟨5⟩) overdueInBatch
      ∧ ∃ L, run step (create ⟨5⟩) overdueInBatch = .ok L
        ∧ TimerfdCovers L := by
  have hclock : 0 ≤ (⟨5⟩ : Timestamp).micros := by decide
  have hacts : Along step KeepsCovered (create ⟨5⟩) overdueInBatch := by
    refine along_step trivial rfl (along_step ?_ rfl (along_step trivial rfl
      (along_step trivial rfl (along_step trivial rfl (along_step trivial rfl
        (along_step ?_ rfl (along_step ?_ rfl (along_nil _))))))))
    · intro t ht _
      cases ht
      unfold NoUnderflow
      decide
    · intro t ht _
      cases ht
      unfold NoUnderflow
      decide
    · intro f hf e he t ht _ _
      cases hf
      cases List.mem_singleton.1 he
      cases ht
      decide
  exact ⟨hclock, hacts, timerfdCovers_of_keepsCovered ⟨5⟩ hclock _ hacts⟩

/-- A timer added for the earliest time there is: the difference to now
wraps around, and the timerfd is armed for the far future. -/
theorem minValue_arms_late :
    ∃ L, run step (create ⟨5⟩)
        [.newTimer 100 ⟨Int64.minValue⟩ false 0, .addTimerInLoop 100] = .ok L
      ∧ ¬ TimerfdCovers L := by
  refine ⟨_, rfl, fun h => ?_⟩
  obtain ⟨d, hd, hle⟩ := h.earliest rfl ⟨⟨Int64.minValue⟩, 100⟩ rfl
  cases hd
  revert hle
  decide

end TimerLoop

end Cobra
