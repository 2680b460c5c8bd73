/-
When `ThreadPool::stop` strands a producer.

`stop` notifies only `notEmpty_`, and `run` does not look at `running_`.
A producer parked on `notFull_` is woken by a worker that takes a task,
and after `stop` each worker takes at most once more: only those that are
already in `take` do.

# The count

`Room` compares the calls of `run` in progress with the places they can
still get: the free ones, and one for each task that a worker in `take`
can take. From `stop` on no step spoils it, so that with `Room` every
call gets in (`roomy_step`). Without it, a schedule that first lets the
workers go and then the producers ends with one of them parked
(`strands_of_not_room`): the places run out before the calls do, in
whatever order they come.
-/
import Cobra.ThreadPool

namespace Cobra.ThreadPool

open Machine Monitor

variable {τ : Type} {s s' : ThreadPool τ} {n m : Nat}

-- ======================================================= the invariant

/-- What holds of the pool with `n` workers accounted for. -/
structure PoolCore (n m : Nat) (s : ThreadPool τ) : Prop where
  maxSize : s.maxQueueSize = m
  count : s.testing + s.inTake + s.working.length + s.finished = n
  bound : 0 < m → s.queue.length ≤ m
  unbounded : m = 0 → s.notFull.waiting = 0
  alive : s.running = true → s.finished = 0
  quiet : s.running = false → s.notEmpty.parked = []

/-- And the producers are served by the free places. -/
structure PoolInv (n m : Nat) (s : ThreadPool τ) : Prop
    extends PoolCore n m s where
  threads : s.threads = n
  putters : s.notFull.Served (m - s.queue.length)

theorem start_inv (n m : Nat) : PoolInv n m (start n m : ThreadPool τ) where
  maxSize := rfl
  count := rfl
  bound := fun _ => Nat.zero_le _
  unbounded := fun _ => rfl
  alive := fun _ => rfl
  quiet := fun h => Bool.noConfusion h
  threads := rfl
  putters := fun h => absurd rfl h

theorem inTake_stop (s : ThreadPool τ) : s.stop.inTake = s.inTake := by
  simp only [stop, inTake, CondVar.waiting_notifyAll]

theorem isFull_iff (h : PoolCore n m s) :
    s.isFull = true ↔ 0 < m ∧ s.queue.length = m := by
  have hbound := h.bound
  unfold isFull
  rw [h.maxSize, Bool.and_eq_true, decide_eq_true_iff, decide_eq_true_iff]
  omega

/-- The section of `run`: a place is taken, or the caller parks. -/
theorem runSection_inv (task : τ) (pick : Nat) (h : PoolCore n m s)
    (hthreads : s.threads = n)
    (hputters : s.notFull.Served (m - s.queue.length - 1)) :
    Holds (s.runSection task pick) (PoolInv n m) := by
  have hiff := isFull_iff h
  unfold runSection
  by_cases hfull : s.isFull = true
  · obtain ⟨hpos, hlen⟩ := hiff.mp hfull
    rw [if_pos hfull]
    refine holds_ok ⟨⟨h.maxSize, h.count, h.bound, ?_, h.alive, h.quiet⟩,
      hthreads, ?_⟩
    · exact fun h0 => absurd h0 (Nat.ne_of_gt hpos)
    · simp only [hlen, Nat.sub_self]
      exact CondVar.Served.wait task
  · have hnot := mt hiff.mpr hfull
    have hbound := h.bound
    rw [if_neg hfull]
    refine holds_require hfull
      (holds_ok ⟨⟨h.maxSize, ?_, ?_, h.unbounded, h.alive, ?_⟩, hthreads, ?_⟩)
    · have hcount := h.count
      unfold inTake at hcount ⊢
      simp only [CondVar.waiting_notify]
      exact hcount
    · intro hpos
      simp only [List.length_append, List.length_singleton]
      omega
    · intro hstop
      simp only
      rw [CondVar.notify_of_nil (h.quiet hstop)]
      exact h.quiet hstop
    · apply hputters.mono
      simp only [List.length_append, List.length_singleton]
      omega

/-- The section of `take`: one worker more is accounted for. -/
theorem takeSection_inv (pick : Nat) (h : PoolCore n m s)
    (hthreads : s.threads = n + 1)
    (hputters : s.notFull.Served (m - s.queue.length)) :
    PoolInv (n + 1) m (s.takeSection pick) := by
  have hcount := h.count
  have hbound := h.bound
  unfold inTake at hcount
  unfold takeSection
  by_cases hwait : (s.queue.isEmpty && s.running) = true
  · rw [if_pos hwait]
    have hrunning : s.running = true := (Bool.and_eq_true_iff.mp hwait).2
    refine ⟨⟨h.maxSize, ?_, h.bound, h.unbounded, h.alive, ?_⟩,
      hthreads, hputters⟩
    · simp only [inTake, CondVar.waiting_wait]
      omega
    · intro hstop
      rw [hrunning] at hstop
      cases hstop
  · rw [if_neg hwait]
    cases hq : s.queue with
    | nil =>
        rw [hq] at hputters
        refine ⟨⟨h.maxSize, ?_, fun _ => Nat.zero_le _, h.unbounded, h.alive,
          h.quiet⟩, hthreads, hputters⟩
        simp only [inTake]
        omega
    | cons task rest =>
        rw [hq, List.length_cons] at hbound hputters
        refine ⟨⟨h.maxSize, ?_, ?_, ?_, h.alive, h.quiet⟩, hthreads, ?_⟩
        · simp only [inTake, List.length_append, List.length_singleton]
          omega
        · exact fun hpos => Nat.le_of_succ_le (hbound hpos)
        · intro h0
          simp only [h.maxSize, h0, Nat.lt_irrefl, if_false]
          exact h.unbounded h0
        · simp only [h.maxSize]
          by_cases hpos : 0 < m
          · have hplace : m - rest.length = m - (rest.length + 1) + 1 := by
              have := hbound hpos
              omega
            rw [if_pos hpos, hplace]
            exact hputters.notify pick
          · rw [if_neg hpos]
            apply hputters.mono
            omega

theorem step_inv (h : PoolInv n m s) (a : PoolAct τ) :
    Holds (s.step a) (PoolInv n m) := by
  have hcount := h.count
  unfold inTake at hcount
  unfold step
  cases a with
  | run task =>
      simp only
      split
      next => exact holds_ok { h with }
      next => exact holds_ok h
  | enter k pick =>
      simp only
      split
      next task _ =>
        exact runSection_inv task pick { h.toPoolCore with } h.threads
          (h.putters.mono (Nat.sub_le ..))
      next => exact holds_ok h
  | resumeRun k pick =>
      simp only
      split
      next task c hc =>
        have hwaiting := CondVar.waiting_resume hc
        refine runSection_inv task pick
          { h.toPoolCore with unbounded := fun h0 => ?_ } h.threads
          (h.putters.resume hc)
        have hzero := h.unbounded h0
        simp only
        omega
      next => exact holds_ok h
  | wakeupRun k =>
      refine holds_ok { h with
        unbounded := fun h0 => ?_, putters := h.putters.wakeup k }
      simp only [CondVar.waiting_wakeup]
      exact h.unbounded h0
  | test =>
      simp only
      split
      next hpos =>
        split
        next hrunning =>
          refine holds_ok { h with count := ?_ }
          simp only [inTake]
          omega
        next hstop =>
          refine holds_ok { h with
            count := ?_, alive := fun hr => absurd hr hstop }
          simp only [inTake]
          omega
      next => exact holds_ok h
  | take pick =>
      simp only
      split
      next hpos =>
        obtain ⟨k, hk⟩ : ∃ k, n = k + 1 := ⟨n - 1, by omega⟩
        subst hk
        refine holds_ok (takeSection_inv pick
          { h.toPoolCore with count := ?_ } h.threads h.putters)
        simp only [inTake]
        omega
      next => exact holds_ok h
  | resumeTake k pick =>
      simp only
      split
      next u c hc =>
        have hwaiting := CondVar.waiting_resume hc
        obtain ⟨hparked, -⟩ := CondVar.resume_cases hc
        obtain ⟨k, hk⟩ : ∃ k, n = k + 1 := ⟨n - 1, by omega⟩
        subst hk
        refine holds_ok (takeSection_inv pick
          { h.toPoolCore with count := ?_, quiet := fun hstop => ?_ }
          h.threads h.putters)
        · simp only [inTake]
          omega
        · simp only [hparked]
          exact h.quiet hstop
      next => exact holds_ok h
  | wakeupTake k =>
      refine holds_ok { h with count := ?_, quiet := fun hstop => ?_ }
      · simp only [inTake, CondVar.waiting_wakeup]
        exact hcount
      · obtain heq | ⟨hp, -, -⟩ := s.notEmpty.wakeup_cases k
        · simp only [heq]
          exact h.quiet hstop
        · rw [h.quiet hstop] at hp
          cases hp
  | finishTask k =>
      simp only
      split
      next hk =>
        refine holds_ok { h with count := ?_ }
        simp only [inTake, List.length_eraseIdx_of_lt hk]
        omega
      next => exact holds_ok h
  | stop =>
      refine holds_ok { h with
        count := ?_, alive := fun hr => (Bool.false_ne_true hr).elim,
        quiet := fun _ => rfl }
      rw [inTake_stop]
      exact h.count

-- ========================================================== the places

/-- The places that the calls in progress can get. -/
def places (s : ThreadPool τ) : Nat :=
  s.freeSlots + min s.inTake s.queue.length

theorem places_stop (s : ThreadPool τ) : s.stop.places = s.places := by
  unfold places
  rw [inTake_stop]
  rfl

theorem room_iff (h : PoolCore n m s) :
    s.Room ↔ m = 0 ∨ s.callsInRun ≤ s.places := by
  unfold Room places
  rw [h.maxSize]

/-- A call that gets the mutex takes a place, or parks. -/
theorem runSection_places (task : τ) (pick : Nat) (h : PoolCore n m s)
    (hpos : 0 < m) :
    Holds (s.runSection task pick) fun s' =>
      s'.running = s.running ∧ s'.inTake = s.inTake
      ∧ ((s.freeSlots = 0 ∧ s'.callsInRun = s.callsInRun + 1
          ∧ s'.freeSlots = 0 ∧ s'.queue = s.queue)
        ∨ (s'.callsInRun = s.callsInRun ∧ s'.freeSlots + 1 = s.freeSlots
          ∧ s'.queue.length = s.queue.length + 1)) := by
  have hiff := isFull_iff h
  have hbound := h.bound hpos
  have hmax := h.maxSize
  unfold runSection
  by_cases hfull : s.isFull = true
  · have hfree : s.freeSlots = 0 := by
      unfold freeSlots
      rw [hmax, (hiff.mp hfull).2, Nat.sub_self]
    rw [if_pos hfull]
    refine holds_ok ⟨rfl, rfl, .inl ⟨hfree, ?_, hfree, rfl⟩⟩
    simp only [callsInRun, CondVar.waiting_wait]
    omega
  · have hnot := mt hiff.mpr hfull
    rw [if_neg hfull]
    refine holds_require hfull (holds_ok ⟨rfl, ?_, .inr ⟨rfl, ?_, ?_⟩⟩)
    · simp only [inTake, CondVar.waiting_notify]
    · simp only [freeSlots, List.length_append, List.length_singleton]
      omega
    · simp only [List.length_append, List.length_singleton]

/-- After `stop`, a worker in `take` turns one of its task's places into
a free one. -/
theorem takeSection_places (pick : Nat) (h : PoolCore n m s) (hpos : 0 < m)
    (hstop : s.running = false) :
    (s.takeSection pick).running = false
      ∧ (s.takeSection pick).callsInRun = s.callsInRun
      ∧ (s.takeSection pick).places
        = s.freeSlots + min (s.inTake + 1) s.queue.length := by
  have hbound := h.bound hpos
  have hmax := h.maxSize
  unfold takeSection
  rw [hstop, Bool.and_false, if_neg Bool.false_ne_true]
  cases hq : s.queue with
  | nil =>
      refine ⟨rfl, rfl, ?_⟩
      simp only [places, freeSlots, inTake, hq, List.length_nil, Nat.min_zero]
  | cons task rest =>
      rw [hq, List.length_cons] at hbound
      simp only [hmax, if_pos hpos]
      refine ⟨trivial, ?_, ?_⟩
      · simp only [callsInRun, CondVar.waiting_notify]
      · simp only [places, freeSlots, inTake, hq, hmax, List.length_cons]
        omega

-- =========================================================== with room

/-- Stopped, with a place for each call in progress. -/
structure Roomy (s : ThreadPool τ) : Prop where
  stopped : s.running = false
  enough : s.callsInRun ≤ s.places

/-- The section of `run` with a place for its caller. -/
theorem runSection_roomy (task : τ) (pick : Nat) (h : PoolCore n m s)
    (hpos : 0 < m) (hstop : s.running = false)
    (hroom : s.callsInRun + 1 ≤ s.places) :
    Holds (s.runSection task pick) Roomy := by
  apply holds_mono (runSection_places task pick h hpos)
  rintro s' ⟨hrunning, htake, hcases⟩
  rw [hstop] at hrunning
  refine ⟨hrunning, ?_⟩
  unfold places at hroom ⊢
  rw [htake]
  obtain ⟨hfree, hcalls, hfree', hqueue⟩ | ⟨hcalls, hfree, hqueue⟩ := hcases
  · rw [hqueue, hcalls]
    omega
  · rw [hqueue, hcalls]
    omega

/-- The section of `take`, with its worker no longer counted in `take`. -/
theorem takeSection_roomy (pick : Nat) (h : PoolCore n m s) (hpos : 0 < m)
    (hstop : s.running = false)
    (hroom : s.callsInRun ≤ s.freeSlots + min (s.inTake + 1) s.queue.length) :
    Roomy (s.takeSection pick) := by
  obtain ⟨hrunning, hcalls, hplaces⟩ := takeSection_places pick h hpos hstop
  refine ⟨hrunning, ?_⟩
  rw [hcalls, hplaces]
  exact hroom

/-- From `stop` on, no step spoils the room. -/
theorem roomy_step (h : PoolInv n m s) (hpos : 0 < m) (hr : Roomy s)
    (a : PoolAct τ) : Holds (s.step a) Roomy := by
  have hstop := hr.stopped
  have henough := hr.enough
  unfold callsInRun places inTake at henough
  unfold step
  cases a with
  | run task =>
      simp only [hstop, Bool.false_and, if_neg Bool.false_ne_true]
      exact holds_ok hr
  | enter k pick =>
      simp only
      split
      next task htask =>
        obtain ⟨hk, -⟩ := List.getElem?_eq_some_iff.mp htask
        refine runSection_roomy task pick { h.toPoolCore with } hpos hstop ?_
        simp only [callsInRun, places, freeSlots, inTake,
          List.length_eraseIdx_of_lt hk]
        unfold freeSlots at henough
        omega
      next => exact holds_ok hr
  | resumeRun k pick =>
      simp only
      split
      next task c hc =>
        have hwaiting := CondVar.waiting_resume hc
        refine runSection_roomy task pick
          { h.toPoolCore with
            unbounded := fun h0 => absurd h0 (Nat.ne_of_gt hpos) } hpos hstop ?_
        simp only [callsInRun, places, freeSlots, inTake]
        unfold freeSlots at henough
        omega
      next => exact holds_ok hr
  | wakeupRun k =>
      refine holds_ok ⟨hstop, ?_⟩
      simp only [callsInRun, places, inTake, CondVar.waiting_wakeup]
      exact henough
  | test =>
      simp only [hstop, if_neg Bool.false_ne_true]
      split
      next => exact holds_ok ⟨rfl, hr.enough⟩
      next => exact holds_ok hr
  | take pick =>
      simp only
      split
      next htaking =>
        have hcount := h.count
        unfold inTake at hcount
        refine holds_ok (takeSection_roomy (n := n - 1) pick
          { h.toPoolCore with count := ?_ } hpos hstop ?_)
        · simp only [inTake]
          omega
        · simp only [callsInRun, freeSlots, inTake]
          unfold freeSlots at henough
          omega
      next => exact holds_ok hr
  | resumeTake k pick =>
      simp only
      split
      next u c hc =>
        have hcount := h.count
        unfold inTake at hcount
        have hwaiting := CondVar.waiting_resume hc
        obtain ⟨hparked, -⟩ := CondVar.resume_cases hc
        refine holds_ok (takeSection_roomy (n := n - 1) pick
          { h.toPoolCore with count := ?_, quiet := fun _ => ?_ } hpos hstop ?_)
        · simp only [inTake]
          omega
        · simp only [hparked]
          exact h.quiet hstop
        · simp only [callsInRun, freeSlots, inTake]
          unfold freeSlots at henough
          omega
      next => exact holds_ok hr
  | wakeupTake k =>
      refine holds_ok ⟨hstop, ?_⟩
      simp only [callsInRun, places, inTake, CondVar.waiting_wakeup]
      exact henough
  | finishTask k =>
      simp only
      split
      next => exact holds_ok ⟨hstop, hr.enough⟩
      next => exact holds_ok hr
  | stop =>
      refine holds_ok ⟨rfl, ?_⟩
      rw [places_stop]
      exact hr.enough

/-- With room, nobody is left behind. -/
theorem Roomy.not_stranded (hr : Roomy s) (h : PoolInv n m s) :
    ¬ Stranded s := by
  rintro ⟨hfinished, hparked⟩
  have hcount := h.count
  have henough := hr.enough
  have hserved := h.putters hparked
  have hlen := List.length_pos_of_ne_nil hparked
  rw [hfinished, h.threads] at hcount
  unfold callsInRun places freeSlots CondVar.waiting CondVar.awake at henough
  rw [h.maxSize] at henough
  omega

-- ======================================================== without room

/-- Stopped, with more calls in progress than places. -/
structure Crowded (n m : Nat) (s : ThreadPool τ) : Prop
    extends PoolInv n m s where
  bounded : 0 < m
  stopped : s.running = false
  excess : s.places < s.callsInRun

/-- What the workers and the calls that are not parked have still to
do. A task taken can wake a call. -/
def todo (s : ThreadPool τ) : Nat :=
  s.arriving.length + s.notFull.awake + s.testing + 2 * s.working.length
    + 4 * s.inTake

/-- One step nearer to the end, with the calls still in excess. -/
def Advances (n m : Nat) (s : ThreadPool τ) : Prop :=
  ∃ a s', s.step a = .ok s' ∧ Crowded n m s' ∧ s'.todo < s.todo

/-- A step with its counts, and the rest from the invariant. -/
theorem Crowded.advances (h : Crowded n m s) (a : PoolAct τ)
    (hstep : Holds (s.step a) fun s' => s'.running = false
      ∧ s'.places < s'.callsInRun ∧ s'.todo < s.todo) :
    Advances n m s := by
  obtain ⟨s', hs', hstop, hexcess, htodo⟩ := hstep
  have hinv := (step_inv h.toPoolInv a).of_ok hs'
  exact ⟨a, s', hs', ⟨hinv, h.bounded, hstop, hexcess⟩, htodo⟩

theorem todo_takeSection (pick : Nat) (hstop : s.running = false) :
    (s.takeSection pick).todo ≤ s.todo + 3 := by
  unfold takeSection
  rw [hstop, Bool.and_false, if_neg Bool.false_ne_true]
  cases hq : s.queue with
  | nil =>
      simp only [todo, inTake]
      omega
  | cons task rest =>
      have hawake := s.notFull.awake_notify_le pick
      simp only [todo, inTake, List.length_append, List.length_singleton]
      split
      next => omega
      next => omega

/-- A worker that was in `take` takes; `s₁` is the pool without it. -/
theorem Crowded.advances_of_take {s₁ : ThreadPool τ} (h : Crowded n m s)
    (a : PoolAct τ) (hstep : s.step a = .ok (s₁.takeSection 0))
    (hcore : PoolCore (n - 1) m s₁) (hstop : s₁.running = false)
    (hcalls : s₁.callsInRun = s.callsInRun) (hqueue : s₁.queue = s.queue)
    (hless : s₁.inTake + 1 = s.inTake) (htodo : s₁.todo + 4 = s.todo) :
    Advances n m s := by
  obtain ⟨hstop', hcalls', hplaces'⟩ :=
    takeSection_places 0 hcore h.bounded hstop
  have hexcess := h.excess
  have hfree : s₁.freeSlots = s.freeSlots := by
    unfold freeSlots
    rw [hcore.maxSize, h.maxSize, hqueue]
  have hless' := todo_takeSection 0 hstop
  refine h.advances a ⟨_, hstep, hstop', ?_, by omega⟩
  rw [hcalls', hplaces', hcalls, hfree, hqueue, hless]
  exact hexcess

/-- A worker in `take` takes, and goes on. -/
theorem Crowded.advances_take (h : Crowded n m s) (htake : 0 < s.inTake) :
    Advances n m s := by
  have hstop := h.stopped
  have hcount := h.count
  by_cases htaking : 0 < s.taking
  · have hless : ({ s with taking := s.taking - 1 } : ThreadPool τ).inTake + 1
        = s.inTake := by
      simp only [inTake]
      omega
    refine h.advances_of_take (.take 0) (if_pos htaking)
      { h.toPoolCore with count := ?_ } hstop rfl rfl hless ?_
    · simp only
      omega
    · simp only [todo]
      omega
  · have hawake : 0 < s.notEmpty.awake := by
      have hquiet := h.quiet hstop
      unfold inTake CondVar.waiting at htake
      rw [hquiet] at htake
      simp only [List.length_nil] at htake
      omega
    obtain ⟨u, c, hc⟩ := CondVar.resume_zero hawake
    have hwaiting := CondVar.waiting_resume hc
    obtain ⟨hparked, -⟩ := CondVar.resume_cases hc
    have hless : ({ s with notEmpty := c } : ThreadPool τ).inTake + 1
        = s.inTake := by
      simp only [inTake]
      omega
    have hstep : s.step (.resumeTake 0 0)
        = .ok ({ s with notEmpty := c }.takeSection 0) := by
      simp only [step, hc]
    refine h.advances_of_take (.resumeTake 0 0) hstep
      { h.toPoolCore with
        count := ?_, quiet := fun _ => hparked.trans (h.quiet hstop) }
      hstop rfl rfl hless ?_
    · simp only
      omega
    · simp only [todo]
      omega

/-- A worker outside `take` goes on, towards its end. -/
theorem Crowded.advances_worker (h : Crowded n m s)
    (hworker : 0 < s.working.length ∨ 0 < s.testing) : Advances n m s := by
  have hstop := h.stopped
  obtain hworking | htesting := hworker
  · apply h.advances (.finishTask 0)
    simp only [step, if_pos hworking]
    refine holds_ok ⟨hstop, h.excess, ?_⟩
    simp only [todo, inTake, List.length_eraseIdx_of_lt hworking]
    omega
  · apply h.advances .test
    simp only [step, if_pos htesting, hstop, if_neg Bool.false_ne_true]
    refine holds_ok ⟨rfl, h.excess, ?_⟩
    simp only [todo, inTake]
    omega

theorem todo_runSection (task : τ) (pick : Nat)
    (hquiet : s.notEmpty.parked = []) :
    Holds (s.runSection task pick) fun s' => s'.todo = s.todo := by
  unfold runSection
  by_cases hfull : s.isFull = true
  · rw [if_pos hfull]
    exact holds_ok rfl
  · rw [if_neg hfull]
    refine holds_require hfull (holds_ok ?_)
    simp only [todo, inTake, CondVar.notify_of_nil hquiet]

/-- A call that is not parked gets the mutex; `s₁` is the pool without
it. With the workers gone, the places are the free ones. -/
theorem Crowded.advances_of_run {s₁ : ThreadPool τ} {task : τ}
    (h : Crowded n m s) (a : PoolAct τ)
    (hstep : s.step a = s₁.runSection task 0) (hcore : PoolCore n m s₁)
    (hstop : s₁.running = false) (hcalls : s₁.callsInRun + 1 = s.callsInRun)
    (hqueue : s₁.queue = s.queue) (hless : s₁.inTake = s.inTake)
    (hgone : s.inTake = 0) (htodo : s₁.todo + 1 = s.todo) :
    Advances n m s := by
  obtain ⟨s', hs', hrunning, htake, hcases⟩ :=
    runSection_places task 0 hcore h.bounded
  have htodo' := (todo_runSection task 0 (hcore.quiet hstop)).of_ok hs'
  have hexcess := h.excess
  have hfree : s₁.freeSlots = s.freeSlots := by
    unfold freeSlots
    rw [hcore.maxSize, h.maxSize, hqueue]
  refine h.advances a
    ⟨s', hstep.trans hs', hrunning.trans hstop, ?_, by omega⟩
  unfold places at hexcess ⊢
  rw [hgone, Nat.zero_min] at hexcess
  rw [htake, hless, hgone, Nat.zero_min]
  obtain ⟨-, hcalls', hfree', -⟩ | ⟨hcalls', hfree', -⟩ := hcases
  · omega
  · omega

theorem Crowded.advances_call (h : Crowded n m s) (hgone : s.inTake = 0)
    (hcall : 0 < s.arriving.length ∨ 0 < s.notFull.awake) :
    Advances n m s := by
  have hstop := h.stopped
  obtain harriving | hawake := hcall
  · have hstep : s.step (.enter 0 0)
        = { s with arriving := s.arriving.eraseIdx 0 }.runSection
            (s.arriving.get ⟨0, harriving⟩) 0 := by
      simp only [step, List.getElem?_eq_getElem harriving, List.get_eq_getElem]
    refine h.advances_of_run (.enter 0 0) hstep { h.toPoolCore with } hstop ?_
      rfl rfl hgone ?_
    · simp only [callsInRun, List.length_eraseIdx_of_lt harriving]
      omega
    · simp only [todo, inTake, List.length_eraseIdx_of_lt harriving]
      omega
  · obtain ⟨task, c, hc⟩ := CondVar.resume_zero hawake
    have hwaiting := CondVar.waiting_resume hc
    have hawake' := CondVar.awake_resume hc
    have hstep : s.step (.resumeRun 0 0)
        = { s with notFull := c }.runSection task 0 := by
      simp only [step, hc]
    have hpos := h.bounded
    refine h.advances_of_run (.resumeRun 0 0) hstep
      { h.toPoolCore with unbounded := fun h0 => by omega } hstop ?_ rfl rfl
      hgone ?_
    · simp only [callsInRun]
      omega
    · simp only [todo, inTake]
      omega

/-- With nothing left to do, the calls in excess are parked. -/
theorem Crowded.stranded (h : Crowded n m s) (htake : s.inTake = 0)
    (hworking : s.working.length = 0) (htesting : s.testing = 0)
    (harriving : s.arriving.length = 0) (hawake : s.notFull.awake = 0) :
    Stranded s := by
  have hcount := h.count
  have hexcess := h.excess
  refine ⟨?_, ?_⟩
  · rw [h.threads]
    omega
  · unfold callsInRun CondVar.waiting at hexcess
    exact List.ne_nil_of_length_pos (by omega)

/-- Step by step until the calls in excess are parked. -/
theorem Crowded.strands : ∀ (w : Nat) {s : ThreadPool τ}, s.todo ≤ w →
    Crowded n m s → ∃ acts t, run step s acts = .ok t ∧ Stranded t := by
  intro w
  induction w with
  | zero =>
      intro s hw h
      unfold todo at hw
      exact ⟨[], s, rfl, h.stranded (by omega) (by omega) (by omega) (by omega)
        (by omega)⟩
  | succ w ih =>
      intro s hw h
      -- the workers first, then the calls
      have hcases : Stranded s ∨ Advances n m s := by
        by_cases htake : 0 < s.inTake
        · exact .inr (h.advances_take htake)
        by_cases hworker : 0 < s.working.length ∨ 0 < s.testing
        · exact .inr (h.advances_worker hworker)
        by_cases hcall : 0 < s.arriving.length ∨ 0 < s.notFull.awake
        · exact .inr (h.advances_call (by omega) hcall)
        · exact .inl (h.stranded (by omega) (by omega) (by omega) (by omega)
            (by omega))
      obtain hstranded | ⟨a, s', hs', h', hless⟩ := hcases
      · exact ⟨[], s, rfl, hstranded⟩
      · obtain ⟨acts, t, hrun, ht⟩ := ih (by omega) h'
        exact ⟨a :: acts, t, (run_cons_ok acts hs').trans hrun, ht⟩

-- ============================================================ the runs

theorem run_inv {acts : List (PoolAct τ)} {s t : ThreadPool τ}
    (h : PoolInv n m s) (hrun : run step s acts = .ok t) : PoolInv n m t :=
  run_inv_all (fun _ a _ h hs => (step_inv h a).of_ok hs) h hrun

/-- An unbounded queue has no waiting calls at all. -/
theorem not_stranded_of_unbounded (h : PoolInv n 0 s) : ¬ Stranded s := by
  rintro ⟨-, hparked⟩
  have hnone := h.unbounded rfl
  have hlen := List.length_pos_of_ne_nil hparked
  unfold CondVar.waiting at hnone
  omega

/-- A run that goes on after `stop` with room. -/
theorem not_stranded_of_room {acts : List (PoolAct τ)} {t : ThreadPool τ}
    (h : PoolInv n m s) (hroom : s.Room)
    (hrun : run step s.stop acts = .ok t) : ¬ Stranded t := by
  have hstop := (step_inv h .stop).of_ok rfl
  by_cases hpos : 0 < m
  · have henough : s.callsInRun ≤ s.places :=
      ((room_iff h.toPoolCore).mp hroom).resolve_left (Nat.ne_of_gt hpos)
    have hroomy : Roomy s.stop := ⟨rfl, (places_stop s).symm ▸ henough⟩
    have hboth : PoolInv n m t ∧ Roomy t :=
      run_inv_all (I := fun s => PoolInv n m s ∧ Roomy s)
        (fun _ a _ h hs => ⟨(step_inv h.1 a).of_ok hs,
          (roomy_step h.1 hpos h.2 a).of_ok hs⟩) ⟨hstop, hroomy⟩ hrun
    exact hboth.2.not_stranded hboth.1
  · obtain rfl : m = 0 := Nat.eq_zero_of_not_pos hpos
    exact not_stranded_of_unbounded (run_inv hstop hrun)

/-- A run that goes on after `stop` without room. -/
theorem strands_of_not_room (h : PoolInv n m s) (hno : ¬ s.Room) :
    ∃ acts t, run step s.stop acts = .ok t ∧ Stranded t := by
  rw [room_iff h.toPoolCore] at hno
  have hcrowded : Crowded n m s.stop := by
    refine ⟨(step_inv h .stop).of_ok rfl, ?_, rfl, ?_⟩
    · omega
    · rw [places_stop]
      exact Nat.lt_of_not_le fun hle => hno (.inr hle)
  exact Crowded.strands _ (Nat.le_refl _) hcrowded

/-- As long as the pool runs nobody is stranded. A call of `stop` then
strands nobody, whatever follows, exactly if the queue is unbounded or
there is a place for every call of `run` in progress. -/
theorem stop_strands_nobody_iff (acts : List (PoolAct τ))
    {s : ThreadPool τ} (hn : 1 ≤ n)
    (hrun : run step (start n m) acts = .ok s) (hrunning : s.running = true) :
    ¬ Stranded s
      ∧ ((∀ post t, run step s (.stop :: post) = .ok t → ¬ Stranded t)
        ↔ s.Room) := by
  have h := run_inv (start_inv n m) hrun
  refine ⟨?_, ?_, ?_⟩
  · rintro ⟨hfinished, -⟩
    rw [h.alive hrunning, h.threads] at hfinished
    omega
  · intro hnobody
    by_contra hno
    obtain ⟨post, t, hpost, ht⟩ := strands_of_not_room h hno
    exact hnobody post t hpost ht
  · intro hroom post t hpost
    exact not_stranded_of_room h hroom hpost

/-- One call is still on its way, and there is a place for it. -/
theorem stop_strands_nobody_in_two_places :
    ∃ s : ThreadPool Nat,
      run step (start 1 2) [.run 1, .enter 0 0, .run 2] = .ok s
        ∧ s.callsInRun = 1
        ∧ ∀ post t, run step s (.stop :: post) = .ok t → ¬ Stranded t :=
  ⟨_, rfl, rfl, (stop_strands_nobody_iff (m := 2)
    [.run 1, .enter 0 0, .run 2] (s := { start 1 2 with
      queue := [1], arriving := [2] })
    (Nat.le_refl 1) rfl rfl).2.mpr (.inr (by decide))⟩

/-- One worker, one place: the first call fills the queue, the second one
parks, and the worker finds the pool stopped before it has taken
anything. -/
theorem stop_strands_second_call :
    ∃ t : ThreadPool Nat,
      run step (start 1 1) [.run 1, .enter 0 0, .run 2, .enter 0 0, .stop,
        .test] = .ok t ∧ Stranded t :=
  ⟨_, rfl, rfl, by decide⟩

end Cobra.ThreadPool
