/-
While the pool runs, the tasks all get done, unless the workers are all
stuck in calls of `run` that their own tasks make.

# When nothing is stuck

A worker that parks in `take` is served by `queue_` (`takers`), as a
caller that parks in `run` is by the free places. So with a worker that
is free, or one whose task is in no call, there is a step that brings a
task nearer to its end and leaves such a worker (`advances`); `todo`
counts the moves that are left.

Without one, everything depends on the workers' own calls. One that is
not parked gets in when there is a place (`exists_free`), and that frees
its worker.

# When all are stuck

If the queue is full, or the workers' calls are all parked, then nothing
that those inside do changes it (`stuck_step`): only a worker that takes
a task makes a place, and only it notifies the callers.
-/
import Cobra.Proofs.PoolLog

namespace Cobra.PoolLog

open Machine Monitor

variable {τ : Type} {s s' : PoolLog τ} {n m : Nat}

-- ================================================== a step nearer to the end

/-- The moves that the pool has left until every task has returned. -/
def poolTodo (p : ThreadPool (PoolCall τ)) : Nat :=
  4 * (callers p).length + 3 * p.queue.length + 2 * p.working.length
    + p.testing

def todo (s : PoolLog τ) : Nat := poolTodo s.pool + s.inline.length

/-- Somebody can go on whatever the calls of `run` do: a worker that calls
no task, or a task that is in no call. -/
def Free (s : PoolLog τ) : Prop :=
  s.pool.threads = 0 ∨ s.pool.working.length < s.pool.threads
    ∨ ∃ w ∈ s.pool.working, ¬ InRun s w

/-- A step of those that are inside, which leaves less to do and somebody
free. -/
def Advances (s : PoolLog τ) : Prop :=
  ∃ a s', Inside a ∧ step s a = .ok s' ∧ s'.pool.running = true
    ∧ s'.called = s.called ∧ Free s' ∧ todo s' < todo s

section Progress

open ThreadPool

variable {a : PoolAct (PoolCall τ)} {p : ThreadPool (PoolCall τ)}
  {c : PoolCall τ} {rest : List (PoolCall τ)}

/-- The call gets its task into `queue_`. -/
theorem runSection_some (hnot : ¬ p.isFull = true) (c : PoolCall τ)
    (pick : Nat) :
    Holds (p.runSection c pick) fun p' =>
      p'.running = p.running ∧ p'.queue = p.queue ++ [c]
        ∧ p'.working = p.working ∧ p'.testing = p.testing
        ∧ callers p' = callers p := by
  unfold runSection
  rw [if_neg hnot]
  exact holds_require hnot (holds_ok ⟨rfl, rfl, rfl, rfl, rfl⟩)

/-- A worker in `take` takes the task that is there. -/
theorem exists_take (h : RunInv n m s) (hrunning : s.pool.running = true)
    (htesting : s.pool.testing = 0) (hfree : s.pool.working.length < n)
    (hq : s.pool.queue = c :: rest) :
    ∃ a p, Inside (.pool a) ∧ Enabled s a ∧ s.pool.step a = .ok p
      ∧ p.running = true ∧ p.working = s.pool.working ++ [c]
      ∧ (callers s.pool).Perm (callers p) ∧ poolTodo p < poolTodo s.pool := by
  have hcount := h.pool.count
  have halive := h.pool.alive hrunning
  unfold inTake at hcount
  obtain ⟨a, p₁, hin, ha, hp, hrun₁, hq₁, hworking₁, htesting₁, hcallers₁⟩ :
      ∃ a p₁, Inside (.pool a) ∧ Enabled s a
        ∧ s.pool.step a = .ok (p₁.takeSection 0)
        ∧ p₁.running = s.pool.running ∧ p₁.queue = s.pool.queue
        ∧ p₁.working = s.pool.working ∧ p₁.testing = s.pool.testing
        ∧ callers p₁ = callers s.pool := by
    by_cases htaking : 0 < s.pool.taking
    · exact ⟨.take 0, { s.pool with taking := s.pool.taking - 1 }, trivial,
        trivial, if_pos htaking, rfl, rfl, rfl, rfl, rfl⟩
    · have hawake : 0 < s.pool.notEmpty.awake := by
        by_contra hnone
        have hparked : s.pool.notEmpty.parked ≠ [] := by
          unfold CondVar.waiting at hcount
          exact List.ne_nil_of_length_pos (by omega)
        have hlen : 0 < s.pool.queue.length := by
          rw [hq]
          exact Nat.succ_pos _
        have hpos := List.length_pos_of_ne_nil
          (h.takers.notified_ne_nil hlen hparked)
        unfold CondVar.awake at hnone
        omega
      obtain ⟨u, d, hd⟩ := CondVar.resume_zero hawake
      refine ⟨.resumeTake 0 0, { s.pool with notEmpty := d }, trivial, trivial,
        ?_, rfl, rfl, rfl, rfl, rfl⟩
      simp only [ThreadPool.step, hd]
  obtain ⟨hrun, hqueue, hworking, htesting', hcallers⟩ :=
    takeSection_some (hq₁.trans hq) 0
  rw [hworking₁] at hworking
  rw [hcallers₁] at hcallers
  refine ⟨a, _, hin, ha, hp, hrun.trans (hrun₁.trans hrunning), hworking,
    hcallers, ?_⟩
  unfold poolTodo
  rw [hqueue, hworking, htesting', htesting₁, ← hcallers.length_eq, hq,
    List.length_append, List.length_singleton, List.length_cons]
  omega

/-- With a free place, a call that is not parked gets in. -/
theorem exists_put (hnot : ¬ s.pool.isFull = true)
    (hc : c ∈ s.pool.arriving ++ s.pool.notFull.returning) :
    ∃ a p, Inside (.pool a) ∧ Enabled s a ∧ s.pool.step a = .ok p
      ∧ p.running = s.pool.running ∧ p.working = s.pool.working
      ∧ (callers s.pool).Perm (c :: callers p)
      ∧ poolTodo p < poolTodo s.pool := by
  obtain ⟨a, p, hin, ha, hp, hrun, hqueue, hworking, htesting, hcallers⟩ :
      ∃ a p, Inside (.pool a) ∧ Enabled s a ∧ s.pool.step a = .ok p
        ∧ p.running = s.pool.running ∧ p.queue = s.pool.queue ++ [c]
        ∧ p.working = s.pool.working ∧ p.testing = s.pool.testing
        ∧ (callers s.pool).Perm (c :: callers p) := by
    rcases List.mem_append.1 hc with hc | hc
    · obtain ⟨k, hk⟩ := List.mem_iff_getElem?.1 hc
      obtain ⟨p, hp, hrun, hqueue, hworking, htesting, hcallers⟩ :=
        runSection_some
          (p := { s.pool with arriving := s.pool.arriving.eraseIdx k }) hnot c 0
      refine ⟨.enter k 0, p, trivial, trivial, ?_, hrun, hqueue, hworking,
        htesting, ?_⟩
      · rw [← hp]
        simp only [ThreadPool.step, hk]
      · rw [hcallers]
        exact callers_enter hk
    · obtain ⟨k, d, hk, -, -⟩ := CondVar.exists_resume hc
      obtain ⟨p, hp, hrun, hqueue, hworking, htesting, hcallers⟩ :=
        runSection_some (p := { s.pool with notFull := d }) hnot c 0
      refine ⟨.resumeRun k 0, p, trivial, trivial, ?_, hrun, hqueue, hworking,
        htesting, ?_⟩
      · rw [← hp]
        simp only [ThreadPool.step, hk]
      · rw [hcallers]
        exact callers_resume hk
  refine ⟨a, p, hin, ha, hp, hrun, hworking, hcallers, ?_⟩
  unfold poolTodo
  rw [hqueue, hworking, htesting, hcallers.length_eq, List.length_cons,
    List.length_append, List.length_singleton]
  omega

/-- With nothing in `queue_` some call is not parked. -/
theorem exists_awake (h : RunInv n m s) (hqueue : s.pool.queue = [])
    (hcalls : callers s.pool ≠ []) :
    ∃ c, c ∈ s.pool.arriving ++ s.pool.notFull.returning := by
  refine List.exists_mem_of_ne_nil _ fun hnone => ?_
  obtain ⟨harriving, hreturning⟩ := List.append_eq_nil_iff.1 hnone
  obtain ⟨hnotified, -⟩ := List.append_eq_nil_iff.1 hreturning
  have hparked : s.pool.notFull.parked ≠ [] := by
    unfold callers CondVar.waiters at hcalls
    rw [harriving, List.nil_append] at hcalls
    intro hnil
    rw [hnil] at hcalls
    exact hcalls hreturning
  have hbounded : 0 < m := by
    by_contra hzero
    have hnobody := h.pool.unbounded (Nat.eq_zero_of_not_pos hzero)
    have hpos := List.length_pos_of_ne_nil hparked
    unfold CondVar.waiting at hnobody
    omega
  have hputters := h.pool.putters
  rw [hqueue, List.length_nil] at hputters
  exact hputters.notified_ne_nil hbounded hparked hnotified

theorem advances_of_pool (hin : Inside (.pool a)) (ha : Enabled s a)
    (hp : s.pool.step a = .ok p) (hrunning : p.running = true)
    (hfree : Free (s.logged a p)) (hless : poolTodo p < poolTodo s.pool) :
    Advances s :=
  ⟨.pool a, s.logged a p, hin, step_pool ha hp, hrunning, rfl, hfree,
    Nat.add_lt_add_right hless _⟩

/-- With no workers the last task that was called is in no call. -/
theorem advances_inline (h : RunInv n m s) (hn : n = 0)
    (hrunning : s.pool.running = true) (hinline : s.inline ≠ []) :
    Advances s := by
  obtain ⟨front, w, hw⟩ : ∃ front w, s.inline = front ++ [w] :=
    ⟨_, _, (List.dropLast_append_getLast hinline).symm⟩
  have hget : s.inline[front.length]? = some w := by
    rw [hw, List.getElem?_concat_length]
  have hnot : ¬ InRun s w := by
    rintro ⟨c, hc, hcw⟩
    have holder := h.calls.older c (h.history.mem_called_of_pending hc) _ hcw
    unfold pending at hc
    rw [(h.nobody hn).1, List.nil_append, hw] at hc
    have hsorted := h.calls.sorted
    rw [hw, List.pairwise_append] at hsorted
    rcases List.mem_append.1 hc with hc | hc
    · have hlt := hsorted.2.2 c hc w (List.mem_singleton_self w)
      omega
    · rw [List.mem_singleton.1 hc] at holder
      exact absurd holder (Nat.lt_irrefl _)
  have hstep : step s (.finishInline front.length)
      = .ok (s.finishInline front.length w) := by
    simp only [step, hget, if_neg hnot]
  refine ⟨.finishInline front.length, _, trivial, hstep, hrunning, rfl,
    .inl (h.pool.threads.trans hn), ?_⟩
  have hlen : front.length < s.inline.length := by
    rw [hw, List.length_append]
    exact Nat.lt_succ_self _
  unfold todo finishInline
  simp only [List.length_eraseIdx_of_lt hlen]
  omega

/-- A task that is in no call returns. -/
theorem advances_working {w : PoolCall τ} (h : RunInv n m s)
    (hrunning : s.pool.running = true) (hw : w ∈ s.pool.working)
    (hnot : ¬ InRun s w) : Advances s := by
  obtain ⟨k, hk⟩ := List.mem_iff_getElem?.1 hw
  obtain ⟨hlt, -⟩ := List.getElem?_eq_some_iff.1 hk
  have hen : Enabled s (.finishTask k) := by
    intro v hv
    rw [hk] at hv
    cases hv
    exact hnot
  refine advances_of_pool (a := .finishTask k) trivial hen (if_pos hlt) hrunning
    (.inr (.inl ?_)) ?_
  · have hcount := h.pool.count
    rw [← h.pool.threads] at hcount
    simp only [logged, List.length_eraseIdx_of_lt hlt]
    omega
  · have hsame : callers { s.pool with
        working := s.pool.working.eraseIdx k
        testing := s.pool.testing + 1 } = callers s.pool := rfl
    unfold poolTodo
    rw [hsame]
    simp only [List.length_eraseIdx_of_lt hlt]
    omega

/-- The workers' tasks are as they were, and one worker at least has
none. -/
theorem free_of_fewer (h : RunInv n m s) (hless : s.pool.working.length < n)
    (hp : s.pool.step a = .ok p) (hworking : p.working = s.pool.working) :
    Free (s.logged a p) := by
  have hthreads := ((step_inv h.pool a).of_ok hp).threads
  refine .inr (.inl ?_)
  simp only [logged, hworking, hthreads]
  exact hless

/-- A worker goes to `take`. -/
theorem advances_test (h : RunInv n m s) (hrunning : s.pool.running = true)
    (hless : s.pool.working.length < n) (htesting : 0 < s.pool.testing) :
    Advances s := by
  have hp : s.pool.step .test = .ok { s.pool with
      testing := s.pool.testing - 1, taking := s.pool.taking + 1 } := by
    simp only [ThreadPool.step, if_pos htesting, if_pos hrunning]
  refine advances_of_pool (a := .test) trivial trivial hp hrunning
    (free_of_fewer h hless hp rfl) ?_
  have hsame : callers { s.pool with
      testing := s.pool.testing - 1
      taking := s.pool.taking + 1 } = callers s.pool := rfl
  unfold poolTodo
  rw [hsame]
  simp only
  omega

/-- Nothing in `queue_`, and a call is still there: it gets in. -/
theorem advances_put (h : RunInv n m s) (hrunning : s.pool.running = true)
    (hless : s.pool.working.length < n) (hqueue : s.pool.queue = [])
    (hcalls : callers s.pool ≠ []) : Advances s := by
  obtain ⟨c, hc⟩ := exists_awake h hqueue hcalls
  have hnot : ¬ s.pool.isFull = true := by
    rw [isFull_iff h.pool.toPoolCore, hqueue, List.length_nil]
    omega
  obtain ⟨a, p, hin, ha, hp, hrun, hworking, -, htodo⟩ := exists_put hnot hc
  exact advances_of_pool hin ha hp (hrun.trans hrunning)
    (free_of_fewer h hless hp hworking) htodo

/-- A worker takes a task, which is in no call. -/
theorem advances_take (h : RunInv n m s) (hrunning : s.pool.running = true)
    (htesting : s.pool.testing = 0) (hless : s.pool.working.length < n)
    (hq : s.pool.queue = c :: rest) : Advances s := by
  obtain ⟨a, p, hin, ha, hp, hrun, hworking, hcallers, htodo⟩ :=
    exists_take h hrunning htesting hless hq
  refine advances_of_pool hin ha hp hrun (.inr (.inr ⟨c, ?_, ?_⟩)) htodo
  · simp only [logged, hworking]
    exact List.mem_append_right _ (List.mem_singleton_self c)
  · -- nobody can call `run` from a task that was in `queue_`
    rintro ⟨d, hd, hdc⟩
    have hd' : d ∈ pending s := by
      unfold pending logged at *
      rw [List.mem_append] at hd ⊢
      exact hd.imp_left hcallers.mem_iff.2
    obtain ⟨w, hw, hwc⟩ := h.calls.busy d hd' _ hdc
    refine not_active_of_queue h.history h.calls ?_ hw hwc
    rw [hq]
    exact List.mem_cons_self

end Progress

/-- With workers the calls are all in `run`. -/
theorem RunInv.pending_eq (h : RunInv n m s) (hpos : 0 < n) :
    pending s = callers s.pool := by
  unfold pending
  rw [(h.workers hpos).1, List.append_nil]

/-- Somebody is free: while there is a task somewhere, one is brought
nearer to its end, and somebody is free again. -/
theorem advances (h : RunInv n m s) (hrunning : s.pool.running = true)
    (hfree : Free s)
    (hleft : callers s.pool ≠ [] ∨ s.pool.queue ≠ [] ∨ active s ≠ []) :
    Advances s := by
  have hcount := h.pool.count
  have hthreads := h.pool.threads
  rcases Nat.eq_zero_or_pos n with hn | hpos
  · -- no workers
    have hfifo := h.history.fifo
    rw [(h.nobody hn).2] at hfifo
    refine advances_inline h hn hrunning fun hinline => ?_
    rcases hleft with hcalls | hqueue | hactive
    · exact hcalls (h.nobody hn).1
    · exact hqueue (List.append_eq_nil_iff.1 hfifo.symm).2
    · have hworking : s.pool.working = [] :=
        List.eq_nil_of_length_eq_zero (by omega)
      unfold active at hactive
      rw [hworking, hinline] at hactive
      exact hactive rfl
  by_cases hsome : ∃ w ∈ s.pool.working, ¬ InRun s w
  · obtain ⟨w, hw, hnot⟩ := hsome
    exact advances_working h hrunning hw hnot
  -- the tasks are all in calls, and one worker at least has none
  have hless : s.pool.working.length < n := by
    rcases hfree with hzero | hless | hfree
    · omega
    · omega
    · exact absurd hfree hsome
  by_cases htesting : 0 < s.pool.testing
  · exact advances_test h hrunning hless htesting
  cases hq : s.pool.queue with
  | cons c rest => exact advances_take h hrunning (by omega) hless hq
  | nil =>
      refine advances_put h hrunning hless hq ?_
      rcases hleft with hcalls | hqueue | hactive
      · exact hcalls
      · exact absurd hq hqueue
      · -- a task that is being called is in one of the calls
        obtain ⟨w, hw⟩ := List.exists_mem_of_ne_nil _ hactive
        unfold active at hw
        rw [(h.workers hpos).1, List.append_nil] at hw
        obtain ⟨c, hc, -⟩ := Decidable.not_not.1 fun hnot => hsome ⟨w, hw, hnot⟩
        rw [h.pending_eq hpos] at hc
        exact List.ne_nil_of_mem hc

-- ==================================================== when nothing is stuck

theorem Drains.of_step {a : PoolLogAct τ} (ha : Inside a)
    (hs : step s a = .ok s') (hcalled : s'.called = s.called)
    (h : Drains s') : Drains s := by
  obtain ⟨more, t, hmore, hrun, hsame, hreturned⟩ := h
  refine ⟨a :: more, t, ?_, (run_cons_ok more hs).trans hrun,
    hsame.trans hcalled, hreturned⟩
  intro b hb
  rcases List.mem_cons.1 hb with rfl | hb
  · exact ha
  · exact hmore b hb

/-- With nothing left anywhere, every task given has returned. -/
theorem drains_of_none (h : RunInv n m s) (hcallers : callers s.pool = [])
    (hqueue : s.pool.queue = []) (hactive : active s = []) : Drains s := by
  refine ⟨[], s, fun a ha => absurd ha List.not_mem_nil, rfl, rfl, ?_⟩
  have hplaces := h.history.places
  rw [hcallers, hqueue, hactive, List.nil_append, List.nil_append,
    List.append_nil] at hplaces
  exact hplaces

theorem drains_of_free (h : RunInv n m s) (hrunning : s.pool.running = true)
    (hfree : Free s) : Drains s := by
  induction hw : todo s using Nat.strongRecOn generalizing s with
  | _ w ih =>
      by_cases hleft : callers s.pool ≠ [] ∨ s.pool.queue ≠ []
          ∨ active s ≠ []
      · obtain ⟨a, s', ha, hs, hrunning', hcalled, hfree', hless⟩ :=
          advances h hrunning hfree hleft
        refine .of_step ha hs hcalled (ih _ ?_ ?_ hrunning' hfree' rfl)
        · rw [← hw]
          exact hless
        · exact runInv_moves h (moves_of_ok hs)
      · rw [not_or, not_or, Decidable.not_not, Decidable.not_not,
          Decidable.not_not] at hleft
        exact drains_of_none h hleft.1 hleft.2.1 hleft.2.2

/-- Nobody is free, and one of the workers' calls can get in: its task is
in no call then. -/
theorem exists_free (h : RunInv n m s) (hrunning : s.pool.running = true)
    (hbusy : ¬ Free s) (hnot : ¬ Stuck s) :
    ∃ a s', Inside a ∧ step s a = .ok s' ∧ s'.pool.running = true
      ∧ s'.called = s.called ∧ Free s' := by
  have hcount := h.pool.count
  have hthreads := h.pool.threads
  unfold Free at hbusy
  rw [not_or, not_or] at hbusy
  obtain ⟨hpos, hless, hnone⟩ := hbusy
  have hin : ∀ w ∈ s.pool.working, InRun s w := fun w hw =>
    Decidable.not_not.1 fun hout => hnone ⟨w, hw, hout⟩
  have hpending := h.pending_eq (by omega)
  unfold Stuck at hnot
  rw [not_and, not_and, not_or] at hnot
  obtain ⟨hroom, hparked⟩ := hnot (Nat.pos_of_ne_zero hpos) (by omega)
  have hfull : ¬ s.pool.isFull = true := fun hfull => hroom ⟨hfull, hin⟩
  obtain ⟨w, hw, hnoone⟩ : ∃ w ∈ s.pool.working,
      ¬ ∃ c ∈ s.pool.notFull.parked, c.caller = some w.number := by
    by_contra hall
    refine hparked fun w hw => Decidable.not_not.1 fun hno => hall ⟨w, hw, hno⟩
  obtain ⟨c, hc, hcw⟩ := hin w hw
  have hawake : c ∈ s.pool.arriving ++ s.pool.notFull.returning := by
    rw [hpending] at hc
    unfold callers CondVar.waiters at hc
    rw [List.mem_append, List.mem_append] at hc
    rcases hc with hc | hc | hc
    · exact List.mem_append_left _ hc
    · exact absurd ⟨c, hc, hcw⟩ hnoone
    · exact List.mem_append_right _ hc
  obtain ⟨a, p, hinside, ha, hp, hrun, hworking, hcallers, -⟩ :=
    exists_put hfull hawake
  refine ⟨.pool a, _, hinside, step_pool ha hp, hrun.trans hrunning, rfl,
    .inr (.inr ⟨w, ?_, ?_⟩)⟩
  · simp only [logged, hworking]
    exact hw
  · -- it was the only call of the task
    rintro ⟨d, hd, hdw⟩
    have honce := h.calls.once
    rw [hpending, (hcallers.filterMap _).nodup_iff,
      List.filterMap_cons_some hcw, List.nodup_cons] at honce
    refine honce.1 (List.mem_filterMap.2 ⟨d, ?_, hdw⟩)
    unfold pending logged at hd
    simp only [(h.workers (by omega)).1, List.append_nil] at hd
    exact hd

-- ======================================================= when all are stuck

/-- The stuck workers stay where they are as long as the places and the
calls do. -/
theorem Stuck.keeps {a : PoolAct (PoolCall τ)}
    {p : ThreadPool (PoolCall τ)} (h : Stuck s)
    (hthreads : p.threads = s.pool.threads)
    (hworking : p.working = s.pool.working)
    (hparked : ∀ c ∈ s.pool.notFull.parked, c ∈ p.notFull.parked)
    (hfull : s.pool.isFull = true → p.isFull = true
      ∧ (callers s.pool).Perm (callers p)) : Stuck (s.logged a p) := by
  obtain ⟨hpos, hall, hstuck⟩ := h
  unfold Stuck logged
  simp only [hthreads, hworking]
  refine ⟨hpos, hall, ?_⟩
  rcases hstuck with ⟨hf, hin⟩ | hin
  · obtain ⟨hf', hcallers⟩ := hfull hf
    refine .inl ⟨hf', fun w hw => ?_⟩
    obtain ⟨c, hc, hcw⟩ := hin w hw
    refine ⟨c, ?_, hcw⟩
    unfold pending at hc ⊢
    rw [List.mem_append] at hc ⊢
    exact hc.imp_left hcallers.mem_iff.1
  · refine .inr fun w hw => ?_
    obtain ⟨c, hc, hcw⟩ := hin w hw
    exact ⟨c, hparked c hc, hcw⟩

/-- The section of `run` in a pool that is stuck; `p₁` is the pool without
the caller. -/
theorem Stuck.runSection {a : PoolAct (PoolCall τ)} {c : PoolCall τ}
    {pick : Nat} {p₁ p : ThreadPool (PoolCall τ)} (h : Stuck s)
    (hp : p₁.runSection c pick = .ok p)
    (hcallers : (callers s.pool).Perm (c :: callers p₁))
    (hthreads : p₁.threads = s.pool.threads)
    (hworking : p₁.working = s.pool.working)
    (hparked : p₁.notFull.parked = s.pool.notFull.parked)
    (hfull : p₁.isFull = s.pool.isFull) : Stuck (s.logged a p) := by
  unfold ThreadPool.runSection at hp
  split at hp
  next hf =>
    cases hp
    refine h.keeps hthreads hworking (fun d hd => ?_) fun _ => ⟨hf, ?_⟩
    · rw [← hparked] at hd
      exact List.mem_append_left _ hd
    · exact hcallers.trans (callers_wait p₁ c)
  next hnot =>
    obtain ⟨_, -, hp⟩ := bind_ok_inv hp
    cases hp
    refine h.keeps hthreads hworking (fun d hd => ?_) fun hf => ?_
    · simp only [hparked]
      exact hd
    · rw [← hfull] at hf
      exact absurd hf hnot

/-- Nobody of those inside can do anything about it. -/
theorem stuck_step {a : PoolLogAct τ} (h : RunInv n m s) (hst : Stuck s)
    (ha : Inside a) (hs : step s a = .ok s') : Stuck s' := by
  have hcount := h.pool.count
  have hthreads := h.pool.threads
  have hpos := hst.1
  have hall := hst.2.1
  unfold ThreadPool.inTake at hcount
  cases moves_of_ok hs with
  | stays => exact hst
  | called => exact ha.elim
  | finished k w hw hnot =>
      rw [(h.workers (by omega)).1] at hw
      cases hw
  | pool a p hen hp =>
      have hsame : (.ok s.pool : Except PoolAssert _) = .ok p →
          Stuck (s.logged a p) := by
        intro hp
        cases hp
        exact hst.keeps rfl rfl (fun _ hc => hc) fun hf => ⟨hf, .refl _⟩
      unfold ThreadPool.step at hp
      cases a with
      | run => exact ha.elim
      | wakeupRun => exact ha.elim
      | wakeupTake => exact ha.elim
      | stop => exact ha.elim
      | enter k pick =>
          simp only at hp
          split at hp
          next c hc =>
            exact hst.runSection hp (callers_enter hc) rfl rfl rfl rfl
          next => exact hsame hp
      | resumeRun k pick =>
          simp only at hp
          split at hp
          next c d hc =>
            exact hst.runSection hp (callers_resume hc) rfl rfl
              (CondVar.resume_cases hc).1 rfl
          next => exact hsame hp
      | test =>
          simp only at hp
          rw [if_neg (by omega)] at hp
          exact hsame hp
      | take pick =>
          simp only at hp
          rw [if_neg (by omega)] at hp
          exact hsame hp
      | resumeTake k pick =>
          simp only at hp
          split at hp
          next d hd =>
            have hwaiting := CondVar.waiting_resume hd
            omega
          next => exact hsame hp
      | finishTask k =>
          simp only at hp
          split at hp
          next hlt =>
            have hget := List.getElem?_eq_getElem hlt
            refine absurd ?_ (hen _ hget)
            have hmem : s.pool.working[k] ∈ s.pool.working :=
              List.getElem_mem hlt
            rcases hst.2.2 with ⟨-, hin⟩ | hin
            · exact hin _ hmem
            · obtain ⟨c, hc, hcw⟩ := hin _ hmem
              refine ⟨c, ?_, hcw⟩
              exact List.mem_append_left _
                (List.mem_append_right _ (List.mem_append_left _ hc))
          next => exact hsame hp

theorem not_drains_of_stuck (h : RunInv n m s) (hst : Stuck s) :
    ¬ Drains s := by
  rintro ⟨more, t, hmore, hrun, -, hreturned⟩
  obtain ⟨ht, hst'⟩ : RunInv n m t ∧ Stuck t :=
    run_inv (C := fun _ a => Inside a) (I := fun s => RunInv n m s ∧ Stuck s)
      (fun s a s' hI ha hs =>
        ⟨runInv_moves hI.1 (moves_of_ok hs), stuck_step hI.1 hI.2 ha hs⟩)
      ⟨h, hst⟩ (along_of_mem more s fun a ha _ => hmore a ha) hrun
  have hplaces := ht.history.places.length_eq
  have hlen := hreturned.length_eq
  have hpos := hst'.1
  have hall := hst'.2.1
  unfold active at hplaces
  simp only [List.length_append] at hplaces
  omega

/-- Which states everything can come to its end from, with the pool
running, by those inside alone, without a new call and without wakeups for
no reason: those in which the workers are not all stuck in calls of `run`
that their own tasks make. -/
theorem drains_iff {acts : List (PoolLogAct τ)} {s : PoolLog τ}
    (hrun : run step (start n m) acts = .ok s)
    (hrunning : s.pool.running = true) : Drains s ↔ ¬ Stuck s := by
  have h : RunInv n m s :=
    run_inv_all (fun _ _ _ h hs => runInv_moves h (moves_of_ok hs))
      (start_runInv n m) hrun
  refine ⟨fun hd hst => not_drains_of_stuck h hst hd, fun hnot => ?_⟩
  by_cases hfree : Free s
  · exact drains_of_free h hrunning hfree
  · obtain ⟨a, s', ha, hs, hrunning', hcalled, hfree'⟩ :=
      exists_free h hrunning hfree hnot
    exact .of_step ha hs hcalled
      (drains_of_free (runInv_moves h (moves_of_ok hs)) hrunning' hfree')

/-- Two calls fill the queue of one place and park, from the task of the
only worker: that is the end. With a second worker it is not. -/
theorem drains_iff_nested :
    (∃ s : PoolLog Nat, run step (start 1 1) [.pool .test, .run none 7,
        .pool (.enter 0 0), .pool (.take 0), .run (some 0) 8,
        .pool (.enter 0 0), .run (some 0) 9, .pool (.enter 0 0)] = .ok s
      ∧ s.pool.notFull.parked = [⟨2, some 0, 9⟩] ∧ ¬ Drains s)
    ∧ ∃ s : PoolLog Nat, run step (start 2 1) [.pool .test, .run none 7,
        .pool (.enter 0 0), .pool (.take 0), .run (some 0) 8,
        .pool (.enter 0 0), .run (some 0) 9, .pool (.enter 0 0)] = .ok s
      ∧ s.pool.notFull.parked = [⟨2, some 0, 9⟩] ∧ Drains s := by
  constructor
  · obtain ⟨s, hrun, hparked, hrunning, hst⟩ : Holds
        (run step (start 1 1) [.pool .test, .run none 7,
          .pool (.enter 0 0), .pool (.take 0), .run (some 0) 8,
          .pool (.enter 0 0), .run (some 0) 9, .pool (.enter 0 0)])
        fun s : PoolLog Nat => s.pool.notFull.parked = [⟨2, some 0, 9⟩]
          ∧ s.pool.running = true ∧ Stuck s := by
      decide +kernel
    refine ⟨s, hrun, hparked, fun hd => ?_⟩
    exact (drains_iff hrun hrunning).1 hd hst
  · obtain ⟨s, hrun, hparked, hrunning, hnot⟩ : Holds
        (run step (start 2 1) [.pool .test, .run none 7,
          .pool (.enter 0 0), .pool (.take 0), .run (some 0) 8,
          .pool (.enter 0 0), .run (some 0) 9, .pool (.enter 0 0)])
        fun s : PoolLog Nat => s.pool.notFull.parked = [⟨2, some 0, 9⟩]
          ∧ s.pool.running = true ∧ ¬ Stuck s := by
      decide +kernel
    exact ⟨s, hrun, hparked, (drains_iff hrun hrunning).2 hnot⟩

end Cobra.PoolLog
