/-
What holds of every interleaving of a worker with its threads: no
functor is lost, run twice or run out of order, and a loop blocked in
`poll` over a non-empty queue has a wakeup on its way.

# Functors

`FunctorsKept` reads the whole account off the history. The pushes, in
the order of their critical sections, are the calls made so far, then
the rest of the batch, then `pendingFunctors_`; a call is made by a
later `doPendingFunctors` than the one its push fell into; and each
`doPendingFunctors` calls what it swapped out and nothing else.
`QueueInv` is the inductive form: it cuts `pushes` into the three parts,
so that every step moves the cut points and nothing more.

# Wakeups

The wakeup is left out when the loop thread pushes while
`callingPendingFunctors_` is false, because the same iteration will
reach the swap. That is so in an event handler; it is not so outside
`Loop`. `create_then_loop_sleeps` is the run that shows it, and
`noLostWakeup_of_queuesInLoop` says that pushing from the loop thread
outside `Loop` is the only way to sleep on a non-empty queue.
-/
import Cobra.Worker
import Mathlib.Data.List.Forall2

namespace Cobra.Worker

open Machine

variable {F : Type} {w w' : Worker F}

-- ================================================= what a step can do

/-- What the action `a` can make of `w`: nothing, or one of the moves of
`step` with the guard it passed. -/
inductive Moves (w : Worker F) : WorkerAct F → Worker F → Prop
  | stay (a : WorkerAct F) : Moves w a w
  | queue (t : Nat) (f : F) (hc : w.canCall t = true) :
      Moves w (.queueInLoop t f) (w.pushFunctor t f)
  | run (t : Nat) (f : F) (ht : w.threadId ≠ t) :
      Moves w (.runInLoop t f) (w.pushFunctor t f)
  | wake (t : Nat) : Moves w (.wakeup t) (w.afterCall t)
  | quit (t : Nat) (hc : w.canCall t = true) :
      Moves w (.Quit t)
        { w with
          quit := true
          threads := Function.update w.threads t .quitting }
  | loop (hc : w.canCall w.threadId = true) (hl : w.looping = false) :
      Moves w .Loop { w with looping := true, quit := false, pc := .test }
  | exit (hpc : w.canLoop .test = true) :
      Moves w .test { w with looping := false, pc := .outside }
  | poll (hpc : w.canLoop .test = true) :
      Moves w .test { w with pc := .polling }
  | polled (hpc : w.canLoop .polling = true) :
      Moves w .pollReturn { w with pc := .handling }
  | read (hpc : w.canLoop .handling = true) :
      Moves w .handleRead { w with wakeupFd := 0 }
  | handled (hpc : w.canLoop .handling = true) :
      Moves w .endHandling
        { w with callingPendingFunctors := true, pc := .swapping }
  | swap (hpc : w.canLoop .swapping = true) : Moves w .swap w.swapFunctors
  | call (hpc : w.canLoop .draining = true) : Moves w .call w.callFunctor
  | ret (hpc : w.canLoop .calling = true) :
      Moves w .ret { w with pc := .draining }
  | drained (hpc : w.canLoop .draining = true)
      (hq : w.queue.functors = []) :
      Moves w .endPending
        { w with callingPendingFunctors := false, pc := .test }

/-- Every step is one of the moves. -/
theorem step_moves {a : WorkerAct F} (h : w.step a = .ok w') :
    Moves w a w' := by
  cases a with
  | queueInLoop t f =>
      simp only [step] at h
      split at h
      next hc => cases h; exact .queue t f hc
      next => cases h; exact .stay _
  | runInLoop t f =>
      simp only [step] at h
      split at h
      next hc =>
        cases h
        simp only [Bool.and_eq_true, isInLoopThread, Bool.not_eq_true',
          beq_eq_false_iff_ne] at hc
        exact .run t f hc.2
      next => cases h; exact .stay _
  | wakeup t =>
      cases h
      exact .wake t
  | Quit t =>
      simp only [step] at h
      split at h
      next hc => cases h; exact .quit t hc
      next => cases h; exact .stay _
  | Loop =>
      simp only [step] at h
      split at h
      next hc =>
        simp only [require] at h
        split at h
        next hl => cases h; exact .loop hc hl
        next => cases h
      next => cases h; exact .stay _
  | test =>
      simp only [step] at h
      split at h
      next hpc =>
        split at h
        next => cases h; exact .exit hpc
        next => cases h; exact .poll hpc
      next => cases h; exact .stay _
  | pollReturn =>
      simp only [step] at h
      split at h
      next hpc => cases h; exact .polled hpc
      next => cases h; exact .stay _
  | handleRead =>
      simp only [step] at h
      split at h
      next hpc => cases h; exact .read hpc
      next => cases h; exact .stay _
  | endHandling =>
      simp only [step] at h
      split at h
      next hpc => cases h; exact .handled hpc
      next => cases h; exact .stay _
  | swap =>
      simp only [step] at h
      split at h
      next hpc => cases h; exact .swap hpc
      next => cases h; exact .stay _
  | call =>
      simp only [step] at h
      split at h
      next hpc => cases h; exact .call hpc
      next => cases h; exact .stay _
  | ret =>
      simp only [step] at h
      split at h
      next hpc => cases h; exact .ret hpc
      next => cases h; exact .stay _
  | endPending =>
      simp only [step] at h
      split at h
      next hc =>
        cases h
        simp only [Bool.and_eq_true, List.isEmpty_iff] at hc
        exact .drained hc.1 hc.2
      next => cases h; exact .stay _

/-- A loop step is taken at its own place, with no call in progress. -/
theorem canLoop_inv {pc : LoopPc} (h : w.canLoop pc = true) :
    w.pc = pc ∧ w.threads w.threadId = .idle := by
  simpa [canLoop] using h

/-- A call of the loop thread is made from user code. -/
theorem canCall_loop (h : w.canCall w.threadId = true) :
    w.threads w.threadId = .idle
      ∧ (w.pc = .outside ∨ w.pc = .handling ∨ w.pc = .calling) := by
  simp only [canCall, isInLoopThread, userCode, beq_self_eq_true,
    Bool.not_true, Bool.false_or, Bool.and_eq_true, Bool.or_eq_true,
    beq_iff_eq] at h
  tauto

-- ====================================== what a call leaves untouched

/-- The decision about `wakeup()` touches the descriptor and the caller
and nothing else. -/
theorem afterCall_frame (w : Worker F) (t : Nat) :
    (w.afterCall t).queue = w.queue ∧ (w.afterCall t).pc = w.pc
      ∧ (w.afterCall t).pushes = w.pushes ∧ (w.afterCall t).runs = w.runs
      ∧ (w.afterCall t).swaps = w.swaps
      ∧ (w.afterCall t).threadId = w.threadId
      ∧ (w.afterCall t).callingPendingFunctors = w.callingPendingFunctors
      ∧ (w.afterCall t).looping = w.looping := by
  unfold afterCall
  split
  · exact ⟨rfl, rfl, rfl, rfl, rfl, rfl, rfl, rfl⟩
  · split <;> exact ⟨rfl, rfl, rfl, rfl, rfl, rfl, rfl, rfl⟩
  · split <;> exact ⟨rfl, rfl, rfl, rfl, rfl, rfl, rfl, rfl⟩

theorem Moves.threadId {a : WorkerAct F} (h : Moves w a w') : w'.threadId = w.threadId := by
  cases h with
  | wake t => exact (afterCall_frame w t).2.2.2.2.2.1
  | call =>
      unfold callFunctor
      split <;> rfl
  | _ => rfl

-- ======================================================= the functors

/-- The functors called by the `k`-th `doPendingFunctors`. -/
def calledBy (w : Worker F) (k : Nat) : List F :=
  (w.runs.filter fun r => r.2 = k).map Prod.fst

/-- The account of every functor submitted so far. -/
structure FunctorsKept (w : Worker F) : Prop where
  /-- called, in the batch, or pending: once each, in the order of the
  pushes -/
  order : w.pushes.map Prod.fst
    = w.runs.map Prod.fst ++ w.queue.functors ++ w.queue.pendingFunctors
  /-- pushed after `k` swaps, called by a later `doPendingFunctors` -/
  later : ∀ (i : Nat) (p r : F × Nat),
    w.pushes[i]? = some p → w.runs[i]? = some r → p.2 < r.2
  /-- an earlier `doPendingFunctors` has called all it swapped out -/
  past : ∀ (k : Nat) (b : List F), w.swaps[k]? = some b →
    k + 1 < w.swaps.length → w.calledBy (k + 1) = b
  /-- the last one has called all but the rest of its batch -/
  last : ∀ (k : Nat) (b : List F), w.swaps[k]? = some b →
    k + 1 = w.swaps.length → w.calledBy (k + 1) ++ w.queue.functors = b
  /-- and outside `doPendingFunctors` there is no rest -/
  rest : w.pc ≠ .draining → w.pc ≠ .calling → w.queue.functors = []

/-- The inductive form of `FunctorsKept`: `pushes` cut into the called,
the batch and the pending, with their stamps. -/
structure QueueInv (w : Worker F) : Prop where
  cut : ∃ called batch pending : List (F × Nat),
    w.pushes = called ++ batch ++ pending
      ∧ List.Forall₂ (fun p r => p.1 = r.1 ∧ p.2 < r.2) called w.runs
      ∧ batch.map Prod.fst = w.queue.functors
      ∧ (∀ p ∈ batch, p.2 < w.swaps.length)
      ∧ pending.map Prod.fst = w.queue.pendingFunctors
      ∧ ∀ p ∈ pending, p.2 ≤ w.swaps.length
  stamped : ∀ r ∈ w.runs, r.2 ≤ w.swaps.length
  swapped : ∀ (k : Nat) (b : List F), w.swaps[k]? = some b →
    w.calledBy (k + 1)
      ++ (if k + 1 = w.swaps.length then w.queue.functors else []) = b
  rest : w.pc ≠ .draining → w.pc ≠ .calling → w.queue.functors = []
  inside : w.looping = false → w.pc = .outside

theorem queueInv_create (t : Nat) : QueueInv (create t : Worker F) where
  cut := ⟨[], [], [], rfl, .nil, rfl, by simp, rfl, by simp⟩
  stamped := by simp [create]
  swapped := by simp [create]
  rest := fun _ _ => rfl
  inside := fun _ => rfl

/-- Away from `doPendingFunctors` the batch is empty. -/
theorem QueueInv.rest_of_canLoop (h : QueueInv w) {pc : LoopPc}
    (hpc : w.canLoop pc = true) (hd : pc ≠ .draining)
    (hc : pc ≠ .calling) : w.queue.functors = [] := by
  obtain ⟨rfl, -⟩ := canLoop_inv hpc
  exact h.rest hd hc

/-- The invariant reads the queue, the history and where the loop
stands; nothing else. -/
theorem QueueInv.congr (h : QueueInv w) (hq : w'.queue = w.queue)
    (hp : w'.pushes = w.pushes) (hr : w'.runs = w.runs)
    (hs : w'.swaps = w.swaps)
    (hrest : w'.pc ≠ .draining → w'.pc ≠ .calling → w.queue.functors = [])
    (hin : w'.looping = false → w'.pc = .outside) : QueueInv w' where
  cut := by rw [hq, hp, hr, hs]; exact h.cut
  stamped := by rw [hr, hs]; exact h.stamped
  swapped := by
    have hcb : w'.calledBy = w.calledBy := by
      funext k
      rw [calledBy, calledBy, hr]
    rw [hq, hs, hcb]
    exact h.swapped
  rest := by rw [hq]; exact hrest
  inside := hin

/-- A push lands at the end of the pending part. -/
theorem queueInv_push (h : QueueInv w) (t : Nat) (f : F) :
    QueueInv (w.pushFunctor t f) where
  cut := by
    obtain ⟨c, b, p, hcut, hc, hb, hbs, hp, hps⟩ := h.cut
    refine ⟨c, b, p ++ [(f, w.swaps.length)], ?_, hc, hb, hbs, ?_, ?_⟩
    · simp [pushFunctor, hcut]
    · simp [pushFunctor, FunctorQueue.push, hp]
    · intro x hx
      rcases List.mem_append.1 hx with hx | hx
      · exact hps x hx
      · rw [List.mem_singleton.1 hx]
        exact Nat.le_refl _
  stamped := h.stamped
  swapped := h.swapped
  rest := h.rest
  inside := h.inside

/-- The swap turns the pending part into the batch. -/
theorem queueInv_swap (h : QueueInv w) (hpc : w.pc = .swapping) :
    QueueInv w.swapFunctors := by
  have hnil : w.queue.functors = [] :=
    h.rest (by rw [hpc]; decide) (by rw [hpc]; decide)
  have hlen : w.swapFunctors.swaps.length = w.swaps.length + 1 := by
    simp [swapFunctors]
  have hin : w.looping ≠ false := fun hl => by
    have := h.inside hl
    rw [hpc] at this
    cases this
  refine ⟨?_, ?_, ?_, fun hd => absurd rfl hd, fun hl => absurd hl hin⟩
  · obtain ⟨c, b, p, hcut, hc, hb, hbs, hp, hps⟩ := h.cut
    have hbnil : b = [] := by
      rw [hnil] at hb
      exact List.map_eq_nil_iff.1 hb
    subst hbnil
    refine ⟨c, p, [], ?_, hc, hp, ?_, rfl, by simp⟩
    · simpa [swapFunctors] using hcut
    · intro x hx
      rw [hlen]
      exact Nat.lt_succ_of_le (hps x hx)
  · intro r hr
    rw [hlen]
    exact Nat.le_succ_of_le (h.stamped r hr)
  · intro k b hk
    rw [hlen]
    have hk' : (w.swaps ++ [w.queue.pendingFunctors])[k]? = some b := hk
    rcases Nat.lt_or_ge k w.swaps.length with hlt | hge
    · -- an earlier batch: nothing is left of it, before and after
      rw [List.getElem?_append_left hlt] at hk'
      have hold := h.swapped k b hk'
      rw [hnil] at hold
      rw [if_neg (by omega)]
      simpa [calledBy, swapFunctors] using hold
    · -- the new batch: nothing of it has been called
      rw [List.getElem?_append_right hge] at hk'
      have hkeq : k = w.swaps.length := by
        by_contra hne
        rw [List.getElem?_eq_none (by simp; omega)] at hk'
        cases hk'
      subst hkeq
      simp only [Nat.sub_self, List.getElem?_cons_zero,
        Option.some.injEq] at hk'
      rw [if_pos rfl]
      have hnone : w.swapFunctors.calledBy (w.swaps.length + 1) = [] := by
        unfold calledBy
        rw [List.map_eq_nil_iff, List.filter_eq_nil_iff]
        intro r hr
        have := h.stamped r hr
        simp only [decide_eq_true_eq]
        omega
      rw [hnone]
      exact hk'

/-- A call moves the head of the batch to the called part. -/
theorem queueInv_call (h : QueueInv w) (hpc : w.pc = .draining) :
    QueueInv w.callFunctor := by
  unfold callFunctor
  split
  next => exact h
  next f rest hf =>
    have hin : w.looping ≠ false := fun hl => by
      have := h.inside hl
      rw [hpc] at this
      cases this
    refine ⟨?_, ?_, ?_, fun _ hd => absurd rfl hd, fun hl => absurd hl hin⟩
    · obtain ⟨c, b, p, hcut, hc, hb, hbs, hp, hps⟩ := h.cut
      rw [hf] at hb
      obtain ⟨x, b', rfl, hx, hb'⟩ := List.map_eq_cons_iff.1 hb
      refine ⟨c ++ [x], b', p, ?_, ?_, hb', ?_, hp, hps⟩
      · simp [hcut]
      · refine List.rel_append hc (.cons ⟨hx, ?_⟩ .nil)
        exact hbs x (List.mem_cons_self ..)
      · intro y hy
        exact hbs y (List.mem_cons_of_mem _ hy)
    · intro r hr
      rcases List.mem_append.1 hr with hr | hr
      · exact h.stamped r hr
      · rw [List.mem_singleton] at hr
        subst hr
        exact Nat.le_refl _
    · intro k b hk
      have hold := h.swapped k b hk
      show ((w.runs ++ [(f, w.swaps.length)]).filter
          fun r => r.2 = k + 1).map Prod.fst ++ _ = b
      rw [List.filter_append, List.map_append]
      by_cases hlast : k + 1 = w.swaps.length
      · rw [if_pos hlast, hf] at hold
        rw [if_pos hlast]
        simpa [calledBy, hlast] using hold
      · rw [if_neg hlast] at hold
        rw [if_neg hlast]
        have hne : ¬ w.swaps.length = k + 1 := fun e => hlast e.symm
        simpa [calledBy, hne] using hold

/-- Between two phases of one iteration the loop stays inside `Loop`. -/
theorem QueueInv.looping_of_canLoop (h : QueueInv w) {pc : LoopPc}
    (hpc : w.canLoop pc = true) (hne : pc ≠ .outside) :
    w.looping = false → w'.pc = .outside := by
  obtain ⟨rfl, -⟩ := canLoop_inv hpc
  exact fun hl => absurd (h.inside hl) hne

theorem queueInv_moves {a : WorkerAct F} (h : QueueInv w)
    (hm : Moves w a w') : QueueInv w' := by
  cases hm with
  | stay => exact h
  | queue t f => exact queueInv_push h t f
  | run t f => exact queueInv_push h t f
  | wake t =>
      obtain ⟨hq, hpc, hp, hr, hs, -, -, hl⟩ := afterCall_frame w t
      exact h.congr hq hp hr hs (by rw [hpc]; exact h.rest)
        (by rw [hpc, hl]; exact h.inside)
  | quit t => exact h.congr rfl rfl rfl rfl h.rest h.inside
  | loop hc hl =>
      have hpc := h.inside hl
      exact h.congr rfl rfl rfl rfl
        (fun _ _ => h.rest (by rw [hpc]; decide) (by rw [hpc]; decide))
        (fun hl' => by cases hl')
  | exit hpc =>
      exact h.congr rfl rfl rfl rfl
        (fun _ _ => h.rest_of_canLoop hpc (by decide) (by decide))
        (fun _ => rfl)
  | poll hpc =>
      exact h.congr rfl rfl rfl rfl
        (fun _ _ => h.rest_of_canLoop hpc (by decide) (by decide))
        (h.looping_of_canLoop hpc (by decide))
  | polled hpc =>
      exact h.congr rfl rfl rfl rfl
        (fun _ _ => h.rest_of_canLoop hpc (by decide) (by decide))
        (h.looping_of_canLoop hpc (by decide))
  | read => exact h.congr rfl rfl rfl rfl h.rest h.inside
  | handled hpc =>
      exact h.congr rfl rfl rfl rfl
        (fun _ _ => h.rest_of_canLoop hpc (by decide) (by decide))
        (h.looping_of_canLoop hpc (by decide))
  | swap hpc => exact queueInv_swap h (canLoop_inv hpc).1
  | call hpc => exact queueInv_call h (canLoop_inv hpc).1
  | ret hpc =>
      exact h.congr rfl rfl rfl rfl (fun hd => absurd rfl hd)
        (h.looping_of_canLoop hpc (by decide))
  | drained hpc hq =>
      exact h.congr rfl rfl rfl rfl (fun _ _ => hq)
        (h.looping_of_canLoop hpc (by decide))

/-- The cut, read back as the account. -/
theorem QueueInv.functorsKept (h : QueueInv w) : FunctorsKept w where
  order := by
    obtain ⟨c, b, p, hcut, hc, hb, -, hp, -⟩ := h.cut
    have hruns : c.map Prod.fst = w.runs.map Prod.fst := by
      rw [← List.forall₂_eq_eq_eq, List.forall₂_map_left_iff,
        List.forall₂_map_right_iff]
      exact hc.imp fun _ _ hx => hx.1
    rw [hcut, List.map_append, List.map_append, hruns, hb, hp]
  later := by
    intro i p r hp hr
    obtain ⟨c, b, q, hcut, hc, -⟩ := h.cut
    obtain ⟨hi, rfl⟩ := List.getElem?_eq_some_iff.1 hr
    have hlen := hc.length_eq
    rw [hcut, List.append_assoc,
      List.getElem?_append_left (by omega)] at hp
    obtain ⟨hi', rfl⟩ := List.getElem?_eq_some_iff.1 hp
    exact (List.forall₂_iff_get.1 hc).2 i hi' hi |>.2
  past := by
    intro k b hk hlt
    have := h.swapped k b hk
    rw [if_neg (by omega), List.append_nil] at this
    exact this
  last := by
    intro k b hk heq
    have := h.swapped k b hk
    rw [if_pos heq] at this
    exact this
  rest := h.rest

/-- Whatever the interleaving, no functor is lost, called twice or
called out of order, and each `doPendingFunctors` calls exactly what was
pending when it swapped. -/
theorem functorsKept_run (t : Nat) (acts : List (WorkerAct F))
    (hrun : run step (create t) acts = .ok w) : FunctorsKept w :=
  QueueInv.functorsKept
    (run_inv_all (fun _ _ _ h hs => queueInv_moves h (step_moves hs))
      (queueInv_create t) hrun)

/-- Thread 1 submits functor 7, which submits functor 8 when called. -/
def nestedActs : List (WorkerAct Nat) :=
  [.Loop, .test, .queueInLoop 1 7, .wakeup 1, .pollReturn, .handleRead,
    .endHandling, .swap, .call, .queueInLoop 0 8, .wakeup 0, .ret,
    .endPending, .test, .pollReturn, .endHandling, .swap, .call]

/-- Functor 8 is called by the second `doPendingFunctors`. -/
theorem functorsKept_nested :
    ∃ w : Worker Nat, run step (create 0) nestedActs = .ok w
      ∧ w.runs = [(7, 1), (8, 2)] ∧ FunctorsKept w := by
  obtain ⟨w, hw, hr⟩ : ∃ w : Worker Nat,
      run step (create 0) nestedActs = .ok w ∧ w.runs = [(7, 1), (8, 2)] :=
    ⟨_, rfl, rfl⟩
  exact ⟨w, hw, hr, functorsKept_run 0 nestedActs hw⟩

-- ====================================================== what waits

/-- But for the call of a functor, a step leaves what waits in its order
and at most adds to it. -/
theorem Moves.waiting {a : WorkerAct F} (hq : QueueInv w) (h : Moves w a w')
    (ha : a ≠ .call) :
    ∃ fs, w'.queue.waiting = w.queue.waiting ++ fs
      ∧ ∀ f ∈ fs, ∃ t, a = .queueInLoop t f ∨ a = .runInLoop t f := by
  cases h with
  | queue t f =>
      refine ⟨[f], FunctorQueue.waiting_push _ _, fun g hg => ⟨t, .inl ?_⟩⟩
      rw [List.mem_singleton.1 hg]
  | run t f =>
      refine ⟨[f], FunctorQueue.waiting_push _ _, fun g hg => ⟨t, .inr ?_⟩⟩
      rw [List.mem_singleton.1 hg]
  | wake t =>
      refine ⟨[], ?_, by simp⟩
      rw [(afterCall_frame w t).1, List.append_nil]
  | swap hpc =>
      refine ⟨[], ?_, by simp⟩
      rw [List.append_nil]
      exact FunctorQueue.waiting_swap
        (hq.rest_of_canLoop hpc (by decide) (by decide))
  | call => exact absurd rfl ha
  | _ => exact ⟨[], (List.append_nil _).symm, by simp⟩

theorem waiting_submit (w : Worker F) (t : Nat) (f : F) :
    (w.submit t f).queue.waiting = w.queue.waiting ++ [f] := by
  unfold submit
  rw [(afterCall_frame _ t).1]
  exact FunctorQueue.waiting_push _ _

theorem queueInv_submit (h : QueueInv w) (t : Nat) (f : F) :
    QueueInv (w.submit t f) :=
  queueInv_moves (queueInv_push h t f) (.wake t)

theorem threadId_submit (w : Worker F) (t : Nat) (f : F) :
    (w.submit t f).threadId = w.threadId :=
  (afterCall_frame _ t).2.2.2.2.2.1

/-- Calling takes the first functor that waits. -/
theorem waiting_callFunctor {f : F} {rest : List F}
    (h : w.queue.functors = f :: rest) :
    w.queue.waiting = f :: w.callFunctor.queue.waiting := by
  unfold callFunctor FunctorQueue.waiting
  rw [h]
  rfl

theorem pc_callFunctor {f : F} {rest : List F}
    (h : w.queue.functors = f :: rest) : w.callFunctor.pc = .calling := by
  unfold callFunctor
  rw [h]

/-- A lifted action submits lifted functors, and calls none. -/
theorem lift_inv {G : Type} {g : G → F} {a : WorkerAct G} {a' : WorkerAct F}
    (h : a.lift g = some a') : a' ≠ .call
      ∧ ∀ t f, a' = .queueInLoop t f ∨ a' = .runInLoop t f → ∃ k, f = g k := by
  cases a <;> cases h <;> simp

/-- A lifted step adds lifted functors to what waits. -/
theorem waiting_lift {G : Type} {g : G → F} {a : WorkerAct G}
    {a' : WorkerAct F} (hq : QueueInv w) (ha : a.lift g = some a')
    (h : w.step a' = .ok w') :
    ∃ fs, w'.queue.waiting = w.queue.waiting ++ fs
      ∧ ∀ f ∈ fs, ∃ k, f = g k := by
  obtain ⟨hcall, hlift⟩ := lift_inv ha
  obtain ⟨fs, hwait, hfs⟩ := (step_moves h).waiting hq hcall
  refine ⟨fs, hwait, fun f hf => ?_⟩
  obtain ⟨t, ht⟩ := hfs f hf
  exact hlift t f ht

-- ======================================================== the wakeups

/-- A loop blocked in `poll` over a non-empty queue has been woken, or
some thread that has pushed is still to wake it. -/
def NoLostWakeup (w : Worker F) : Prop :=
  w.pc = .polling → w.queue.pendingFunctors ≠ [] →
    0 < w.wakeupFd ∨ ∃ t, t ≠ w.threadId ∧ w.threads t = .pushed

/-- The loop thread pushes from a handler or a functor only, never from
outside `Loop`. -/
def QueuesInLoop (w : Worker F) (a : WorkerAct F) : Prop :=
  ∀ f, a = .queueInLoop w.threadId f → w.pc ≠ .outside

theorem writeWakeupFd_pos (n : Nat) : 0 < writeWakeupFd n := by
  unfold writeWakeupFd
  split <;> omega

/-- From the swap of one iteration to the handlers of the next, a
non-empty queue has its wakeup. In between, the handlers may clear the
descriptor, since the swap is still to come. -/
structure WakeInv (w : Worker F) : Prop where
  wake : w.pc ≠ .handling → w.pc ≠ .swapping →
    w.queue.pendingFunctors ≠ [] →
    0 < w.wakeupFd ∨ ∃ t, w.threads t = .pushed
  flag : w.pc = .draining ∨ w.pc = .calling → w.callingPendingFunctors = true
  swapping : w.pc = .swapping → w.callingPendingFunctors = true
  caller : w.threads w.threadId = .pushed →
    w.pc = .handling ∨ w.pc = .calling
  user : w.threads w.threadId ≠ .idle →
    w.pc = .outside ∨ w.pc = .handling ∨ w.pc = .calling

theorem wakeInv_create (t : Nat) : WakeInv (create t : Worker F) where
  wake := fun _ _ h => absurd rfl h
  flag := by simp [create]
  swapping := by simp [create]
  caller := by simp [create]
  user := by simp [create]

/-- A push leaves its thread about to wake the loop. -/
theorem wakeInv_push (h : WakeInv w) {t : Nat} (f : F)
    (ht : w.threadId = t → w.pc = .handling ∨ w.pc = .calling) :
    WakeInv (w.pushFunctor t f) where
  wake := fun _ _ _ => .inr ⟨t, by simp [pushFunctor]⟩
  flag := h.flag
  swapping := h.swapping
  caller := by
    intro hp
    by_cases he : w.threadId = t
    · exact ht he
    · simp only [pushFunctor, Function.update_of_ne he] at hp
      exact h.caller hp
  user := by
    intro hp
    by_cases he : w.threadId = t
    · exact .inr (ht he)
    · simp only [pushFunctor, Function.update_of_ne he] at hp
      exact h.user hp

/-- A thread other than `t` that has pushed is untouched by `t`. -/
theorem pushed_update {t t' : Nat} {c : ThreadPc}
    (ht : w.threads t ≠ .pushed) (hp : w.threads t' = .pushed) :
    Function.update w.threads t c t' = .pushed := by
  have hne : t' ≠ t := by
    rintro rfl
    exact ht hp
  rw [Function.update_of_ne hne]
  exact hp

/-- Once the loop thread's call is over, only its phase matters. -/
theorem wakeInv_idle (h : WakeInv w) (t : Nat) {n : Nat}
    (hwake : w.pc ≠ .handling → w.pc ≠ .swapping →
      w.queue.pendingFunctors ≠ [] →
      0 < n ∨ ∃ t', Function.update w.threads t .idle t' = .pushed) :
    WakeInv { w with
      threads := Function.update w.threads t .idle, wakeupFd := n } where
  wake := hwake
  flag := h.flag
  swapping := h.swapping
  caller := by
    intro hp
    by_cases he : w.threadId = t
    · subst he
      simp at hp
    · simp only [Function.update_of_ne he] at hp
      exact h.caller hp
  user := by
    intro hp
    by_cases he : w.threadId = t
    · subst he
      simp at hp
    · simp only [Function.update_of_ne he] at hp
      exact h.user hp

/-- The decision after a push: the wakeup is left out only inside a
handler. -/
theorem wakeInv_afterCall (h : WakeInv w) (t : Nat) :
    WakeInv (w.afterCall t) := by
  cases ht : w.threads t with
  | idle =>
      have : w.afterCall t = w := by simp [afterCall, ht]
      rw [this]
      exact h
  | pushed =>
      simp only [afterCall, ht]
      split
      next => exact wakeInv_idle h t fun _ _ _ => .inl (writeWakeupFd_pos _)
      next hskip =>
        -- the caller is the loop thread and no functor is being called
        simp only [isInLoopThread, Bool.or_eq_true, Bool.not_eq_true',
          beq_eq_false_iff_ne, not_or, not_not,
          Bool.not_eq_true] at hskip
        obtain ⟨rfl, hflag⟩ := hskip
        have hpc : w.pc = .handling := by
          rcases h.caller ht with hpc | hpc
          · exact hpc
          · rw [h.flag (.inr hpc)] at hflag
            cases hflag
        exact wakeInv_idle h _ fun hne => absurd hpc hne
  | quitting =>
      have hnp : w.threads t ≠ .pushed := by rw [ht]; decide
      simp only [afterCall, ht]
      split
      next => exact wakeInv_idle h t fun _ _ _ => .inl (writeWakeupFd_pos _)
      next =>
        refine wakeInv_idle h t fun h1 h2 h3 => ?_
        rcases h.wake h1 h2 h3 with hw | ⟨t', hp⟩
        · exact .inl hw
        · exact .inr ⟨t', pushed_update hnp hp⟩

/-- A loop step taken with no call in progress: only the phase, the
flag and the wakeup are left to check. -/
theorem wakeInv_phase {pc : LoopPc} (hidle : w.threads w.threadId = .idle)
    (hth : w'.threads = w.threads) (hid : w'.threadId = w.threadId)
    (hpc : w'.pc = pc)
    (hwake : pc ≠ .handling → pc ≠ .swapping →
      w'.queue.pendingFunctors ≠ [] →
      0 < w'.wakeupFd ∨ ∃ t, w.threads t = .pushed)
    (hflag : pc = .draining ∨ pc = .calling ∨ pc = .swapping →
      w'.callingPendingFunctors = true) : WakeInv w' where
  wake := by rw [hpc, hth]; exact hwake
  flag := by
    rw [hpc]
    rintro (h | h)
    · exact hflag (.inl h)
    · exact hflag (.inr (.inl h))
  swapping := by rw [hpc]; exact fun h => hflag (.inr (.inr h))
  caller := by
    rw [hth, hid, hidle]
    exact fun h => by cases h
  user := by
    rw [hth, hid, hidle]
    exact fun h => absurd rfl h

/-- The wakeup of a queue that is not about to be swapped. -/
theorem WakeInv.wake_at (h : WakeInv w) {pc : LoopPc} (hpc : w.pc = pc)
    (hhandling : pc ≠ .handling) (hswapping : pc ≠ .swapping) :
    w.queue.pendingFunctors ≠ [] →
      0 < w.wakeupFd ∨ ∃ t, w.threads t = .pushed := by
  subst hpc
  exact h.wake hhandling hswapping

theorem wakeInv_moves {a : WorkerAct F} (hq : QueueInv w) (h : WakeInv w)
    (hC : QueuesInLoop w a) (hm : Moves w a w') : WakeInv w' := by
  cases hm with
  | stay => exact h
  | queue t f hc =>
      refine wakeInv_push h f fun he => ?_
      subst he
      rcases (canCall_loop hc).2 with hpc | hpc
      · exact absurd hpc (hC f rfl)
      · exact hpc
  | run t f ht => exact wakeInv_push h f fun he => absurd he ht
  | wake t => exact wakeInv_afterCall h t
  | quit t hc =>
      have hidle : w.threads t = .idle := by
        simp only [canCall, Bool.and_eq_true, beq_iff_eq] at hc
        exact hc.1
      have hnp : w.threads t ≠ .pushed := by rw [hidle]; decide
      refine ⟨?_, h.flag, h.swapping, ?_, ?_⟩
      · intro h1 h2 h3
        rcases h.wake h1 h2 h3 with hw | ⟨t', hp⟩
        · exact .inl hw
        · exact .inr ⟨t', pushed_update hnp hp⟩
      · intro hp
        by_cases he : w.threadId = t
        · subst he
          simp at hp
        · simp only [Function.update_of_ne he] at hp
          exact h.caller hp
      · intro hp
        by_cases he : w.threadId = t
        · subst he
          exact (canCall_loop hc).2
        · simp only [Function.update_of_ne he] at hp
          exact h.user hp
  | loop hc hl =>
      have hpc := hq.inside hl
      exact wakeInv_phase (canCall_loop hc).1 rfl rfl rfl
        (fun _ _ => h.wake_at hpc nofun nofun)
        (by simp)
  | exit hc =>
      obtain ⟨hpc, hidle⟩ := canLoop_inv hc
      exact wakeInv_phase hidle rfl rfl rfl
        (fun _ _ => h.wake_at hpc nofun nofun)
        (by simp)
  | poll hc =>
      obtain ⟨hpc, hidle⟩ := canLoop_inv hc
      exact wakeInv_phase hidle rfl rfl rfl
        (fun _ _ => h.wake_at hpc nofun nofun)
        (by simp)
  | polled hc =>
      obtain ⟨-, hidle⟩ := canLoop_inv hc
      exact wakeInv_phase hidle rfl rfl rfl (fun hne => absurd rfl hne)
        (by simp)
  | read hc =>
      obtain ⟨hpc, hidle⟩ := canLoop_inv hc
      exact wakeInv_phase hidle rfl rfl hpc (fun hne => absurd rfl hne)
        (by simp)
  | handled hc =>
      obtain ⟨-, hidle⟩ := canLoop_inv hc
      exact wakeInv_phase hidle rfl rfl rfl (fun _ hne => absurd rfl hne)
        (fun _ => rfl)
  | swap hc =>
      obtain ⟨hpc, hidle⟩ := canLoop_inv hc
      exact wakeInv_phase hidle rfl rfl rfl (fun _ _ hne => absurd rfl hne)
        (fun _ => h.swapping hpc)
  | call hc =>
      obtain ⟨hpc, hidle⟩ := canLoop_inv hc
      unfold callFunctor
      split
      next => exact h
      next =>
        exact wakeInv_phase hidle rfl rfl rfl
          (fun _ _ => h.wake_at hpc nofun nofun)
          (fun _ => h.flag (.inl hpc))
  | ret hc =>
      obtain ⟨hpc, hidle⟩ := canLoop_inv hc
      exact wakeInv_phase hidle rfl rfl rfl
        (fun _ _ => h.wake_at hpc nofun nofun)
        (fun _ => h.flag (.inr hpc))
  | drained hc =>
      obtain ⟨hpc, hidle⟩ := canLoop_inv hc
      exact wakeInv_phase hidle rfl rfl rfl
        (fun _ _ => h.wake_at hpc nofun nofun)
        (by simp)

/-- In `poll` the loop thread has no call of its own in progress, so the
wakeup on its way is another thread's. -/
theorem WakeInv.noLostWakeup (h : WakeInv w) : NoLostWakeup w := by
  intro hpc hne
  rcases h.wake_at hpc nofun nofun hne with hw | ⟨t, ht⟩
  · exact .inl hw
  · refine .inr ⟨t, ?_, ht⟩
    rintro rfl
    rcases h.caller ht with hc | hc <;> rw [hpc] at hc <;> cases hc

/-- On every run in which the loop thread never pushes from outside
`Loop`, no wakeup is lost. -/
theorem noLostWakeup_of_queuesInLoop (t : Nat) (acts : List (WorkerAct F))
    (hC : Along step QueuesInLoop (create t) acts)
    (hrun : run step (create t) acts = .ok w) : NoLostWakeup w := by
  have hinv : QueueInv w ∧ WakeInv w :=
    run_inv (I := fun w => QueueInv w ∧ WakeInv w)
      (fun _ _ _ h hc hs => ⟨queueInv_moves h.1 (step_moves hs),
        wakeInv_moves h.1 h.2 hc (step_moves hs)⟩)
      ⟨queueInv_create t, wakeInv_create t⟩ hC hrun
  exact hinv.2.noLostWakeup

/-- Thread 1 pushes while the loop is in `poll`: its wakeup is still to
come. -/
theorem noLostWakeup_other_thread :
    ∃ w : Worker Nat, run step (create 0) [.Loop, .test, .queueInLoop 1 7]
        = .ok w
      ∧ w.pc = .polling ∧ w.queue.pendingFunctors = [7]
      ∧ NoLostWakeup w := by
  refine ⟨_, rfl, rfl, rfl, noLostWakeup_of_queuesInLoop 0
    [.Loop, .test, .queueInLoop 1 7] ?_ rfl⟩
  refine ⟨fun f h => (by cases h), fun w₁ h₁ => ?_⟩
  refine ⟨fun f h => (by cases h), fun w₂ h₂ => ?_⟩
  refine ⟨fun f h => ?_, fun _ _ => trivial⟩
  cases h₁
  cases h₂
  cases h

/-- The loop thread pushes a functor before it enters `Loop`: it goes to
sleep in `poll` over it, with the descriptor at zero and no thread about
to wake it. -/
theorem create_then_loop_sleeps :
    ¬ ∀ (acts : List (WorkerAct Nat)) (w : Worker Nat),
      run step (create 0) acts = .ok w → NoLostWakeup w := by
  intro h
  obtain ⟨w, hrun, hpc, hq, hfd, hth⟩ : ∃ w : Worker Nat,
      run step (create 0) [.queueInLoop 0 7, .wakeup 0, .Loop, .test] = .ok w
        ∧ w.pc = .polling ∧ w.queue.pendingFunctors = [7] ∧ w.wakeupFd = 0
        ∧ w.threads = Function.update
            (Function.update (fun _ => .idle) 0 .pushed) 0 .idle :=
    ⟨_, rfl, rfl, rfl, rfl, rfl⟩
  have hidle : ∀ t, w.threads t = .idle := by
    intro t
    rw [hth]
    by_cases ht : t = 0 <;> simp [ht]
  rcases h _ w hrun hpc (by rw [hq]; decide) with hpos | ⟨t, -, hp⟩
  · omega
  · rw [hidle t] at hp
    cases hp

end Cobra.Worker
