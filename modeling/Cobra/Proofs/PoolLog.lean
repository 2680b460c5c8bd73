/-
Every task that is given to `run` is called once: it is put once, taken
once in the order in which it was put, and called once, or its caller
calls it.

# What a step moves

`Move` says what a step of the pool does with the tasks: one is put,
taken, or returns, or nobody's task moves. The history is right because
each step logs its move (`step_history`).

# Who is in a call

`Calls` is about the calls themselves: their numbers tell them apart, and
the caller of one that has not returned is still being called, and in no
other (`step_calls`).
-/
import Cobra.PoolLog
import Cobra.Proofs.ThreadPool
import Mathlib.Data.List.Nodup

namespace Cobra.PoolLog

open Machine Monitor

variable {τ : Type}

-- ============================================================ the moves

section Moves

open ThreadPool

variable {p p' p₁ : ThreadPool (PoolCall τ)} {a : PoolAct (PoolCall τ)}
  {c : PoolCall τ} {k pick : Nat}

theorem callers_enter (hc : p.arriving[k]? = some c) :
    (callers p).Perm
      (c :: callers { p with arriving := p.arriving.eraseIdx k }) := by
  obtain ⟨hlt, rfl⟩ := List.getElem?_eq_some_iff.1 hc
  unfold callers
  rw [← List.cons_append]
  exact (List.getElem_cons_eraseIdx_perm hlt).symm.append_right _

theorem callers_resume {d : CondVar (PoolCall τ)}
    (hc : p.notFull.resume k = some (c, d)) :
    (callers p).Perm (c :: callers { p with notFull := d }) := by
  unfold callers
  refine .trans ?_ List.perm_middle
  exact (CondVar.waiters_resume hc).append_left _

theorem callers_wait (p : ThreadPool (PoolCall τ)) (c : PoolCall τ) :
    (c :: callers p).Perm
      (callers { p with notFull := p.notFull.wait c }) := by
  unfold callers
  refine List.perm_middle.symm.trans ?_
  exact (CondVar.waiters_wait p.notFull c).symm.append_left _

/-- A worker takes the first task. -/
theorem takeSection_some {rest : List (PoolCall τ)}
    (hq : p.queue = c :: rest) (pick : Nat) :
    (p.takeSection pick).running = p.running
      ∧ (p.takeSection pick).queue = rest
      ∧ (p.takeSection pick).working = p.working ++ [c]
      ∧ (p.takeSection pick).testing = p.testing
      ∧ (callers p).Perm (callers (p.takeSection pick)) := by
  unfold takeSection
  rw [hq, List.isEmpty_cons, Bool.false_and, if_neg Bool.false_ne_true]
  refine ⟨rfl, rfl, rfl, rfl, .append_left _ ?_⟩
  simp only
  split
  next => exact (CondVar.waiters_notify ..).symm
  next => exact .refl _

/-- There is no task for the worker. -/
theorem takeSection_none (hq : p.queue = []) (pick : Nat) :
    (p.takeSection pick).queue = p.queue
      ∧ (p.takeSection pick).working = p.working
      ∧ callers (p.takeSection pick) = callers p := by
  unfold takeSection
  split
  next => exact ⟨rfl, rfl, rfl⟩
  next =>
    rw [hq]
    exact ⟨rfl, rfl, rfl⟩

/-- What a step of the pool does with the tasks. -/
inductive Move (p p' : ThreadPool (PoolCall τ)) (a : PoolAct (PoolCall τ)) :
    Prop
  | put (c : PoolCall τ) (hcallers : (callers p).Perm (c :: callers p'))
      (hqueue : p'.queue = p.queue ++ [c]) (hworking : p'.working = p.working)
      (ha : returnedBy p a = [])
  | taken (c : PoolCall τ) (hcallers : (callers p).Perm (callers p'))
      (hqueue : p.queue = c :: p'.queue)
      (hworking : p'.working = p.working ++ [c]) (ha : returnedBy p a = [])
  | returned (c : PoolCall τ) (hcallers : (callers p).Perm (callers p'))
      (hqueue : p'.queue = p.queue)
      (hworking : p.working.Perm (c :: p'.working)) (ha : returnedBy p a = [c])
  | stays (hcallers : (callers p).Perm (callers p'))
      (hqueue : p'.queue = p.queue) (hworking : p'.working = p.working)
      (ha : returnedBy p a = [])

/-- The section of `run`; `p₁` is the pool without the caller. -/
theorem runSection_move (hp : p₁.runSection c pick = .ok p')
    (hcallers : (callers p).Perm (c :: callers p₁))
    (hqueue : p₁.queue = p.queue) (hworking : p₁.working = p.working)
    (ha : returnedBy p a = []) : Move p p' a := by
  unfold runSection at hp
  split at hp
  next =>
    cases hp
    exact .stays (hcallers.trans (callers_wait p₁ c)) hqueue hworking ha
  next =>
    obtain ⟨_, -, hp⟩ := bind_ok_inv hp
    cases hp
    refine .put c hcallers ?_ hworking ha
    simp only [hqueue]

/-- The section of `take`; `p₁` is the pool without the worker. -/
theorem takeSection_move (pick : Nat) (hcallers : callers p₁ = callers p)
    (hqueue : p₁.queue = p.queue) (hworking : p₁.working = p.working)
    (ha : returnedBy p a = []) : Move p (p₁.takeSection pick) a := by
  cases hq : p₁.queue with
  | nil =>
      obtain ⟨hqueue', hworking', hcallers'⟩ := takeSection_none hq pick
      exact .stays (.of_eq (hcallers'.trans hcallers).symm)
        (hqueue'.trans hqueue) (hworking'.trans hworking) ha
  | cons c rest =>
      obtain ⟨-, hqueue', hworking', -, hcallers'⟩ := takeSection_some hq pick
      rw [hcallers] at hcallers'
      rw [hworking] at hworking'
      refine .taken c hcallers' ?_ hworking' ha
      rw [← hqueue, hq, hqueue']

theorem step_move (hnew : ∀ c, a ≠ .run c) (hp : p.step a = .ok p') :
    Move p p' a := by
  have hsame : ∀ {a : PoolAct (PoolCall τ)}, returnedBy p a = [] →
      (.ok p : Except PoolAssert (ThreadPool (PoolCall τ))) = .ok p' →
        Move p p' a := by
    intro a ha hp
    cases hp
    exact .stays (.refl _) rfl rfl ha
  unfold ThreadPool.step at hp
  cases a with
  | run c => exact absurd rfl (hnew c)
  | enter k pick =>
      simp only at hp
      split at hp
      next c hc => exact runSection_move hp (callers_enter hc) rfl rfl rfl
      next => exact hsame rfl hp
  | resumeRun k pick =>
      simp only at hp
      split at hp
      next c d hc => exact runSection_move hp (callers_resume hc) rfl rfl rfl
      next => exact hsame rfl hp
  | wakeupRun k =>
      cases hp
      refine .stays ?_ rfl rfl rfl
      exact (CondVar.waiters_wakeup ..).symm.append_left _
  | test =>
      simp only at hp
      split at hp
      next =>
        split at hp
        next =>
          cases hp
          exact .stays (.refl _) rfl rfl rfl
        next =>
          cases hp
          exact .stays (.refl _) rfl rfl rfl
      next => exact hsame rfl hp
  | take pick =>
      simp only at hp
      split at hp
      next =>
        cases hp
        exact takeSection_move pick rfl rfl rfl rfl
      next => exact hsame rfl hp
  | resumeTake k pick =>
      simp only at hp
      split at hp
      next d hd =>
        cases hp
        exact takeSection_move pick rfl rfl rfl rfl
      next => exact hsame rfl hp
  | wakeupTake k =>
      cases hp
      exact .stays (.refl _) rfl rfl rfl
  | finishTask k =>
      simp only at hp
      split at hp
      next hlt =>
        cases hp
        refine .returned p.working[k] (.refl _) rfl ?_ ?_
        · exact (List.getElem_cons_eraseIdx_perm hlt).symm
        · simp only [returnedBy, List.getElem?_eq_getElem hlt,
            Option.toList_some]
      next hge =>
        refine hsame ?_ hp
        simp only [returnedBy, List.getElem?_eq_none (Nat.not_lt.1 hge),
          Option.toList_none]
  | stop =>
      cases hp
      exact .stays (.refl _) rfl rfl rfl

/-- A move loses nothing: what comes into `queue_` and to the workers goes
out of it or is still there, and what leaves the calls is in `queue_`. -/
theorem Move.conserves (h : Move p p' a) :
    p.queue ++ p'.queue.drop p.queue.length
        = p.queue.take (p.queue.length - p'.queue.length) ++ p'.queue
      ∧ (p.working ++ p.queue.take (p.queue.length - p'.queue.length)).Perm
          (returnedBy p a ++ p'.working)
      ∧ (callers p).Perm (callers p' ++ p'.queue.drop p.queue.length) := by
  cases h with
  | put c hcallers hqueue hworking ha =>
      have hnone : p.queue.length - (p.queue.length + 1) = 0 := by omega
      rw [hqueue, hworking, ha, List.drop_left, List.length_append,
        List.length_singleton, hnone, List.take_zero, List.append_nil]
      refine ⟨rfl, .refl _, hcallers.trans ?_⟩
      exact (List.perm_append_singleton c _).symm
  | taken c hcallers hqueue hworking ha =>
      have hone : (p'.queue.length + 1) - p'.queue.length = 1 := by omega
      have hless : p'.queue.length ≤ p'.queue.length + 1 := Nat.le_succ _
      rw [hqueue, hworking, ha, List.length_cons,
        List.drop_eq_nil_of_le hless, hone, List.take_succ_cons,
        List.take_zero, List.append_nil, List.append_nil]
      exact ⟨rfl, .refl _, hcallers⟩
  | returned c hcallers hqueue hworking ha =>
      rw [hqueue, ha, List.drop_length, Nat.sub_self, List.take_zero,
        List.append_nil, List.append_nil, List.append_nil]
      exact ⟨rfl, hworking, hcallers⟩
  | stays hcallers hqueue hworking ha =>
      rw [hqueue, hworking, ha, List.drop_length, Nat.sub_self,
        List.take_zero, List.append_nil, List.append_nil, List.append_nil]
      exact ⟨rfl, .refl _, hcallers⟩

end Moves

variable {s s' : PoolLog τ} {n m : Nat}

/-- What a step does. -/
inductive Moves (s : PoolLog τ) : PoolLogAct τ → PoolLog τ → Prop
  | stays (a : PoolLogAct τ) : Moves s a s
  | called (caller : Option Nat) (task : τ) (hmay : MayCall s caller) :
      Moves s (.run caller task) (s.call caller task)
  | finished (k : Nat) (w : PoolCall τ) (hw : s.inline[k]? = some w)
      (hnot : ¬ InRun s w) : Moves s (.finishInline k) (s.finishInline k w)
  | pool (a : PoolAct (PoolCall τ)) (p : ThreadPool (PoolCall τ))
      (ha : Enabled s a) (hp : s.pool.step a = .ok p) :
      Moves s (.pool a) (s.logged a p)

theorem moves_of_ok {a : PoolLogAct τ} (hs : step s a = .ok s') :
    Moves s a s' := by
  unfold step at hs
  cases a with
  | run caller task =>
      simp only at hs
      split at hs
      next hmay =>
        cases hs
        exact .called caller task hmay
      next =>
        cases hs
        exact .stays _
  | finishInline k =>
      simp only at hs
      split at hs
      next w hw =>
        split at hs
        next =>
          cases hs
          exact .stays _
        next hnot =>
          cases hs
          exact .finished k w hw hnot
      next =>
        cases hs
        exact .stays _
  | pool a =>
      simp only at hs
      split at hs
      next ha =>
        obtain ⟨p, hp, hs⟩ := bind_ok_inv hs
        cases hs
        exact .pool a p ha hp
      next =>
        cases hs
        exact .stays _

theorem step_pool {a : PoolAct (PoolCall τ)} {p : ThreadPool (PoolCall τ)}
    (ha : Enabled s a) (hp : s.pool.step a = .ok p) :
    step s (.pool a) = .ok (s.logged a p) := by
  simp only [step, if_pos ha, hp, ok_bind]

theorem Enabled.move {a : PoolAct (PoolCall τ)}
    {p : ThreadPool (PoolCall τ)} (ha : Enabled s a)
    (hp : s.pool.step a = .ok p) : Move s.pool p a := by
  refine step_move (fun c hc => ?_) hp
  rw [hc] at ha
  exact ha

/-- The task that returns is in no call. -/
theorem Enabled.not_inRun {a : PoolAct (PoolCall τ)} {w : PoolCall τ}
    (ha : Enabled s a) (hw : returnedBy s.pool a = [w]) : ¬ InRun s w := by
  cases a with
  | finishTask k =>
      refine ha w ?_
      rw [Option.mem_def, ← Option.toList_eq_singleton_iff]
      exact hw
  | run => exact ha.elim
  | enter => cases hw
  | resumeRun => cases hw
  | wakeupRun => cases hw
  | test => cases hw
  | take => cases hw
  | resumeTake => cases hw
  | wakeupTake => cases hw
  | stop => cases hw

-- ========================================================== the history

/-- What the history says of the pool: the tasks put are those taken and
those in `queue_`, in this order; a task taken, or called by its caller,
has returned or is being called; and a task given has been put or called
by its caller, or its call is still there. -/
structure History (s : PoolLog τ) : Prop where
  fifo : s.put = s.taken ++ s.pool.queue
  executed : (s.taken ++ s.direct).Perm (s.returned ++ active s)
  accepted : s.called.Perm (callers s.pool ++ (s.put ++ s.direct))

theorem start_history (n m : Nat) : History (start n m : PoolLog τ) :=
  ⟨rfl, .refl _, .refl _⟩

theorem call_history (h : History s) (caller : Option Nat) (task : τ) :
    History (s.call caller task) := by
  unfold call
  simp only
  split
  next =>
    refine ⟨h.fifo, ?_, ?_⟩
    · simpa only [active, List.append_assoc] using h.executed.append_right _
    · simpa only [List.append_assoc] using h.accepted.append_right _
  next =>
    refine ⟨h.fifo, h.executed, ?_⟩
    refine (List.perm_append_singleton _ _).trans ((h.accepted.cons _).trans ?_)
    unfold callers
    simp only [List.append_assoc, List.singleton_append]
    exact List.perm_middle.symm

theorem finishInline_history {k : Nat} {w : PoolCall τ} (h : History s)
    (hw : s.inline[k]? = some w) : History (s.finishInline k w) := by
  obtain ⟨hlt, rfl⟩ := List.getElem?_eq_some_iff.1 hw
  refine ⟨h.fifo, h.executed.trans ?_, h.accepted⟩
  unfold finishInline active
  simp only [List.append_assoc, List.singleton_append]
  refine .append_left _ (.trans (.append_left _ ?_) List.perm_middle)
  exact (List.getElem_cons_eraseIdx_perm hlt).symm

theorem logged_history {a : PoolAct (PoolCall τ)}
    {p : ThreadPool (PoolCall τ)} (h : History s) (hm : Move s.pool p a) :
    History (s.logged a p) := by
  classical
  obtain ⟨hqueue, hworking, hcallers⟩ := hm.conserves
  refine ⟨?_, ?_, ?_⟩
  · simp only [logged]
    rw [h.fifo, List.append_assoc, hqueue, List.append_assoc]
  · have hexec := h.executed
    unfold active logged at *
    rw [List.perm_iff_count] at *
    intro x
    have h₁ := hexec x
    have h₂ := hworking x
    simp only [List.count_append] at *
    omega
  · have haccept := h.accepted
    unfold logged
    rw [List.perm_iff_count] at *
    intro x
    have h₁ := haccept x
    have h₂ := hcallers x
    simp only [List.count_append] at *
    omega

theorem step_history {a : PoolLogAct τ} (h : History s)
    (hm : Moves s a s') : History s' := by
  cases hm with
  | stays => exact h
  | called caller task _ => exact call_history h caller task
  | finished k w hw _ => exact finishInline_history h hw
  | pool a p ha hp => exact logged_history h (ha.move hp)

/-- Every call is in one place. -/
theorem History.places (h : History s) :
    s.called.Perm
      (callers s.pool ++ (s.pool.queue ++ (s.returned ++ active s))) := by
  refine h.accepted.trans (.append_left _ ?_)
  rw [h.fifo, List.append_assoc]
  refine .trans ?_ (h.executed.append_left _)
  rw [← List.append_assoc, ← List.append_assoc s.pool.queue]
  exact List.perm_append_comm.append_right _

-- ============================================================ the calls

/-- The calls have the numbers from `0` on; a task's calls come later than
its own; the caller is a task that is being called, and in no other
call. -/
structure Calls (s : PoolLog τ) : Prop where
  numbered : s.called.map PoolCall.number = List.range s.called.length
  older : ∀ c ∈ s.called, ∀ j, c.caller = some j → j < c.number
  busy : ∀ c ∈ pending s, ∀ j, c.caller = some j →
    ∃ w ∈ active s, w.number = j
  once : ((pending s).filterMap PoolCall.caller).Nodup
  sorted : s.inline.Pairwise fun c d => c.number < d.number

theorem start_calls (n m : Nat) : Calls (start n m : PoolLog τ) where
  numbered := rfl
  older := fun _ h => absurd h List.not_mem_nil
  busy := fun _ h => absurd h List.not_mem_nil
  once := List.nodup_nil
  sorted := .nil

theorem Calls.lt_of_mem {c : PoolCall τ} (h : Calls s) (hc : c ∈ s.called) :
    c.number < s.called.length := by
  rw [← List.mem_range, ← h.numbered]
  exact List.mem_map_of_mem hc

theorem Calls.nodup (h : Calls s) : s.called.Nodup := by
  refine List.Nodup.of_map PoolCall.number ?_
  rw [h.numbered]
  exact List.nodup_range

theorem History.mem_called_of_active {w : PoolCall τ} (h : History s)
    (hw : w ∈ active s) : w ∈ s.called := by
  rw [h.places.mem_iff]
  exact List.mem_append_right _
    (List.mem_append_right _ (List.mem_append_right _ hw))

theorem History.mem_called_of_pending {c : PoolCall τ} (h : History s)
    (hc : c ∈ pending s) : c ∈ s.called := by
  rcases List.mem_append.1 hc with hc | hc
  · rw [h.places.mem_iff]
    exact List.mem_append_left _ hc
  · exact h.mem_called_of_active (List.mem_append_right _ hc)

/-- A task that is still in `queue_` is not being called. -/
theorem not_active_of_queue {c w : PoolCall τ} (hhist : History s)
    (h : Calls s) (hc : c ∈ s.pool.queue) (hw : w ∈ active s) :
    w.number ≠ c.number := by
  have hnodup := List.nodup_range (n := s.called.length)
  rw [← h.numbered, (hhist.places.map _).nodup_iff, List.map_append,
    List.map_append] at hnodup
  have hdisjoint := (List.nodup_append.1 (List.nodup_append.1 hnodup).2.1).2.2
  intro heq
  refine hdisjoint _ (List.mem_map_of_mem hc) _ (List.mem_map_of_mem ?_)
    heq.symm
  exact List.mem_append_right _ hw

/-- The calls get fewer, and whoever made one that is left is still being
called. -/
theorem Calls.fewer (h : Calls s) (hcalled : s'.called = s.called)
    (hinline : s'.inline.Sublist s.inline)
    (hpending : ∃ l, (pending s).Perm (l ++ pending s'))
    (hactive : ∀ w ∈ active s, w ∉ active s' → ¬ InRun s w) : Calls s' := by
  obtain ⟨l, hl⟩ := hpending
  have hsub : ∀ c ∈ pending s', c ∈ pending s := fun c hc =>
    hl.mem_iff.2 (List.mem_append_right l hc)
  refine ⟨?_, ?_, ?_, ?_, h.sorted.sublist hinline⟩
  · rw [hcalled]
    exact h.numbered
  · rw [hcalled]
    exact h.older
  · intro c hc j hj
    obtain ⟨w, hw, hwj⟩ := h.busy c (hsub c hc) j hj
    refine ⟨w, ?_, hwj⟩
    by_contra hgone
    refine hactive w hw hgone ⟨c, hsub c hc, ?_⟩
    rw [hj, hwj]
  · have hnodup := h.once
    rw [(hl.filterMap _).nodup_iff, List.filterMap_append] at hnodup
    exact (List.nodup_append.1 hnodup).2.1

/-- What a call of `run` changes: the new call is with those that have
not returned, and it may have its caller call the task. -/
structure Called (s : PoolLog τ) (c : PoolCall τ) (s' : PoolLog τ) : Prop where
  called : s'.called = s.called ++ [c]
  pending : (pending s').Perm (c :: pending s)
  active : ∀ w ∈ active s, w ∈ active s'
  inline : s'.inline = s.inline ∨ s'.inline = s.inline ++ [c]

theorem call_called (s : PoolLog τ) (caller : Option Nat) (task : τ) :
    Called s ⟨s.called.length, caller, task⟩ (s.call caller task) := by
  unfold call
  simp only
  split
  next =>
    refine ⟨rfl, ?_, fun w hw => ?_, .inr rfl⟩
    · unfold PoolLog.pending
      rw [← List.append_assoc]
      exact List.perm_append_singleton _ _
    · unfold PoolLog.active at hw ⊢
      rw [← List.append_assoc]
      exact List.mem_append_left _ hw
  next =>
    refine ⟨rfl, ?_, fun w hw => hw, .inl rfl⟩
    unfold PoolLog.pending callers
    simp only [List.append_assoc, List.singleton_append]
    exact List.perm_middle

/-- The new call has the next number, and its caller was in no other. -/
theorem Called.calls {c : PoolCall τ} (h : Calls s) (hhist : History s)
    (hc : Called s c s') (hnumber : c.number = s.called.length)
    (hmay : MayCall s c.caller) : Calls s' := by
  have hcaller : ∀ j, c.caller = some j →
      ∃ w ∈ PoolLog.active s, w.number = j ∧ ¬ InRun s w := by
    intro j hj
    rw [hj] at hmay
    exact hmay
  refine ⟨?_, ?_, ?_, ?_, ?_⟩
  · rw [hc.called, List.map_append, h.numbered, List.length_append,
      List.length_singleton, List.range_succ, List.map_singleton, hnumber]
  · intro d hd j hj
    rw [hc.called] at hd
    rcases List.mem_append.1 hd with hd | hd
    · exact h.older d hd j hj
    · rw [List.mem_singleton.1 hd] at hj ⊢
      obtain ⟨w, hw, rfl, -⟩ := hcaller j hj
      rw [hnumber]
      exact h.lt_of_mem (hhist.mem_called_of_active hw)
  · intro d hd j hj
    rcases List.mem_cons.1 (hc.pending.mem_iff.1 hd) with rfl | hd
    · obtain ⟨w, hw, hwj, -⟩ := hcaller j hj
      exact ⟨w, hc.active w hw, hwj⟩
    · obtain ⟨w, hw, hwj⟩ := h.busy d hd j hj
      exact ⟨w, hc.active w hw, hwj⟩
  · rw [(hc.pending.filterMap _).nodup_iff]
    cases hcall : c.caller with
    | none =>
        rw [List.filterMap_cons_none hcall]
        exact h.once
    | some j =>
        obtain ⟨w, -, rfl, hnot⟩ := hcaller j hcall
        rw [List.filterMap_cons_some hcall]
        refine List.nodup_cons.2 ⟨fun hmem => ?_, h.once⟩
        obtain ⟨d, hd, hdw⟩ := List.mem_filterMap.1 hmem
        exact hnot ⟨d, hd, hdw⟩
  · rcases hc.inline with heq | heq
    · rw [heq]
      exact h.sorted
    · rw [heq, List.pairwise_append]
      refine ⟨h.sorted, List.pairwise_singleton _ _, ?_⟩
      intro d hd e he
      rw [List.mem_singleton.1 he, hnumber]
      exact h.lt_of_mem
        (hhist.mem_called_of_active (List.mem_append_right _ hd))

theorem finishInline_calls {k : Nat} {w : PoolCall τ} (h : Calls s)
    (hw : s.inline[k]? = some w) (hnot : ¬ InRun s w) :
    Calls (s.finishInline k w) := by
  obtain ⟨hlt, hget⟩ := List.getElem?_eq_some_iff.1 hw
  have hperm := List.getElem_cons_eraseIdx_perm hlt
  rw [hget] at hperm
  refine h.fewer rfl (List.eraseIdx_sublist ..) ⟨[w], ?_⟩ ?_
  · unfold pending finishInline
    exact (hperm.symm.append_left _).trans List.perm_middle
  · intro v hv hgone
    have hvw : v = w := by
      unfold active finishInline at *
      rw [List.mem_append, ← hperm.mem_iff, List.mem_cons] at hv
      rw [List.mem_append, not_or] at hgone
      rcases hv with hv | rfl | hv
      · exact absurd hv hgone.1
      · rfl
      · exact absurd hv hgone.2
    rw [hvw]
    exact hnot

theorem logged_calls {a : PoolAct (PoolCall τ)} {p : ThreadPool (PoolCall τ)}
    (h : Calls s) (ha : Enabled s a) (hm : Move s.pool p a) :
    Calls (s.logged a p) := by
  -- a step that takes nothing from the workers
  have hkeeps : (∃ l, (callers s.pool).Perm (l ++ callers p)) →
      (∀ w ∈ s.pool.working, w ∈ p.working) → Calls (s.logged a p) := by
    rintro ⟨l, hl⟩ hworking
    refine h.fewer rfl (.refl _) ⟨l, ?_⟩ fun w hw hgone => ?_
    · unfold pending logged
      rw [← List.append_assoc]
      exact hl.append_right _
    · rcases List.mem_append.1 hw with hw | hw
      · exact absurd (List.mem_append_left _ (hworking w hw)) hgone
      · exact absurd (List.mem_append_right _ hw) hgone
  cases hm with
  | put c hcallers _ hworking _ =>
      refine hkeeps ⟨[c], hcallers⟩ fun w hw => ?_
      rw [hworking]
      exact hw
  | taken c hcallers _ hworking _ =>
      refine hkeeps ⟨[], hcallers⟩ fun w hw => ?_
      rw [hworking]
      exact List.mem_append_left _ hw
  | stays hcallers _ hworking _ =>
      refine hkeeps ⟨[], hcallers⟩ fun w hw => ?_
      rw [hworking]
      exact hw
  | returned c hcallers _ hworking hret =>
      refine h.fewer rfl (.refl _) ⟨[], ?_⟩ fun w hw hgone => ?_
      · exact hcallers.append_right _
      · have hwc : w = c := by
          unfold active logged at *
          rw [List.mem_append, hworking.mem_iff, List.mem_cons] at hw
          rw [List.mem_append, not_or] at hgone
          rcases hw with (rfl | hw) | hw
          · rfl
          · exact absurd hw hgone.1
          · exact absurd hw hgone.2
        rw [hwc]
        exact ha.not_inRun hret

theorem step_calls {a : PoolLogAct τ} (h : Calls s) (hhist : History s)
    (hm : Moves s a s') : Calls s' := by
  cases hm with
  | stays => exact h
  | called caller task hmay =>
      exact (call_called s caller task).calls h hhist rfl hmay
  | finished k w hw hnot => exact finishInline_calls h hw hnot
  | pool a p ha hp => exact logged_calls h ha (ha.move hp)

-- ============================================================= the runs

section Takers

variable {σ : Type} {a : PoolAct σ} {p p' p₁ : ThreadPool σ}

theorem runSection_takers {task : σ} {pick : Nat}
    (hp : p₁.runSection task pick = .ok p)
    (h : p₁.notEmpty.Served p₁.queue.length) :
    p.notEmpty.Served p.queue.length := by
  unfold ThreadPool.runSection at hp
  split at hp
  next =>
    cases hp
    exact h
  next =>
    obtain ⟨_, -, hp⟩ := bind_ok_inv hp
    cases hp
    simp only [List.length_append, List.length_singleton]
    exact h.notify pick

/-- A worker that comes back takes a task, unless there is none. -/
theorem takeSection_takers (pick : Nat)
    (h : p₁.notEmpty.Served (p₁.queue.length - 1)) :
    (p₁.takeSection pick).notEmpty.Served
      (p₁.takeSection pick).queue.length := by
  unfold ThreadPool.takeSection
  split
  next hwait =>
    rw [Bool.and_eq_true, List.isEmpty_iff] at hwait
    simp only [hwait.1, List.length_nil]
    exact CondVar.Served.wait ()
  next =>
    split
    next task rest hq =>
      rw [hq] at h
      exact h
    next hq =>
      simp only [hq, List.length_nil]
      exact fun _ => Nat.zero_le _

/-- The workers are served by what is in `queue_`. -/
theorem step_takers (h : p.notEmpty.Served p.queue.length)
    (hp : p.step a = .ok p') : p'.notEmpty.Served p'.queue.length := by
  unfold ThreadPool.step at hp
  cases a with
  | run task =>
      simp only at hp
      split at hp
      next =>
        cases hp
        exact h
      next =>
        cases hp
        exact h
  | enter k pick =>
      simp only at hp
      split at hp
      next => exact runSection_takers hp h
      next =>
        cases hp
        exact h
  | resumeRun k pick =>
      simp only at hp
      split at hp
      next => exact runSection_takers hp h
      next =>
        cases hp
        exact h
  | wakeupRun k =>
      cases hp
      exact h
  | test =>
      simp only at hp
      split at hp
      next =>
        split at hp
        next =>
          cases hp
          exact h
        next =>
          cases hp
          exact h
      next =>
        cases hp
        exact h
  | take pick =>
      simp only at hp
      split at hp
      next =>
        cases hp
        exact takeSection_takers pick (h.mono (Nat.sub_le ..))
      next =>
        cases hp
        exact h
  | resumeTake k pick =>
      simp only at hp
      split at hp
      next c hc =>
        cases hp
        exact takeSection_takers pick (h.resume hc)
      next =>
        cases hp
        exact h
  | wakeupTake k =>
      cases hp
      exact h.wakeup k
  | finishTask k =>
      simp only at hp
      split at hp
      next =>
        cases hp
        exact h
      next =>
        cases hp
        exact h
  | stop =>
      cases hp
      exact fun hne => absurd rfl hne

end Takers

/-- What holds in every run with `n` workers. -/
structure RunInv (n m : Nat) (s : PoolLog τ) : Prop where
  pool : ThreadPool.PoolInv n m s.pool
  takers : s.pool.notEmpty.Served s.pool.queue.length
  history : History s
  calls : Calls s
  workers : 0 < n → s.inline = [] ∧ s.direct = []
  nobody : n = 0 → callers s.pool = [] ∧ s.put = []

theorem start_runInv (n m : Nat) : RunInv n m (start n m : PoolLog τ) where
  pool := ThreadPool.start_inv n m
  takers := fun hne => absurd rfl hne
  history := start_history n m
  calls := start_calls n m
  workers := fun _ => ⟨rfl, rfl⟩
  nobody := fun _ => ⟨rfl, rfl⟩

/-- With no workers no step of the pool finds a task. -/
theorem logged_nobody {a : PoolAct (PoolCall τ)}
    {p : ThreadPool (PoolCall τ)} (h : History s)
    (hnone : callers s.pool = [] ∧ s.put = []) (hm : Move s.pool p a) :
    callers p = [] ∧ (s.logged a p).put = [] := by
  have hfifo := h.fifo
  rw [hnone.2] at hfifo
  have hempty : s.pool.queue = [] := (List.append_eq_nil_iff.1 hfifo.symm).2
  have hkeeps : (callers s.pool).Perm (callers p) →
      p.queue = s.pool.queue → callers p = [] ∧ (s.logged a p).put = [] := by
    intro hcallers hqueue
    rw [hnone.1] at hcallers
    refine ⟨hcallers.symm.eq_nil, ?_⟩
    unfold logged
    rw [hqueue, List.drop_length, List.append_nil]
    exact hnone.2
  cases hm with
  | put c hcallers _ _ _ =>
      rw [hnone.1] at hcallers
      cases hcallers.symm.eq_nil
  | taken c _ hqueue _ _ =>
      rw [hempty] at hqueue
      cases hqueue
  | returned c hcallers hqueue _ _ => exact hkeeps hcallers hqueue
  | stays hcallers hqueue _ _ => exact hkeeps hcallers hqueue

theorem runInv_moves {a : PoolLogAct τ} (h : RunInv n m s)
    (hm : Moves s a s') : RunInv n m s' := by
  have hhist := step_history h.history hm
  have hcalls := step_calls h.calls h.history hm
  cases hm with
  | stays => exact h
  | called caller task hmay =>
      unfold call at hhist hcalls ⊢
      simp only at hhist hcalls ⊢
      split at hhist
      next hzero =>
        rw [if_pos hzero] at hcalls ⊢
        have hn : n = 0 := h.pool.threads.symm.trans hzero
        refine ⟨h.pool, h.takers, hhist, hcalls, ?_, h.nobody⟩
        exact fun hpos => absurd hn (Nat.ne_of_gt hpos)
      next hpos =>
        rw [if_neg hpos] at hcalls ⊢
        refine ⟨{ h.pool with }, h.takers, hhist, hcalls, h.workers, ?_⟩
        exact fun hn => absurd (h.pool.threads.trans hn) hpos
  | finished k w hw hnot =>
      refine ⟨h.pool, h.takers, hhist, hcalls, fun hpos => ?_, h.nobody⟩
      rw [(h.workers hpos).1] at hw
      cases hw
  | pool a p ha hp =>
      refine ⟨(ThreadPool.step_inv h.pool a).of_ok hp, step_takers h.takers hp,
        hhist, hcalls, h.workers, fun hn => ?_⟩
      exact logged_nobody h.history (h.nobody hn) (ha.move hp)

theorem step_ok (h : RunInv n m s) (a : PoolLogAct τ) :
    ∃ s', step s a = .ok s' := by
  unfold step
  cases a with
  | run caller task =>
      simp only
      split
      next => exact ⟨_, rfl⟩
      next => exact ⟨_, rfl⟩
  | finishInline k =>
      simp only
      split
      next =>
        split
        next => exact ⟨_, rfl⟩
        next => exact ⟨_, rfl⟩
      next => exact ⟨_, rfl⟩
  | pool a =>
      simp only
      split
      next =>
        obtain ⟨p, hp, -⟩ := ThreadPool.step_inv h.pool a
        rw [hp]
        exact ⟨_, rfl⟩
      next => exact ⟨_, rfl⟩

/-- In every interleaving of the callers, the workers, `stop` and wakeups
for no reason, with any number of workers and with calls of `run` by other
threads and by the tasks themselves, before `stop` and behind it: the
tasks put are those taken and then those in `queue_`, in the order of
their puts; every task taken, or called by its caller, has returned or is
being called; and every task given to `run` has been put or called by its
caller, or its call is still there. With workers no caller calls a task,
and without them nothing is put. No task is lost and none is called twice,
and the queue is never longer than `maxQueueSize_`. -/
theorem exactly_once (n m : Nat) (acts : List (PoolLogAct τ)) :
    ∃ s, run step (start n m) acts = .ok s
      ∧ s.called.Nodup
      ∧ s.put = s.taken ++ s.pool.queue
      ∧ (s.taken ++ s.direct).Perm (s.returned ++ active s)
      ∧ s.called.Perm (callers s.pool ++ (s.put ++ s.direct))
      ∧ (0 < n → s.inline = [] ∧ s.direct = [])
      ∧ (n = 0 → callers s.pool = [] ∧ s.put = [])
      ∧ (0 < m → s.pool.queue.length ≤ m)
      ∧ s.pool.working.length ≤ n := by
  obtain ⟨s, hrun, h⟩ := run_safe (C := fun _ _ => True) (I := RunInv n m)
    (fun s a h _ => by
      obtain ⟨s', hs⟩ := step_ok h a
      exact ⟨s', hs, runInv_moves h (moves_of_ok hs)⟩)
    (start_runInv n m : RunInv n m (start n m : PoolLog τ))
    (along_of_forall (fun _ _ => trivial) acts _)
  have hcount := h.pool.count
  exact ⟨s, hrun, h.calls.nodup, h.history.fifo, h.history.executed,
    h.history.accepted, h.workers, h.nobody, h.pool.bound, by omega⟩

end Cobra.PoolLog
