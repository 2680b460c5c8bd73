/-
The queues, one access at a time: what is true of their critical sections
in any order is true of the threads.

`BoundedBlockingQueue`: the sections of Cobra.Mutex and the steps of
Cobra.BoundedBlockingQueue keep in step (`Same`), so that the threads are
answered by a run of the queue, and what is proved of its runs is true of
them.

`BlockingQueue`: its invariant is proved of the sections. As there, what
keeps a taker from being forgotten is that `notEmpty_` is served by the
values (`CondVar.Served`); here no section waits but that of `take`.

Between two statements the threads' value is ahead of the one above. What
is still true of it there is a matter of the few statements of each
function (`put_partial`, `take_partial`).
-/
import Cobra.BlockingQueue
import Cobra.Proofs.BoundedBlockingQueue
import Cobra.Proofs.Mutex

namespace Cobra

open Machine Monitor

variable {α τ : Type}

namespace QueueData

/-- In the middle of `take`, of either queue: no value is more, and those
taken are the first ones. -/
theorem take_partial {n : Nat} {d d' : QueueData α}
    (horder : d.takes ++ d.queue = d.puts)
    (hready : (!d.queue.isEmpty) = true)
    (h : statements ([assertNotEmpty, fun q => .ok q.front,
      fun q => .ok q.popFront].take n) d = .ok d') :
    d'.queue.length ≤ d.queue.length ∧ d'.takes <+: d'.puts := by
  cases hqueue : d.queue with
  | nil =>
      rw [hqueue] at hready
      cases hready
  | cons x rest =>
      rw [hqueue] at horder
      have hbefore : d.takes <+: d.puts := ⟨x :: rest, horder⟩
      have hafter : d.takes ++ [x] <+: d.puts :=
        ⟨rest, by rw [List.append_assoc]; exact horder⟩
      rcases n with _ | _ | _ | n
      · cases h
        exact ⟨hqueue ▸ Nat.le_refl _, hbefore⟩
      · simp only [statements, List.take_succ_cons, List.take_zero,
          List.foldlM_cons, List.foldlM_nil, assertNotEmpty, hqueue,
          List.isEmpty_cons, require_bind, ok_bind] at h
        cases h
        exact ⟨hqueue ▸ Nat.le_refl _, hbefore⟩
      · simp only [statements, List.take_succ_cons, List.take_zero,
          List.foldlM_cons, List.foldlM_nil, assertNotEmpty, hqueue,
          List.isEmpty_cons, require_bind, ok_bind] at h
        cases h
        refine ⟨Nat.le_of_eq (congrArg List.length hqueue), ?_⟩
        simp only [front, hqueue]
        exact hafter
      · simp only [statements, List.take_succ_cons, List.take_nil,
          List.foldlM_cons, List.foldlM_nil, assertNotEmpty, hqueue,
          List.isEmpty_cons, require_bind, ok_bind] at h
        cases h
        simp only [popFront, front, hqueue]
        exact ⟨Nat.le_succ _, hafter⟩

end QueueData

namespace BoundedBlockingQueue

-- ============================================== the sections and the queue

/-- The sections and the queue have the same values, and the same waiters
in the same order. -/
structure Same (cap : Nat)
    (m : Sections (QueueData α) QueueCond τ (QueueOp α))
    (q : BoundedBlockingQueue α) : Prop where
  capacity : q.capacity = cap
  queue : q.queue = m.data.queue
  puts : q.puts = m.data.puts
  takes : q.takes = m.data.takes
  takers : (m.conds .notEmpty).map Prod.snd
    = q.notEmpty.map fun _ => QueueOp.take
  putters : (m.conds .notFull).map Prod.snd = q.notFull.map QueueOp.put

variable {cap : Nat} {m : Sections (QueueData α) QueueCond τ (QueueOp α)}
  {q : BoundedBlockingQueue α}

theorem conds_setCond_notEmpty (v : CondVar (τ × QueueOp α)) :
    (m.setCond .notEmpty v).conds .notFull = m.conds .notFull :=
  MutexLock.conds_setCond_of_ne (by decide)

theorem conds_setCond_notFull (v : CondVar (τ × QueueOp α)) :
    (m.setCond .notFull v).conds .notEmpty = m.conds .notEmpty :=
  MutexLock.conds_setCond_of_ne (by decide)

/-- The section of `put`. -/
theorem exec_put (h : Same cap m q) (t : τ) (x : α) (pick : Nat) :
    Answers (Same cap) (m.exec (sec cap) (t, .put x) pick)
      (q.putSection x pick) := by
  have hq : q.full = (m.data.queue.length == cap) := by
    unfold full
    rw [h.queue, h.capacity]
  unfold Sections.exec putSection
  rw [hq]
  cases hfull : m.data.queue.length == cap with
  | true =>
      simp only [sec, hfull, Bool.not_true, Bool.false_eq_true, if_false, if_true]
      refine Answers.ok ⟨h.capacity, h.queue, h.puts, h.takes, ?_, ?_⟩
      · rw [conds_setCond_notFull]
        exact h.takers
      · rw [MutexLock.conds_setCond_self, CondVar.map_wait, h.putters,
          CondVar.map_wait]
  | false =>
      have hstatements : statements (sec cap (.put x)).body m.data = .ok
          { m.data with
            queue := pushBack cap m.data.queue x
            puts := m.data.puts ++ [x] } := by
        simp only [sec, statements, List.foldlM_cons, List.foldlM_nil,
          assertNotFull, hfull, require_bind, ok_bind]
        rfl
      rw [hstatements]
      simp only [sec, hfull, Bool.not_false, if_true, Bool.false_eq_true,
        if_false, not_false_eq_true, require_bind, ok_bind]
      refine Answers.ok ⟨h.capacity, ?_, ?_, h.takes, ?_, ?_⟩
      · rw [h.capacity, h.queue]
        rfl
      · rw [h.puts]
        rfl
      · simp only [Sections.signal]
        rw [MutexLock.conds_setCond_self, CondVar.map_notify, h.takers,
          CondVar.map_notify]
      · simp only [Sections.signal]
        rw [conds_setCond_notEmpty]
        exact h.putters

/-- The section of `take`. -/
theorem exec_take (h : Same cap m q) (t : τ) (pick : Nat) :
    Answers (Same cap) (m.exec (sec cap) (t, .take) pick)
      (q.takeSection pick) := by
  unfold Sections.exec takeSection
  rw [h.queue]
  cases hqueue : m.data.queue with
  | nil =>
      simp only [sec, hqueue, List.isEmpty_nil, Bool.not_true, Bool.false_eq_true,
        if_false, if_true]
      refine Answers.ok ⟨h.capacity, hqueue.symm, h.puts, h.takes, ?_, ?_⟩
      · rw [MutexLock.conds_setCond_self, CondVar.map_wait, h.takers,
          CondVar.map_wait]
      · rw [conds_setCond_notEmpty]
        exact h.putters
  | cons front rest =>
      have hstatements : statements (sec cap (.take : QueueOp α)).body m.data = .ok
          { m.data with
            queue := rest
            takes := m.data.takes ++ [front] } := by
        simp only [sec, statements, List.foldlM_cons, List.foldlM_nil,
          QueueData.assertNotEmpty, QueueData.front, QueueData.popFront, hqueue,
          List.isEmpty_cons, require_bind, ok_bind]
        rfl
      rw [hstatements]
      simp only [sec, hqueue, List.isEmpty_cons, Bool.not_false, if_true,
        Bool.false_eq_true, if_false, ok_bind]
      refine Answers.ok ⟨h.capacity, rfl, h.puts, ?_, ?_, ?_⟩
      · rw [h.takes]
        rfl
      · simp only [Sections.signal]
        rw [conds_setCond_notFull]
        exact h.takers
      · simp only [Sections.signal]
        rw [MutexLock.conds_setCond_self, CondVar.map_notify, h.putters,
          CondVar.map_notify]

/-- One section, one step of the queue. -/
theorem same_step (m : Sections (QueueData α) QueueCond τ (QueueOp α))
    (q : BoundedBlockingQueue α) (a : SectionsAct QueueCond τ (QueueOp α))
    (h : Same cap m q) :
    ∃ bs, Answers (Same cap) (Sections.step (sec cap) m a) (run step q bs) := by
  cases a with
  | enter t o pick =>
      cases o with
      | put x =>
          refine ⟨[.put x pick], ?_⟩
          rw [run_singleton]
          exact exec_put h t x pick
      | take =>
          refine ⟨[.take pick], ?_⟩
          rw [run_singleton]
          exact exec_take h t pick
  | resume c k pick =>
      simp only [Sections.step]
      split
      next w v hresume =>
        cases c with
        | notEmpty =>
            have hmap := CondVar.map_resume Prod.snd (m.conds .notEmpty) k
            rw [h.takers, CondVar.map_resume, hresume] at hmap
            obtain ⟨⟨u, c'⟩, hq, heq⟩ := Option.map_eq_some_iff.1 hmap
            obtain ⟨ho, hv⟩ := Prod.mk.inj heq
            refine ⟨[.resumeTake k pick], ?_⟩
            rw [run_singleton]
            simp only [step, hq]
            have hsame : Same cap (m.setCond .notEmpty v)
                { q with notEmpty := c' } :=
              ⟨h.capacity, h.queue, h.puts, h.takes,
                by rw [MutexLock.conds_setCond_self, hv],
                by rw [conds_setCond_notEmpty]; exact h.putters⟩
            have hexec := exec_take hsame w.1 pick
            rw [show (w.1, QueueOp.take) = w from Prod.ext rfl ho] at hexec
            exact hexec
        | notFull =>
            have hmap := CondVar.map_resume Prod.snd (m.conds .notFull) k
            rw [h.putters, CondVar.map_resume, hresume] at hmap
            obtain ⟨⟨x, c'⟩, hq, heq⟩ := Option.map_eq_some_iff.1 hmap
            obtain ⟨ho, hv⟩ := Prod.mk.inj heq
            refine ⟨[.resumePut k pick], ?_⟩
            rw [run_singleton]
            simp only [step, hq]
            have hsame : Same cap (m.setCond .notFull v)
                { q with notFull := c' } :=
              ⟨h.capacity, h.queue, h.puts, h.takes,
                by rw [conds_setCond_notFull]; exact h.takers,
                by rw [MutexLock.conds_setCond_self, hv]⟩
            have hexec := exec_put hsame w.1 x pick
            rw [show (w.1, QueueOp.put x) = w from Prod.ext rfl ho] at hexec
            exact hexec
      next => exact ⟨[], Answers.ok h⟩
  | wakeup c k =>
      cases c with
      | notEmpty =>
          refine ⟨[.wakeupTake k], ?_⟩
          rw [run_singleton]
          refine Answers.ok ⟨h.capacity, h.queue, h.puts, h.takes, ?_, ?_⟩
          · rw [MutexLock.conds_setCond_self, CondVar.map_wakeup, h.takers,
              CondVar.map_wakeup]
          · rw [conds_setCond_notEmpty]
            exact h.putters
      | notFull =>
          refine ⟨[.wakeupPut k], ?_⟩
          rw [run_singleton]
          refine Answers.ok ⟨h.capacity, h.queue, h.puts, h.takes, ?_, ?_⟩
          · rw [conds_setCond_notFull]
            exact h.takers
          · rw [MutexLock.conds_setCond_self, CondVar.map_wakeup, h.putters,
              CondVar.map_wakeup]

theorem same_create (cap : Nat) :
    Same cap (.init .empty : Sections (QueueData α) QueueCond τ (QueueOp α))
      (create cap) :=
  ⟨rfl, rfl, rfl, rfl, rfl, rfl⟩

-- ============================================================ the threads

/-- A run of the threads is answered by a run of the queue. -/
theorem threads_answered [DecidableEq τ] (cap : Nat)
    (acts : List (LockAct QueueCond τ (QueueOp α))) :
    ∃ bs, Answers (fun s q => ∃ m, MutexLock.Sim (sec cap) s m ∧ Same cap m q)
      (run (MutexLock.step (sec cap)) (.init .empty) acts)
      (run step (create cap) bs) := by
  obtain ⟨as, hsections⟩ := MutexLock.sections_atomic (sec cap) .empty acts
  obtain ⟨bs, hqueue⟩ := run_simulates same_step as (same_create cap)
  exact ⟨bs, hsections.comp hqueue⟩

theorem Same.takers_served (h : Same cap m q) {r : Nat} :
    (m.conds .notEmpty).Served r ↔ q.notEmpty.Served r := by
  rw [← CondVar.served_map Prod.snd, h.takers, CondVar.served_map]

theorem Same.putters_served (h : Same cap m q) {r : Nat} :
    (m.conds .notFull).Served r ↔ q.notFull.Served r := by
  rw [← CondVar.served_map Prod.snd, h.putters, CondVar.served_map]

/-- In the middle of `put` the queue is within its capacity as well. -/
theorem put_partial {x : α} {n : Nat} {d d' : QueueData α}
    (hbound : d.queue.length ≤ cap) (horder : d.takes ++ d.queue = d.puts)
    (hready : (sec cap (.put x)).ready d = true)
    (h : statements ((sec cap (.put x)).body.take n) d = .ok d') :
    d'.queue.length ≤ cap ∧ d'.takes <+: d'.puts := by
  have hfull : (d.queue.length == cap) = false := by
    simpa only [sec, Bool.not_eq_true'] using hready
  have hlt : d.queue.length < cap :=
    Nat.lt_of_le_of_ne hbound (by simpa using hfull)
  have hprefix : d.takes <+: d.puts := ⟨d.queue, horder⟩
  cases n with
  | zero =>
      cases h
      exact ⟨hbound, hprefix⟩
  | succ n =>
      cases n with
      | zero =>
          simp only [sec, statements, List.take_succ_cons, List.take_zero,
            List.foldlM_cons, List.foldlM_nil, assertNotFull, hfull,
            require_bind, ok_bind] at h
          cases h
          exact ⟨hbound, hprefix⟩
      | succ n =>
          simp only [sec, statements, List.take_succ_cons, List.take_nil,
            List.foldlM_cons, List.foldlM_nil, assertNotFull, hfull,
            require_bind, ok_bind] at h
          cases h
          refine ⟨?_, hprefix.trans (List.prefix_append ..)⟩
          rw [pushBack_of_lt hlt, List.length_append]
          exact hlt

/-- Between two statements of a section, too. -/
theorem data_partial {s : MutexLock (QueueData α) QueueCond τ (QueueOp α)}
    (hbound : m.data.queue.length ≤ cap)
    (horder : m.data.takes ++ m.data.queue = m.data.puts)
    (h : MutexLock.Sim (sec cap) s m) :
    s.data.queue.length ≤ cap ∧ s.data.takes <+: s.data.puts := by
  obtain hdata | ⟨o, n, hready, hstatements⟩ := h.data_cases
  · rw [← hdata]
    exact ⟨hbound, m.data.queue, horder⟩
  · cases o with
    | put x => exact put_partial hbound horder hready hstatements
    | take =>
        obtain ⟨hlength, hprefix⟩ :=
          QueueData.take_partial horder hready hstatements
        exact ⟨Nat.le_trans hlength hbound, hprefix⟩

/-- Every run of threads that put and take, one access at a time, is a run
of the queue: no assertion fails, one thread at a time is under the lock,
at every moment the queue is within its capacity and the values taken are
the first ones put. When no thread is in the middle of its statements the
values are those of the queue, and no taker is left parked beside a value,
and no putter beside a free place, with nobody on the way back. -/
theorem threads_bounded [DecidableEq τ] (cap : Nat)
    (acts : List (LockAct QueueCond τ (QueueOp α))) :
    ∃ s bs q, run (MutexLock.step (sec cap)) (.init .empty) acts = .ok s
      ∧ run step (create cap) bs = .ok q
      ∧ s.Exclusive
      ∧ s.data.queue.length ≤ cap
      ∧ s.data.takes <+: s.data.puts
      ∧ (s.Settled → s.data = ⟨q.queue, q.puts, q.takes⟩
        ∧ s.data.takes ++ s.data.queue = s.data.puts
        ∧ (s.data.queue ≠ [] → s.parked .notEmpty ≠ [] →
          s.ComesBack (sec cap) .notEmpty)
        ∧ (s.data.queue.length < cap → s.parked .notFull ≠ [] →
          s.ComesBack (sec cap) .notFull)) := by
  obtain ⟨bs, hanswers⟩ := threads_answered cap acts
  obtain ⟨q, hq, hinv⟩ := run_safe (C := fun _ _ => True) (I := QueueInv cap)
    (fun q a h _ => step_inv h a) (create_inv cap)
    (along_of_forall (fun _ _ => trivial) bs _)
  rw [hq] at hanswers
  obtain ⟨s, hs, m, hsim, hsame⟩ := hanswers.of_ok
  have hbound : m.data.queue.length ≤ cap := hsame.queue ▸ hinv.bound
  have horder : m.data.takes ++ m.data.queue = m.data.puts := by
    rw [← hsame.takes, ← hsame.queue, ← hsame.puts]
    exact hinv.order
  have hpartial := data_partial hbound horder hsim
  refine ⟨s, bs, q, hs, hq, hsim.exclusive, hpartial.1, hpartial.2,
    fun hsettled => ?_⟩
  have hdata : m.data = s.data := hsim.settled hsettled
  rw [← hdata]
  refine ⟨?_, horder, fun hne hparked => ?_, fun hlt hparked => ?_⟩
  · rw [hsame.queue, hsame.puts, hsame.takes]
  · refine hsim.comesBack (hsame.takers_served.2 hinv.takers) ?_ hparked
    rw [hsame.queue]
    exact List.length_pos_of_ne_nil hne
  · refine hsim.comesBack (hsame.putters_served.2 hinv.putters) ?_ hparked
    rw [hsame.queue]
    exact Nat.sub_pos_of_lt hlt

end BoundedBlockingQueue

namespace BlockingQueue

-- ======================================================= without a bound

/-- The values are in the order they came, and served to the takers, who
are the only ones that wait. -/
structure TakersInv (m : Sections (QueueData α) Unit τ (QueueOp α)) : Prop where
  order : m.data.takes ++ m.data.queue = m.data.puts
  takers : ∀ w ∈ (m.conds ()).waiters, w.2 = .take
  served : (m.conds ()).Served m.data.queue.length

variable {m : Sections (QueueData α) Unit τ (QueueOp α)}

theorem init_inv :
    TakersInv (.init .empty : Sections (QueueData α) Unit τ (QueueOp α)) where
  order := rfl
  takers := fun _ hw => absurd hw List.not_mem_nil
  served := fun h => absurd rfl h

/-- The section of `put`: a value more, and a `notify`. -/
theorem put_inv (h : TakersInv m) (t : τ) (x : α) (pick : Nat) :
    Holds (m.exec sec (t, .put x) pick) TakersInv := by
  unfold Sections.exec
  simp only [sec, if_true, statements, List.foldlM_cons, List.foldlM_nil]
  refine holds_ok ⟨?_, ?_, ?_⟩
  · simp only [Sections.signal, Sections.setCond]
    rw [← List.append_assoc, h.order]
  · simp only [Sections.signal]
    rw [MutexLock.conds_setCond_self]
    intro w hw
    exact h.takers w ((CondVar.waiters_notify _ pick).mem_iff.1 hw)
  · simp only [Sections.signal]
    rw [MutexLock.conds_setCond_self]
    simp only [Sections.setCond, List.length_append]
    exact h.served.notify pick

/-- The section of `take`, for whom a value may have been counted. -/
theorem take_inv (t : τ) (pick : Nat)
    (horder : m.data.takes ++ m.data.queue = m.data.puts)
    (htakers : ∀ w ∈ (m.conds ()).waiters, w.2 = .take)
    (hserved : (m.conds ()).Served (m.data.queue.length - 1)) :
    Holds (m.exec sec (t, .take) pick) TakersInv := by
  unfold Sections.exec
  cases hqueue : m.data.queue with
  | nil =>
      simp only [sec, hqueue, List.isEmpty_nil, Bool.not_true, Bool.false_eq_true,
        if_false]
      refine holds_ok ⟨horder, ?_, ?_⟩
      · rw [MutexLock.conds_setCond_self]
        intro w hw
        obtain rfl | hw := List.mem_cons.1
          ((CondVar.waiters_wait _ _).mem_iff.1 hw)
        · rfl
        · exact htakers w hw
      · rw [MutexLock.conds_setCond_self]
        simp only [Sections.setCond, hqueue]
        exact CondVar.Served.wait _
  | cons front rest =>
      rw [hqueue] at horder hserved
      simp only [sec, hqueue, List.isEmpty_cons, Bool.not_false, if_true,
        statements, List.foldlM_cons, List.foldlM_nil,
        QueueData.assertNotEmpty, QueueData.front, QueueData.popFront,
        require_bind, ok_bind]
      refine holds_ok ⟨?_, htakers, hserved⟩
      change (m.data.takes ++ [front]) ++ rest = m.data.puts
      rw [List.append_assoc]
      exact horder

theorem step_takers (h : TakersInv m) (a : SectionsAct Unit τ (QueueOp α)) :
    Holds (Sections.step sec m a) TakersInv := by
  cases a with
  | enter t o pick =>
      cases o with
      | put x => exact put_inv h t x pick
      | take =>
          exact take_inv t pick h.order h.takers (h.served.mono (Nat.sub_le ..))
  | resume c k pick =>
      simp only [Sections.step]
      split
      next w v hresume =>
        have hperm := CondVar.waiters_resume hresume
        obtain ⟨t, o⟩ := w
        have ho : o = .take := h.takers (t, o) (hperm.mem_iff.2 List.mem_cons_self)
        rw [ho]
        refine take_inv t pick h.order ?_ ?_
        · rw [MutexLock.conds_setCond_self]
          exact fun w hw => h.takers w (hperm.mem_iff.2 (List.mem_cons_of_mem _ hw))
        · rw [MutexLock.conds_setCond_self]
          exact h.served.resume hresume
      next => exact holds_ok h
  | wakeup c k =>
      refine holds_ok ⟨h.order, ?_, ?_⟩
      · rw [MutexLock.conds_setCond_self]
        exact fun w hw => h.takers w ((CondVar.waiters_wakeup _ k).mem_iff.1 hw)
      · rw [MutexLock.conds_setCond_self]
        exact h.served.wakeup k

/-- In the middle of `put`. -/
theorem put_partial {x : α} {n : Nat} {d d' : QueueData α}
    (horder : d.takes ++ d.queue = d.puts)
    (h : statements ((sec (.put x)).body.take n) d = .ok d') :
    d'.takes <+: d'.puts := by
  have hprefix : d.takes <+: d.puts := ⟨d.queue, horder⟩
  cases n with
  | zero =>
      cases h
      exact hprefix
  | succ n =>
      simp only [sec, statements, List.take_succ_cons, List.take_nil,
        List.foldlM_cons, List.foldlM_nil, ok_bind] at h
      cases h
      exact hprefix.trans (List.prefix_append ..)

/-- Between two statements of a section, too. -/
theorem data_partial {s : MutexLock (QueueData α) Unit τ (QueueOp α)}
    (horder : m.data.takes ++ m.data.queue = m.data.puts)
    (h : MutexLock.Sim sec s m) : s.data.takes <+: s.data.puts := by
  obtain hdata | ⟨o, n, hready, hstatements⟩ := h.data_cases
  · rw [← hdata]
    exact ⟨m.data.queue, horder⟩
  · cases o with
    | put x => exact put_partial horder hstatements
    | take => exact (QueueData.take_partial horder hready hstatements).2

/-- Every run of threads that put and take, one access at a time: no
assertion fails, one thread at a time is under the lock, and the values
taken are the first ones put. When no thread is in the middle of its
statements, what is not taken is queued, and no taker is left parked beside
a value with nobody on the way back. -/
theorem threads_in_order [DecidableEq τ]
    (acts : List (LockAct Unit τ (QueueOp α))) :
    ∃ s, run (MutexLock.step sec) (.init .empty) acts = .ok s
      ∧ s.Exclusive
      ∧ s.data.takes <+: s.data.puts
      ∧ (s.Settled → s.data.takes ++ s.data.queue = s.data.puts
        ∧ (s.data.queue ≠ [] → s.parked () ≠ [] → s.ComesBack sec ())) := by
  obtain ⟨bs, hanswers⟩ := MutexLock.sections_atomic sec .empty acts
  obtain ⟨m, hm, hinv⟩ := run_safe (C := fun _ _ => True) (I := TakersInv)
    (fun m a h _ => step_takers h a) init_inv
    (along_of_forall (fun _ _ => trivial) bs _)
  rw [hm] at hanswers
  obtain ⟨s, hs, hsim⟩ := hanswers.of_ok
  refine ⟨s, hs, hsim.exclusive, data_partial hinv.order hsim,
    fun hsettled => ?_⟩
  have hdata : m.data = s.data := hsim.settled hsettled
  rw [← hdata]
  refine ⟨hinv.order, fun hne hparked => ?_⟩
  exact hsim.comesBack hinv.served (List.length_pos_of_ne_nil hne) hparked

end BlockingQueue

end Cobra
