/-
`BoundedBlockingQueue` loses nothing, and strands no thread.

The invariant (`QueueInv`) has the values in the order they came, the
bound, and for each of the two condition variables that it is served: by
the values for the takers, by the free places for the putters. A value
more is a free place less and the other way round, so that a critical
section moves both counts; the one it adds to is the one it notifies.

A thread that comes back from its wait is taken out of the waiters first
and then does what a new call does. In between the count it came for may
be one too large, and stays so when a barging thread was faster: then
there is nothing left, and it parks again.
-/
import Cobra.BoundedBlockingQueue

namespace Cobra.BoundedBlockingQueue

open Machine Monitor

variable {α : Type} {q q' : BoundedBlockingQueue α}

structure QueueInv (cap : Nat) (q : BoundedBlockingQueue α) : Prop where
  capacity : q.capacity = cap
  bound : q.queue.length ≤ cap
  order : q.takes ++ q.queue = q.puts
  takers : q.notEmpty.Served q.queue.length
  putters : q.notFull.Served (cap - q.queue.length)

variable {cap : Nat}

theorem create_inv (cap : Nat) : QueueInv cap (create cap : BoundedBlockingQueue α)
    where
  capacity := rfl
  bound := Nat.zero_le _
  order := rfl
  takers := fun h => absurd rfl h
  putters := fun h => absurd rfl h

theorem pushBack_of_lt {queue : List α} {x : α} (h : queue.length < cap) :
    pushBack cap queue x = queue ++ [x] :=
  if_neg (by omega)

-- ==================================================== the two sections

/-- The section of `put`. Of the putters it is enough to know that they
are served without the place this one came for. -/
theorem putSection_inv (x : α) (pick : Nat) (hcap : q.capacity = cap)
    (hbound : q.queue.length ≤ cap) (horder : q.takes ++ q.queue = q.puts)
    (htakers : q.notEmpty.Served q.queue.length)
    (hputters : q.notFull.Served (cap - q.queue.length - 1)) :
    Holds (q.putSection x pick) (QueueInv cap) := by
  unfold putSection full
  by_cases hfull : q.queue.length = q.capacity
  · rw [if_pos (beq_iff_eq.mpr hfull)]
    have hnone : cap - q.queue.length = 0 := by omega
    refine holds_ok ⟨hcap, hbound, horder, htakers, ?_⟩
    simp only [hnone]
    exact CondVar.Served.wait x
  · have hnot : ¬ (q.queue.length == q.capacity) = true :=
      mt beq_iff_eq.mp hfull
    rw [if_neg hnot]
    refine holds_require hnot (holds_ok ?_)
    rw [pushBack_of_lt (by omega)]
    refine ⟨hcap, ?_, ?_, ?_, ?_⟩
    · simp only [List.length_append, List.length_singleton]
      omega
    · rw [← List.append_assoc, horder]
    · rw [List.length_append]
      exact htakers.notify pick
    · apply hputters.mono
      rw [List.length_append, List.length_singleton]
      omega

/-- The section of `take`, likewise. -/
theorem takeSection_inv (pick : Nat) (hcap : q.capacity = cap)
    (hbound : q.queue.length ≤ cap) (horder : q.takes ++ q.queue = q.puts)
    (htakers : q.notEmpty.Served (q.queue.length - 1))
    (hputters : q.notFull.Served (cap - q.queue.length)) :
    Holds (q.takeSection pick) (QueueInv cap) := by
  unfold takeSection
  cases hq : q.queue with
  | nil =>
      rw [hq] at horder hputters
      rw [if_pos List.isEmpty_nil]
      exact holds_ok ⟨hcap, Nat.zero_le _, horder, CondVar.Served.wait (),
        hputters⟩
  | cons front rest =>
      rw [hq] at hbound horder htakers hputters
      rw [List.length_cons] at hbound hputters
      rw [if_neg (by rw [List.isEmpty_cons]; exact Bool.false_ne_true)]
      refine holds_ok ⟨hcap, ?_, ?_, htakers, ?_⟩
      · exact Nat.le_of_succ_le hbound
      · rw [List.append_assoc]
        exact horder
      · have hplace : cap - rest.length = cap - (rest.length + 1) + 1 := by omega
        simp only [hplace]
        exact hputters.notify pick

-- ============================================================ the runs

theorem step_inv (h : QueueInv cap q) (a : QueueAct α) :
    Holds (q.step a) (QueueInv cap) := by
  unfold step
  cases a with
  | put x pick =>
      exact putSection_inv x pick h.capacity h.bound h.order h.takers
        (h.putters.mono (Nat.sub_le ..))
  | take pick =>
      exact takeSection_inv pick h.capacity h.bound h.order
        (h.takers.mono (Nat.sub_le ..)) h.putters
  | resumePut k pick =>
      simp only
      split
      next x c hc =>
        exact putSection_inv x pick h.capacity h.bound h.order h.takers
          (h.putters.resume hc)
      next => exact holds_ok h
  | resumeTake k pick =>
      simp only
      split
      next x c hc =>
        exact takeSection_inv pick h.capacity h.bound h.order
          (h.takers.resume hc) h.putters
      next => exact holds_ok h
  | wakeupPut k =>
      exact holds_ok ⟨h.capacity, h.bound, h.order, h.takers,
        h.putters.wakeup k⟩
  | wakeupTake k =>
      exact holds_ok ⟨h.capacity, h.bound, h.order, h.takers.wakeup k,
        h.putters⟩

/-- In every interleaving the queue keeps within its capacity, the values
taken are the first ones put, in order, and no thread is left parked on a
condition that holds without a notified one on its way. -/
theorem monitor_safe (cap : Nat) (acts : List (QueueAct α)) :
    ∃ q, run step (create cap) acts = .ok q
      ∧ q.queue.length ≤ cap
      ∧ q.takes <+: q.puts
      ∧ ¬ (q.queue ≠ [] ∧ q.notEmpty.parked ≠ [] ∧ q.notEmpty.notified = [])
      ∧ ¬ (q.queue.length < cap ∧ q.notFull.parked ≠ []
          ∧ q.notFull.notified = []) := by
  obtain ⟨q, hrun, h⟩ := run_safe (C := fun _ _ => True)
    (I := QueueInv cap) (fun q a h _ => step_inv h a) (create_inv cap)
    (along_of_forall (fun _ _ => trivial) acts _)
  refine ⟨q, hrun, h.bound, ⟨q.queue, h.order⟩, ?_, ?_⟩
  · rintro ⟨hne, hparked, hnone⟩
    exact h.takers.notified_ne_nil (List.length_pos_of_ne_nil hne) hparked hnone
  · rintro ⟨hlt, hparked, hnone⟩
    exact h.putters.notified_ne_nil (by omega) hparked hnone

end Cobra.BoundedBlockingQueue
