/-
`ThreadPool` (base/ThreadPool.cc) after `start`: worker threads in
`runInThread`, other threads in `run`, and `stop`.

# What is a step

As in Cobra.BoundedBlockingQueue a critical section is one step. A call
of `run` is first `arriving`, until it gets the mutex. A worker goes
round `runInThread`: it tests `running_`, it is about to lock in `take`
or waits there, it calls the task. The workers are all alike, so that
only how many of them are where is kept. `run` is called before `stop`,
in a pool with workers; its critical section can come later. A task is not
an empty function, and it ends, without an exception. Cobra.PoolLog has
the other calls of `run`, and the tasks that make them.

Behind its critical section `stop` only waits until all the workers have
finished.
-/
import Cobra.Lib.CondVar
import Cobra.Lib.Machine

namespace Cobra

open Machine Monitor

/-- The assertion behind the waiting loop of `run`. -/
inductive PoolAssert
  | runFull
  deriving Repr, DecidableEq

structure ThreadPool (τ : Type) where
  /-- the size of `threads_` -/
  threads : Nat
  maxQueueSize : Nat
  running : Bool
  queue : List τ
  notEmpty : CondVar Unit
  notFull : CondVar τ
  /-- calls of `run` on their way to the mutex -/
  arriving : List τ
  /-- workers about to test `running_` -/
  testing : Nat
  /-- workers about to lock in `take` -/
  taking : Nat
  /-- the tasks that workers are calling -/
  working : List τ
  /-- workers that have left their loop -/
  finished : Nat
  deriving Repr, DecidableEq

inductive PoolAct (τ : Type)
  /-- `run` is called -/
  | run (task : τ)
  /-- a call of `run` gets the mutex -/
  | enter (k pick : Nat)
  /-- a call of `run` that is awake gets the mutex back -/
  | resumeRun (k pick : Nat)
  | wakeupRun (k : Nat)
  /-- a worker tests `running_` -/
  | test
  /-- a worker gets the mutex in `take` -/
  | take (pick : Nat)
  /-- a worker that is awake gets the mutex back -/
  | resumeTake (k pick : Nat)
  | wakeupTake (k : Nat)
  /-- a task returns -/
  | finishTask (k : Nat)
  /-- the critical section of `stop` -/
  | stop
  deriving Repr, DecidableEq

namespace ThreadPool

variable {τ : Type}

/-- After `setMaxQueueSize` and `start`. -/
def start (numThreads maxSize : Nat) : ThreadPool τ where
  threads := numThreads
  maxQueueSize := maxSize
  running := true
  queue := []
  notEmpty := .empty
  notFull := .empty
  arriving := []
  testing := numThreads
  taking := 0
  working := []
  finished := 0

def isFull (s : ThreadPool τ) : Bool :=
  decide (0 < s.maxQueueSize) && decide (s.maxQueueSize ≤ s.queue.length)

/-- `run`, from getting the mutex on. -/
def runSection (s : ThreadPool τ) (task : τ) (pick : Nat) :
    Except PoolAssert (ThreadPool τ) :=
  if s.isFull then .ok { s with notFull := s.notFull.wait task }
  else do
    require (¬ s.isFull) .runFull
    .ok { s with
      queue := s.queue ++ [task]
      notEmpty := s.notEmpty.notify pick }

/-- `take`, from getting the mutex on, and what its caller does with the
task. -/
def takeSection (s : ThreadPool τ) (pick : Nat) : ThreadPool τ :=
  if s.queue.isEmpty && s.running then
    { s with notEmpty := s.notEmpty.wait () }
  else
    match s.queue with
    | task :: rest =>
        { s with
          queue := rest
          notFull :=
            if 0 < s.maxQueueSize then s.notFull.notify pick else s.notFull
          working := s.working ++ [task] }
    -- no task: back to the test
    | [] => { s with testing := s.testing + 1 }

/-- `stop`, up to the joins. -/
def stop (s : ThreadPool τ) : ThreadPool τ :=
  { s with running := false, notEmpty := s.notEmpty.notifyAll }

def step (s : ThreadPool τ) :
    PoolAct τ → Except PoolAssert (ThreadPool τ)
  | .run task =>
      -- without workers `run` calls the task itself
      if s.running && decide (0 < s.threads) then
        .ok { s with arriving := s.arriving ++ [task] }
      else .ok s
  | .enter k pick =>
      match s.arriving[k]? with
      | some task =>
          { s with arriving := s.arriving.eraseIdx k }.runSection task pick
      | none => .ok s
  | .resumeRun k pick =>
      match s.notFull.resume k with
      | some (task, c) => { s with notFull := c }.runSection task pick
      | none => .ok s
  | .wakeupRun k => .ok { s with notFull := s.notFull.wakeup k }
  | .test =>
      if 0 < s.testing then
        if s.running then
          .ok { s with testing := s.testing - 1, taking := s.taking + 1 }
        else
          .ok { s with testing := s.testing - 1, finished := s.finished + 1 }
      else .ok s
  | .take pick =>
      if 0 < s.taking then
        .ok ({ s with taking := s.taking - 1 }.takeSection pick)
      else .ok s
  | .resumeTake k pick =>
      match s.notEmpty.resume k with
      | some (_, c) => .ok ({ s with notEmpty := c }.takeSection pick)
      | none => .ok s
  | .wakeupTake k => .ok { s with notEmpty := s.notEmpty.wakeup k }
  | .finishTask k =>
      if k < s.working.length then
        .ok { s with
          working := s.working.eraseIdx k
          testing := s.testing + 1 }
      else .ok s
  | .stop => .ok s.stop

/-- All the workers have finished, and someone is still parked in `run`. -/
def Stranded (s : ThreadPool τ) : Prop :=
  s.finished = s.threads ∧ s.notFull.parked ≠ []

-- ========================================================== the room

/-- The calls of `run` that have not returned. -/
def callsInRun (s : ThreadPool τ) : Nat :=
  s.arriving.length + s.notFull.waiting

/-- The workers past their test of `running_` that have not taken yet. -/
def inTake (s : ThreadPool τ) : Nat := s.taking + s.notEmpty.waiting

def freeSlots (s : ThreadPool τ) : Nat := s.maxQueueSize - s.queue.length

/-- There is a place for every call of `run` in progress: a free one, or
one that a worker in `take` makes by taking a task that is there. -/
def Room (s : ThreadPool τ) : Prop :=
  s.maxQueueSize = 0
    ∨ s.callsInRun ≤ s.freeSlots + min s.inTake s.queue.length

instance (s : ThreadPool τ) : Decidable s.Room :=
  inferInstanceAs (Decidable (_ ∨ _))

end ThreadPool

end Cobra
