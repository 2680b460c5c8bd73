/-
`ThreadPool` with the calls of `run` told apart, and with their history:
which calls were made, which of their tasks got into `queue_`, which were
taken and which have returned, each in the order in which it happened.

# The calls

A call of `run` has a number, and it knows its caller: a thread that is
none of the pool's, or the task of another call, by its number. A task
makes one call at a time, and returns only when it is in none; it does
not call `stop`. With no workers `run` calls the task itself, so that the
caller is in its call until the task has returned.

`run` does not look at `running_`. It can be called before `stop` and
behind it, and so the calls are made here and not by `ThreadPool.step`,
which is about those made before.

# The history

It is read off the states before and behind a step.
-/
import Cobra.ThreadPool

namespace Cobra

open Machine Monitor

/-- A call of `run`. -/
structure PoolCall (τ : Type) where
  number : Nat
  /-- the call whose task makes this one -/
  caller : Option Nat
  task : τ
  deriving Repr, DecidableEq

structure PoolLog (τ : Type) where
  pool : ThreadPool (PoolCall τ)
  /-- the tasks that are called by the callers of `run` -/
  inline : List (PoolCall τ)
  called : List (PoolCall τ)
  put : List (PoolCall τ)
  taken : List (PoolCall τ)
  /-- called by their callers, so far -/
  direct : List (PoolCall τ)
  returned : List (PoolCall τ)
  deriving Repr, DecidableEq

inductive PoolLogAct (τ : Type)
  /-- `run` is called -/
  | run (caller : Option Nat) (task : τ)
  /-- a task that its caller has called returns -/
  | finishInline (k : Nat)
  /-- a step of the workers, of a call that is there, or of `stop` -/
  | pool (a : PoolAct (PoolCall τ))
  deriving Repr, DecidableEq

namespace PoolLog

variable {τ : Type}

def start (numThreads maxSize : Nat) : PoolLog τ where
  pool := .start numThreads maxSize
  inline := []
  called := []
  put := []
  taken := []
  direct := []
  returned := []

-- ============================================================ the calls

/-- The calls that have not put their tasks yet. -/
def callers (p : ThreadPool (PoolCall τ)) : List (PoolCall τ) :=
  p.arriving ++ p.notFull.waiters

/-- The calls that have not returned. -/
def pending (s : PoolLog τ) : List (PoolCall τ) := callers s.pool ++ s.inline

/-- The tasks that are being called. -/
def active (s : PoolLog τ) : List (PoolCall τ) := s.pool.working ++ s.inline

/-- The task is in a call of `run`. -/
def InRun (s : PoolLog τ) (w : PoolCall τ) : Prop :=
  ∃ c ∈ pending s, c.caller = some w.number

instance (s : PoolLog τ) (w : PoolCall τ) : Decidable (InRun s w) :=
  inferInstanceAs (Decidable (∃ c ∈ _, _))

/-- Who can call `run`: a thread that is none of the pool's, and a task
that is being called and is in no other call. -/
def MayCall (s : PoolLog τ) : Option Nat → Prop
  | none => True
  | some j => ∃ w ∈ active s, w.number = j ∧ ¬ InRun s w

instance (s : PoolLog τ) : (caller : Option Nat) → Decidable (MayCall s caller)
  | none => inferInstanceAs (Decidable True)
  | some _ => inferInstanceAs (Decidable (∃ w ∈ _, _))

/-- `run`, up to the mutex, or to the call of the task. -/
def call (s : PoolLog τ) (caller : Option Nat) (task : τ) : PoolLog τ :=
  let c : PoolCall τ := ⟨s.called.length, caller, task⟩
  if s.pool.threads = 0 then
    { s with
      called := s.called ++ [c]
      inline := s.inline ++ [c]
      direct := s.direct ++ [c] }
  else
    { s with
      called := s.called ++ [c]
      pool := { s.pool with arriving := s.pool.arriving ++ [c] } }

-- ============================================================ the steps

/-- A task does not return while it is in a call. -/
def Enabled (s : PoolLog τ) : PoolAct (PoolCall τ) → Prop
  | .run _ => False
  | .finishTask k => ∀ w ∈ s.pool.working[k]?, ¬ InRun s w
  | _ => True

instance (s : PoolLog τ) :
    (a : PoolAct (PoolCall τ)) → Decidable (Enabled s a)
  | .run _ => inferInstanceAs (Decidable False)
  | .finishTask k => inferInstanceAs (Decidable (∀ w ∈ s.pool.working[k]?, _))
  | .enter _ _ | .resumeRun _ _ | .wakeupRun _ | .test | .take _
  | .resumeTake _ _ | .wakeupTake _ | .stop => inferInstanceAs (Decidable True)

/-- The task that returns in the step. -/
def returnedBy (p : ThreadPool (PoolCall τ)) :
    PoolAct (PoolCall τ) → List (PoolCall τ)
  | .finishTask k => p.working[k]?.toList
  | _ => []

/-- The step `a` leads to `pool`: what it says to the history. -/
def logged (s : PoolLog τ) (a : PoolAct (PoolCall τ))
    (pool : ThreadPool (PoolCall τ)) : PoolLog τ :=
  { s with
    pool := pool
    put := s.put ++ pool.queue.drop s.pool.queue.length
    taken := s.taken
      ++ s.pool.queue.take (s.pool.queue.length - pool.queue.length)
    returned := s.returned ++ returnedBy s.pool a }

/-- The `k`-th task that is called by its caller returns. -/
def finishInline (s : PoolLog τ) (k : Nat) (w : PoolCall τ) : PoolLog τ :=
  { s with
    inline := s.inline.eraseIdx k
    returned := s.returned ++ [w] }

def step (s : PoolLog τ) : PoolLogAct τ → Except PoolAssert (PoolLog τ)
  | .run caller task =>
      if MayCall s caller then .ok (s.call caller task) else .ok s
  | .finishInline k =>
      match s.inline[k]? with
      | some w =>
          if InRun s w then .ok s else .ok (s.finishInline k w)
      | none => .ok s
  | .pool a =>
      if Enabled s a then do
        let pool ← s.pool.step a
        .ok (s.logged a pool)
      else .ok s

-- =========================================================== the rest

/-- A step of a worker, of a call that is there already, or of a task:
nobody calls `run` or `stop`, and nobody wakes up for no reason. -/
def Inside : PoolLogAct τ → Prop
  | .run _ _ => False
  | .finishInline _ => True
  | .pool a => match a with
      | .run _ | .stop | .wakeupRun _ | .wakeupTake _ => False
      | .enter _ _ | .resumeRun _ _ | .test | .take _ | .resumeTake _ _
      | .finishTask _ => True

/-- Those inside can go on until every task that was given has
returned. -/
def Drains (s : PoolLog τ) : Prop :=
  ∃ more t, (∀ a ∈ more, Inside a) ∧ run step s more = .ok t
    ∧ t.called = s.called ∧ t.called.Perm t.returned

/-- Every worker calls a task that is in a call of `run`, and none of
these calls can get its task into `queue_`: it is full, or they are all
parked. -/
def Stuck (s : PoolLog τ) : Prop :=
  0 < s.pool.threads ∧ s.pool.working.length = s.pool.threads
    ∧ ((s.pool.isFull ∧ ∀ w ∈ s.pool.working, InRun s w)
      ∨ ∀ w ∈ s.pool.working,
          ∃ c ∈ s.pool.notFull.parked, c.caller = some w.number)

instance (s : PoolLog τ) : Decidable (Stuck s) :=
  inferInstanceAs (Decidable (_ ∧ _ ∧ (_ ∨ _)))

end PoolLog

end Cobra
