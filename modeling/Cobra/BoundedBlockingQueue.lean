/-
`BoundedBlockingQueue` (base/BoundedBlockingQueue.h): a monitor around a
`boost::circular_buffer`.

# What is a step

A critical section runs from the lock to the unlock, or to the `wait()`
that gives the mutex up; it is one step. A call of `put` or `take` enters
it once, and once more for each time that it comes back from its wait.
Which parked thread a `notify` picks is up to the scheduler, and so are
spurious wakeups. A thread is in one call at a time, so that the waiters
of `notFull_` and `notEmpty_` are the blocked threads: a putter with its
argument, a taker with nothing.

`puts` and `takes` record the values in the order of the critical
sections that pushed and popped them.
-/
import Cobra.Lib.CondVar
import Cobra.Lib.Machine

namespace Cobra

open Machine Monitor

/-- The assertions behind the two waiting loops. -/
inductive QueueAssert
  | putFull
  | takeEmpty
  deriving Repr, DecidableEq

structure BoundedBlockingQueue (α : Type) where
  capacity : Nat
  queue : List α
  notEmpty : CondVar Unit
  notFull : CondVar α
  puts : List α
  takes : List α
  deriving Repr, DecidableEq

inductive QueueAct (α : Type)
  /-- `put` gets the mutex -/
  | put (x : α) (pick : Nat)
  /-- `take` gets the mutex -/
  | take (pick : Nat)
  /-- a `put` that is awake gets the mutex back -/
  | resumePut (k pick : Nat)
  /-- a `take` that is awake gets the mutex back -/
  | resumeTake (k pick : Nat)
  | wakeupPut (k : Nat)
  | wakeupTake (k : Nat)
  deriving Repr, DecidableEq

namespace BoundedBlockingQueue

variable {α : Type}

def create (maxSize : Nat) : BoundedBlockingQueue α :=
  ⟨maxSize, [], .empty, .empty, [], []⟩

def full (q : BoundedBlockingQueue α) : Bool := q.queue.length == q.capacity

/-- `circular_buffer::push_back`: a full buffer loses its front. -/
def pushBack (capacity : Nat) (queue : List α) (x : α) : List α :=
  if queue.length = capacity then (queue ++ [x]).tail else queue ++ [x]

/-- `put`, from getting the mutex on. -/
def putSection (q : BoundedBlockingQueue α) (x : α) (pick : Nat) :
    Except QueueAssert (BoundedBlockingQueue α) :=
  if q.full then .ok { q with notFull := q.notFull.wait x }
  else do
    require (¬ q.full) .putFull
    .ok { q with
      queue := pushBack q.capacity q.queue x
      notEmpty := q.notEmpty.notify pick
      puts := q.puts ++ [x] }

/-- `take`, from getting the mutex on. -/
def takeSection (q : BoundedBlockingQueue α) (pick : Nat) :
    Except QueueAssert (BoundedBlockingQueue α) :=
  if q.queue.isEmpty then .ok { q with notEmpty := q.notEmpty.wait () }
  else
    match q.queue with
    | [] => .error .takeEmpty
    | front :: rest =>
        .ok { q with
          queue := rest
          notFull := q.notFull.notify pick
          takes := q.takes ++ [front] }

def step (q : BoundedBlockingQueue α) :
    QueueAct α → Except QueueAssert (BoundedBlockingQueue α)
  | .put x pick => q.putSection x pick
  | .take pick => q.takeSection pick
  | .resumePut k pick =>
      match q.notFull.resume k with
      | some (x, c) => { q with notFull := c }.putSection x pick
      | none => .ok q
  | .resumeTake k pick =>
      match q.notEmpty.resume k with
      | some (_, c) => { q with notEmpty := c }.takeSection pick
      | none => .ok q
  | .wakeupPut k => .ok { q with notFull := q.notFull.wakeup k }
  | .wakeupTake k => .ok { q with notEmpty := q.notEmpty.wakeup k }

end BoundedBlockingQueue

end Cobra
