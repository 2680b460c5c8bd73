/-
`BlockingQueue` (base/BlockingQueue.h), and `BoundedBlockingQueue` once
more, as classes that use a `MutexLock`: each member function is the
`Section` of its statements, in the order of the source.

Cobra.BoundedBlockingQueue takes a critical section in one step. Here the
threads go through it one access at a time, and the queue is the value
that the mutex guards.

`puts` and `takes` are history: the values pushed, and the copies of the
front.
-/
import Cobra.BoundedBlockingQueue
import Cobra.Mutex

namespace Cobra

open Machine Monitor

inductive QueueOp (α : Type)
  | put (x : α)
  | take
  deriving Repr, DecidableEq

structure QueueData (α : Type) where
  queue : List α
  puts : List α
  takes : List α
  deriving Repr, DecidableEq

namespace QueueData

variable {α : Type}

def empty : QueueData α := ⟨[], [], []⟩

/-- `T front(queue_.front())`. -/
def front (q : QueueData α) : QueueData α :=
  { q with takes := q.takes ++ q.queue.head?.toList }

/-- `queue_.pop_front()`. -/
def popFront (q : QueueData α) : QueueData α :=
  { q with queue := q.queue.tail }

/-- `assert(!queue_.empty())`. -/
def assertNotEmpty (q : QueueData α) : Except QueueAssert (QueueData α) := do
  require (q.queue.isEmpty = false) .takeEmpty
  .ok q

end QueueData

namespace BlockingQueue

variable {α : Type}

/-- The member functions of `BlockingQueue`, whose only condition is
`notEmpty_`. -/
def sec : QueueOp α → Section (QueueData α) Unit QueueAssert
  | .put x => {
      cond := ()
      -- `put` does not wait
      ready := fun _ => true
      body := [fun q => .ok
        { q with queue := q.queue ++ [x], puts := q.puts ++ [x] }]
      signal := fun _ => .notify () }
  | .take => {
      cond := ()
      ready := fun q => !q.queue.isEmpty
      body := [QueueData.assertNotEmpty, fun q => .ok q.front,
        fun q => .ok q.popFront]
      signal := fun _ => .none }

end BlockingQueue

/-- The conditions of `BoundedBlockingQueue`. -/
inductive QueueCond
  | notEmpty
  | notFull
  deriving Repr, DecidableEq

namespace BoundedBlockingQueue

variable {α : Type}

/-- `assert(!queue_.full())`. -/
def assertNotFull (maxSize : Nat) (q : QueueData α) :
    Except QueueAssert (QueueData α) := do
  require ((q.queue.length == maxSize) = false) .putFull
  .ok q

/-- The member functions of `BoundedBlockingQueue`. -/
def sec (maxSize : Nat) : QueueOp α → Section (QueueData α) QueueCond QueueAssert
  | .put x => {
      cond := .notFull
      ready := fun q => !(q.queue.length == maxSize)
      body := [assertNotFull maxSize, fun q => .ok
        { q with
          queue := pushBack maxSize q.queue x
          puts := q.puts ++ [x] }]
      signal := fun _ => .notify .notEmpty }
  | .take => {
      cond := .notEmpty
      ready := fun q => !q.queue.isEmpty
      body := [QueueData.assertNotEmpty, fun q => .ok q.front,
        fun q => .ok q.popFront]
      signal := fun _ => .notify .notFull }

end BoundedBlockingQueue

end Cobra
