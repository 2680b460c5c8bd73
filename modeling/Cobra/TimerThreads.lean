/-
Timers shared between threads: `TimerQueue::addTimer` and
`TimerQueue::cancel` called from any thread, through
`Worker::runInLoop`.

`addTimer` creates the timer at once, on the caller's thread, and hands
`addTimerInLoop` to the loop; `cancel` hands over `cancelInLoop`. Handing
over means running it at once on the loop thread and queueing it from
any other. The two halves of `addTimer` are two actions, so that other
threads' calls can fall between them.

The loop alternates between events and functors: no functor runs while a
`handleRead` is in progress, and `handleRead` starts only when the batch
of functors is done. The loop thread's own calls may come at any time.
-/
import Cobra.TimerQueue
import Cobra.Worker

namespace Cobra

open Machine

/-- The functors `addTimer` and `cancel` hand to the loop. -/
inductive TimerFunctor
  | addTimerInLoop (p : Nat)
  | cancelInLoop (id : TimerId)
  deriving Repr, DecidableEq

/-- What calling the functor does on the loop thread. -/
def TimerFunctor.act : TimerFunctor → TimerAct
  | .addTimerInLoop p => .addTimerInLoop p
  | .cancelInLoop id => .cancelInLoop id

/-- The timers of one worker, and the threads that use them. -/
structure TimerThreads where
  threadId : Nat
  queue : FunctorQueue TimerFunctor
  loop : TimerLoop
  /-- created by an `addTimer` that has not handed it over yet -/
  created : List Nat

inductive TimerCall
  | tick (t : Timestamp)
  /-- the wall clock is set, to any time -/
  | set (t : Timestamp)
  /-- `addTimer` up to `new Timer(cb, when, interval)` -/
  | newTimer (p : Nat) (when_ : Timestamp) (repeat_ : Bool) (delta : Int64)
  /-- the rest of `addTimer`, on thread `t` -/
  | addTimer (t : Nat) (p : Nat)
  /-- `cancel`, on thread `t` -/
  | cancel (t : Nat) (id : TimerId)
  /-- `doPendingFunctors` swaps -/
  | swap
  /-- `doPendingFunctors` calls the next functor -/
  | call
  | beginRead
  | runNext
  | endRead
  deriving Repr, DecidableEq

namespace TimerThreads

def create (threadId : Nat) (clock : Timestamp) : TimerThreads :=
  ⟨threadId, .empty, .create clock, []⟩

/-- The loop thread takes an action of the queue. -/
def inLoop (s : TimerThreads) (a : TimerAct) :
    Except TimerAssert TimerThreads := do
  let L ← s.loop.step a
  .ok { s with loop := L }

/-- `Worker::runInLoop`, called on thread `t`. -/
def runInLoop (s : TimerThreads) (t : Nat) (f : TimerFunctor) :
    Except TimerAssert TimerThreads :=
  if s.threadId == t then s.inLoop f.act
  else .ok { s with queue := s.queue.push f }

def step (s : TimerThreads) : TimerCall → Except TimerAssert TimerThreads
  | .tick t => s.inLoop (.tick t)
  | .set t => .ok { s with loop := { s.loop with clock := t } }
  | .newTimer p when_ repeat_ delta =>
      if s.loop.queue.canAllocate p then
        { s with created := p :: s.created }.inLoop
          (.newTimer p when_ repeat_ delta)
      else .ok s
  | .addTimer t p =>
      if p ∈ s.created then
        { s with created := s.created.erase p }.runInLoop t (.addTimerInLoop p)
      else .ok s
  | .cancel t id => s.runInLoop t (.cancelInLoop id)
  | .swap =>
      if s.queue.functors.isEmpty && s.loop.frame.isNone then
        .ok { s with queue := s.queue.swap }
      else .ok s
  | .call =>
      match s.queue.functors, s.loop.frame with
      | f :: rest, none =>
          { s with queue := { s.queue with functors := rest } }.inLoop f.act
      | _, _ => .ok s
  | .beginRead =>
      if s.queue.functors.isEmpty then s.inLoop .beginRead else .ok s
  | .runNext => s.inLoop .runNext
  | .endRead => s.inLoop .endRead

end TimerThreads

end Cobra
