/-
The worker's loop (cobra/worker.cpp): the functor queue, the wakeup
descriptor and the phases of `Worker::Loop`, interleaved with any number
of threads.

# What is a step

Everything one thread does between two points at which another thread
can see a difference is one action:

- `queueInLoop` is two actions, the critical section (`queueInLoop`) and
  the `wakeup()` decision after it (`wakeup`); `Quit` likewise;
- `Loop` is one action per phase: the loop test, the return of `poll`,
  one event handler, the end of event handling (which raises
  `callingPendingFunctors_`), the swap under `mutex_`, the call and the
  return of each functor, and the end of `doPendingFunctors`.

User code runs on the loop thread in three places: outside `Loop`, in an
event handler and in a functor (`userCode`). There the loop thread
may call `queueInLoop`, `runInLoop`, `Quit` and `Loop` itself; the last
one fails the assertion of `Worker::Loop` when it is nested.

A fourth place is left out. What `doPendingFunctors` has called is
destroyed when it returns, behind `callingPendingFunctors_ = false`, and
with it the arguments bound to the functors. Their destructors are taken
not to call `queueInLoop`; from there it would see no functor running and
would not wake the loop up.

An action its thread cannot take leaves the worker as it is.

# History

`pushes`, `runs` and `swaps` are history, read by no step: every push in
the order its critical section was entered, every functor called, and
what each `doPendingFunctors` swapped out. A push is stamped with the
number of swaps made before it, a call with the number of the
`doPendingFunctors` it is made in.
-/
import Cobra.Lib.Machine
import Mathlib.Algebra.Group.Nat.Defs
import Mathlib.Logic.Function.Basic

namespace Cobra

open Machine

-- ==================================================== the functor queue

/-- `pendingFunctors_`, and what is left of the local `functors` that
`doPendingFunctors` swapped out. -/
structure FunctorQueue (F : Type) where
  pendingFunctors : List F
  functors : List F
  deriving Repr, DecidableEq

namespace FunctorQueue

variable {F : Type}

def empty : FunctorQueue F := ⟨[], []⟩

/-- `pendingFunctors_.push_back(cb)`. -/
def push (q : FunctorQueue F) (f : F) : FunctorQueue F :=
  { q with pendingFunctors := q.pendingFunctors ++ [f] }

/-- `functors.swap(pendingFunctors_)`, with `functors` empty before. -/
def swap (q : FunctorQueue F) : FunctorQueue F :=
  ⟨[], q.pendingFunctors⟩

/-- Every functor submitted and not called yet, in the order it will be
called. -/
def waiting (q : FunctorQueue F) : List F :=
  q.functors ++ q.pendingFunctors

@[simp] theorem waiting_empty : (empty : FunctorQueue F).waiting = [] := rfl

@[simp] theorem waiting_push (q : FunctorQueue F) (f : F) :
    (q.push f).waiting = q.waiting ++ [f] := by
  simp [waiting, push]

/-- The swap calls nothing and forgets nothing. -/
theorem waiting_swap {q : FunctorQueue F} (h : q.functors = []) :
    q.swap.waiting = q.waiting := by
  simp [waiting, swap, h]

end FunctorQueue

-- ============================================================ the state

/-- Where the loop thread stands. -/
inductive LoopPc
  /-- not inside `Loop()` -/
  | outside
  /-- about to evaluate `while (!quit_)` -/
  | test
  /-- blocked in `poller_->poll` -/
  | polling
  /-- going through `activeChannels_` -/
  | handling
  /-- in `doPendingFunctors`, before the swap -/
  | swapping
  /-- in `doPendingFunctors`, between two functors -/
  | draining
  /-- inside a functor of the batch -/
  | calling
  deriving Repr, DecidableEq

/-- Where a thread stands with respect to this worker. -/
inductive ThreadPc
  | idle
  /-- has pushed a functor, still to decide about `wakeup()` -/
  | pushed
  /-- has set `quit_`, still to decide about `wakeup()` -/
  | quitting
  deriving Repr, DecidableEq

/-- The worker, the threads around it and the history. -/
structure Worker (F : Type) where
  threadId : Nat
  looping : Bool
  quit : Bool
  callingPendingFunctors : Bool
  queue : FunctorQueue F
  /-- the counter of the eventfd `wakeupFd_` -/
  wakeupFd : Nat
  pc : LoopPc
  threads : Nat → ThreadPc
  pushes : List (F × Nat)
  runs : List (F × Nat)
  swaps : List (List F)

/-- What a thread, or the loop, can do. -/
inductive WorkerAct (F : Type)
  | queueInLoop (t : Nat) (f : F)
  | runInLoop (t : Nat) (f : F)
  | wakeup (t : Nat)
  | Quit (t : Nat)
  | Loop
  | test
  | pollReturn
  | handleRead
  | endHandling
  | swap
  | call
  | ret
  | endPending
  deriving Repr, DecidableEq

/-- `assert(!looping_)` of `Worker::Loop`. -/
inductive WorkerAssert
  | notLooping
  deriving Repr, DecidableEq

namespace Worker

variable {F : Type}

/-- The constructor, on thread `threadId`. -/
def create (threadId : Nat) : Worker F where
  threadId := threadId
  looping := false
  quit := false
  callingPendingFunctors := false
  queue := .empty
  wakeupFd := 0
  pc := .outside
  threads := fun _ => .idle
  pushes := []
  runs := []
  swaps := []

-- ======================================================= the operations

def isInLoopThread (w : Worker F) (t : Nat) : Bool := w.threadId == t

/-- The loop thread is in code the user wrote. -/
def userCode (w : Worker F) : Bool :=
  w.pc == .outside || w.pc == .handling || w.pc == .calling

/-- Thread `t` can make a call: it is not inside one, and the loop
thread only calls from user code. -/
def canCall (w : Worker F) (t : Nat) : Bool :=
  w.threads t == .idle && (!w.isInLoopThread t || w.userCode)

/-- The loop thread can go on: it is not inside a call of its own. -/
def canLoop (w : Worker F) (pc : LoopPc) : Bool :=
  w.pc == pc && w.threads w.threadId == .idle

/-- `write(wakeupFd_, &one, sizeof one)`: an eventfd counter stops one
below `2^64 - 1`, where the non-blocking write fails instead. -/
def writeWakeupFd (n : Nat) : Nat := if n + 1 < 2 ^ 64 - 1 then n + 1 else n

/-- The critical section of `Worker::queueInLoop`. -/
def pushFunctor (w : Worker F) (t : Nat) (f : F) : Worker F :=
  { w with
    queue := w.queue.push f
    threads := Function.update w.threads t .pushed
    pushes := w.pushes ++ [(f, w.swaps.length)] }

/-- The rest of `Worker::queueInLoop` and of `Worker::Quit`: wake the
loop unless the caller is the loop thread, and in `queueInLoop` also
when the functors are being called. -/
def afterCall (w : Worker F) (t : Nat) : Worker F :=
  let w' := { w with threads := Function.update w.threads t .idle }
  match w.threads t with
  | .idle => w
  | .pushed =>
      if !w.isInLoopThread t || w.callingPendingFunctors then
        { w' with wakeupFd := writeWakeupFd w.wakeupFd }
      else w'
  | .quitting =>
      if !w.isInLoopThread t then
        { w' with wakeupFd := writeWakeupFd w.wakeupFd }
      else w'

/-- The swap of `Worker::doPendingFunctors`. -/
def swapFunctors (w : Worker F) : Worker F :=
  { w with
    queue := w.queue.swap
    pc := .draining
    swaps := w.swaps ++ [w.queue.pendingFunctors] }

/-- The next turn of the loop of `Worker::doPendingFunctors`: call the
functor at `iter`. -/
def callFunctor (w : Worker F) : Worker F :=
  match w.queue.functors with
  | [] => w
  | f :: rest =>
      { w with
        queue := { w.queue with functors := rest }
        pc := .calling
        runs := w.runs ++ [(f, w.swaps.length)] }

/-- One action. -/
def step (w : Worker F) : WorkerAct F → Except WorkerAssert (Worker F)
  | .queueInLoop t f =>
      if w.canCall t then .ok (w.pushFunctor t f) else .ok w
  | .runInLoop t f =>
      -- inline on the loop thread: what `f` does there are its own actions
      if w.canCall t && !w.isInLoopThread t then .ok (w.pushFunctor t f)
      else .ok w
  | .wakeup t => .ok (w.afterCall t)
  | .Quit t =>
      if w.canCall t then
        .ok { w with
          quit := true
          threads := Function.update w.threads t .quitting }
      else .ok w
  | .Loop =>
      if w.canCall w.threadId then do
        require (w.looping = false) .notLooping
        .ok { w with looping := true, quit := false, pc := .test }
      else .ok w
  | .test =>
      if w.canLoop .test then
        if w.quit then .ok { w with looping := false, pc := .outside }
        else .ok { w with pc := .polling }
      else .ok w
  | .pollReturn =>
      if w.canLoop .polling then .ok { w with pc := .handling } else .ok w
  | .handleRead =>
      if w.canLoop .handling then .ok { w with wakeupFd := 0 } else .ok w
  | .endHandling =>
      if w.canLoop .handling then
        .ok { w with callingPendingFunctors := true, pc := .swapping }
      else .ok w
  | .swap => if w.canLoop .swapping then .ok w.swapFunctors else .ok w
  | .call => if w.canLoop .draining then .ok w.callFunctor else .ok w
  | .ret =>
      if w.canLoop .calling then .ok { w with pc := .draining } else .ok w
  | .endPending =>
      if w.canLoop .draining && w.queue.functors.isEmpty then
        .ok { w with callingPendingFunctors := false, pc := .test }
      else .ok w

/-- `queueInLoop` from thread `t`, both halves. -/
def submit (w : Worker F) (t : Nat) (f : F) : Worker F :=
  (w.pushFunctor t f).afterCall t

end Worker

/-- The action where the functors it submits are among others. The call
is left out: what it does depends on the functor. -/
def WorkerAct.lift {F G : Type} (g : F → G) : WorkerAct F → Option (WorkerAct G)
  | .queueInLoop t f => some (.queueInLoop t (g f))
  | .runInLoop t f => some (.runInLoop t (g f))
  | .wakeup t => some (.wakeup t)
  | .Quit t => some (.Quit t)
  | .Loop => some .Loop
  | .test => some .test
  | .pollReturn => some .pollReturn
  | .handleRead => some .handleRead
  | .endHandling => some .endHandling
  | .swap => some .swap
  | .call => none
  | .ret => some .ret
  | .endPending => some .endPending

end Cobra
