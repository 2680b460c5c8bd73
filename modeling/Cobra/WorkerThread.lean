/-
A worker in a thread of its own (cobra/worker_thread.cpp): `ThreadFunc`
on the new thread, `StartLoop` and the destructor on the owner's.

# What is a step

`ThreadFunc` is one action per assignment that another thread can see:
the construction of the local `worker`, the end of `init_cb_`, the
publication of `worker_` under `mutex_`, the two assignments of the
prologue of `Worker::Loop`, and `worker_ = NULL` after the loop. Between
them `worker a` is any action of the worker itself: by the loop thread
while it is in `init_cb_` or in the loop, and by any other thread that
holds the pointer. The owner's destructor is one action per statement,
with `Quit` in its two halves.

`Worker.step` takes the prologue of `Loop` as one action. Here it is
two, since the owner can run between them; `prologue_eq_Loop` says that
they compose to the one.

# The dead worker

`worker` is a local of `ThreadFunc` and dies with it. A call through a
stale `worker_` is undefined, and the model stops there.
-/
import Cobra.Worker

namespace Cobra

open Machine

-- ============================================================ the state

/-- Where `ThreadFunc` stands. -/
inductive FuncPc
  /-- no thread yet -/
  | notStarted
  /-- about to construct the local `worker` -/
  | constructing
  /-- in `init_cb_`, or about to publish `worker_` -/
  | initializing
  /-- `worker_` is published; at the top of `Worker::Loop` -/
  | entering
  /-- `looping_` is set; about to execute `quit_ = false` -/
  | resetting
  /-- past the prologue: in the loop, or just out of it -/
  | looping
  /-- `worker_` is `NULL` again and `worker` is gone -/
  | exited
  deriving Repr, DecidableEq

/-- Where the owner stands. -/
inductive OwnerPc
  | fresh
  /-- in `StartLoop`, waiting for `worker_` -/
  | waiting
  /-- `StartLoop` has returned -/
  | returned
  /-- in the destructor, about to test `worker_` -/
  | testing
  /-- in the destructor, about to call `Quit` -/
  | quitting
  /-- `Quit` has set `quit_`, the wakeup is still to come -/
  | waking
  | joining
  | done
  deriving Repr, DecidableEq

/-- The worker thread, its worker and its owner. -/
structure WorkerThread (F : Type) where
  /-- `init_cb_` is set -/
  initCb : Bool
  /-- `worker_` is not `NULL` -/
  published : Bool
  exiting : Bool
  /-- the local `worker` of `ThreadFunc` -/
  worker : Worker F
  func : FuncPc
  owner : OwnerPc
  /-- history: the destructor's `Quit` has set `quit_` -/
  quitCalled : Bool

/-- What the new thread, the owner and the other threads can do. -/
inductive WorkerThreadAct (F : Type)
  | StartLoop
  | startLoopReturns
  | construct
  | publish
  | setLooping
  | resetQuit
  | leave
  | worker (a : WorkerAct F)
  | destroy
  | testWorker
  | Quit
  | wakeup
  | join
  deriving Repr, DecidableEq

inductive WorkerThreadAssert
  /-- `assert(!thread_.started())` of `StartLoop` -/
  | notStarted
  | worker (e : WorkerAssert)
  /-- a call on the worker after `ThreadFunc` has destroyed it -/
  | deadWorker
  deriving Repr, DecidableEq

/-- The thread that takes an action, or `none` for the loop's own
phases. -/
def WorkerAct.caller {F : Type} : WorkerAct F → Option Nat
  | .queueInLoop t _ => some t
  | .runInLoop t _ => some t
  | .wakeup t => some t
  | .Quit t => some t
  | _ => none

namespace WorkerThread

variable {F : Type}

/-- The thread that runs `ThreadFunc`. -/
def funcThread : Nat := 1

/-- The thread that calls `StartLoop` and the destructor. -/
def ownerThread : Nat := 0

/-- The constructor `WorkerThread(cb)`. -/
def create (initCb : Bool) : WorkerThread F where
  initCb := initCb
  published := false
  exiting := false
  worker := .create funcThread
  func := .notStarted
  owner := .fresh
  quitCalled := false

-- ========================================================== the guards

/-- The new thread is in code that acts on the worker: in `init_cb_`, or
inside the while loop. -/
def loopThreadRuns (s : WorkerThread F) : Bool :=
  (s.func == .initializing && s.initCb)
    || (s.func == .looping && s.worker.pc != .outside)

/-- `worker` is alive, and threads other than its own can know it: from
`init_cb_`, or from the caller of `StartLoop`. -/
def shared (s : WorkerThread F) : Bool :=
  s.func != .notStarted && s.func != .constructing && s.func != .exited
    && (s.initCb || s.published)

/-- Who may take the worker's action now. -/
def mayAct (s : WorkerThread F) (a : WorkerAct F) : Bool :=
  match a.caller with
  | none => s.loopThreadRuns
  | some t =>
      if t = funcThread then s.loopThreadRuns
      else if t = ownerThread then s.shared && s.owner == .returned
      else s.shared

/-- `Worker::Loop` has left its while loop. -/
def left (s : WorkerThread F) : Bool :=
  (s.func == .looping && s.worker.pc == .outside) || s.func == .exited

-- ============================================================ the steps

/-- An action of the worker, with its failure. -/
def onWorker (s : WorkerThread F) (a : WorkerAct F) :
    Except WorkerThreadAssert (WorkerThread F) := do
  let w ← (s.worker.step a).mapError .worker
  .ok { s with worker := w }

/-- `ThreadFunc`, `StartLoop` and the destructor, one statement each. -/
def step (s : WorkerThread F) :
    WorkerThreadAct F → Except WorkerThreadAssert (WorkerThread F)
  | .StartLoop =>
      if s.owner == .fresh || s.owner == .returned then do
        require (s.func = .notStarted) .notStarted
        .ok { s with func := .constructing, owner := .waiting }
      else .ok s
  | .startLoopReturns =>
      if s.owner == .waiting && s.published then
        .ok { s with owner := .returned }
      else .ok s
  | .construct =>
      if s.func == .constructing then
        .ok { s with worker := .create funcThread, func := .initializing }
      else .ok s
  | .publish =>
      -- `init_cb_` has returned: no loop of its own is still running
      if s.func == .initializing && s.worker.canLoop .outside then
        .ok { s with published := true, func := .entering }
      else .ok s
  | .setLooping =>
      if s.func == .entering then do
        require (s.worker.looping = false) (.worker .notLooping)
        .ok { s with
          worker := { s.worker with looping := true }
          func := .resetting }
      else .ok s
  | .resetQuit =>
      if s.func == .resetting then
        .ok { s with
          worker := { s.worker with quit := false, pc := .test }
          func := .looping }
      else .ok s
  | .leave =>
      if s.func == .looping && s.worker.canLoop .outside then
        .ok { s with published := false, func := .exited }
      else .ok s
  | .worker a => if s.mayAct a then s.onWorker a else .ok s
  | .destroy =>
      -- the owner is not in the middle of a call of its own
      if (s.owner == .fresh || s.owner == .returned)
          && s.worker.threads ownerThread == .idle then
        .ok { s with exiting := true, owner := .testing }
      else .ok s
  | .testWorker =>
      if s.owner == .testing then
        if s.published then .ok { s with owner := .quitting }
        else .ok { s with owner := .done }
      else .ok s
  | .Quit =>
      if s.owner == .quitting then do
        require (s.func ≠ .exited) .deadWorker
        let s' ← s.onWorker (.Quit ownerThread)
        .ok { s' with owner := .waking, quitCalled := true }
      else .ok s
  | .wakeup =>
      if s.owner == .waking then do
        require (s.func ≠ .exited) .deadWorker
        let s' ← s.onWorker (.wakeup ownerThread)
        .ok { s' with owner := .joining }
      else .ok s
  | .join =>
      if s.owner == .joining && s.func == .exited then
        .ok { s with owner := .done }
      else .ok s

/-- The two assignments of the prologue are the one action `Loop` of the
worker. -/
theorem prologue_eq_Loop (s : WorkerThread F) (hf : s.func = .entering)
    (hc : s.worker.canCall s.worker.threadId = true) :
    (do let s₁ ← s.step .setLooping; s₁.step .resetQuit)
      = (do
          let w ← (s.worker.step .Loop).mapError .worker
          .ok { s with worker := w, func := .looping }) := by
  cases hl : s.worker.looping with
  | true => simp [step, Worker.step, hf, hc, hl, require, Except.mapError]; rfl
  | false =>
      simp [step, Worker.step, hf, hc, hl, require, Except.mapError]

end WorkerThread

end Cobra
