/-
`MutexLock`, `MutexLockGuard` and `Condition` (base/Mutex.h, Condition.h),
under any class whose member functions are written like

  MutexLockGuard lock(mutex_);
  while (!ready) { cond.wait(); }
  statements
  cond'.notify();

which is a `Section` for each of them.

# What is a step

One access to what the threads share: `pthread_mutex_lock` and
`pthread_mutex_unlock`, each assignment of `holder_`, the test of the
loop, each statement under the lock, the signal, and the parking of
`pthread_cond_wait`, which gives the mutex up in the same step. Between
two steps of a thread any other may run. A waiter that is notified, or
awake for no reason, is still inside of `pthread_cond_wait` and takes the
mutex like everyone else.

`holder_` is 0 outside of `lock()` and `unlock()`, and while a thread
waits: that is what `UnassignGuard` is for. A `pid_t` is an element of
`τ`, 0 is `none`.
-/
import Cobra.Lib.Monitor

namespace Cobra

open Machine Monitor

variable {σ κ ε τ Op : Type}

/-- Where a thread is. `again` says that the call has been in `wait()`. -/
inductive LockPc (Op : Type)
  /-- in no call -/
  | outside
  /-- in `lock()`, before `pthread_mutex_lock` returns -/
  | locking (o : Op)
  /-- in `lock()`, before `assignHolder()` -/
  | locked (o : Op)
  /-- at the condition of the loop -/
  | testing (o : Op) (again : Bool)
  /-- in `wait()`, before the constructor of `UnassignGuard` -/
  | waiting (o : Op) (again : Bool)
  /-- in `wait()`, before `pthread_cond_wait` -/
  | unassigned (o : Op) (again : Bool)
  | parked (o : Op)
  /-- in `pthread_cond_wait`, which wants the mutex back -/
  | awake (o : Op)
  /-- in `wait()`, before the destructor of `UnassignGuard` -/
  | back (o : Op)
  /-- under the lock, `n` of the statements are over -/
  | body (o : Op) (again : Bool) (n : Nat)
  /-- in `unlock()`, before `unassignHolder()` -/
  | unlocking
  /-- in `unlock()`, before `pthread_mutex_unlock` -/
  | releasing
  deriving Repr, DecidableEq

/-- A mutex with its conditions, the data it guards and the threads. -/
structure MutexLock (σ κ τ Op : Type) where
  data : σ
  /-- who has `mutex_` -/
  owner : Option τ
  /-- `holder_` -/
  holder : Option τ
  /-- who is parked on a condition -/
  parked : κ → List (τ × Op)
  pc : τ → LockPc Op

inductive LockAct (κ τ Op : Type)
  /-- the thread calls a member function -/
  | call (t : τ) (o : Op)
  /-- its next step -/
  | go (t : τ) (pick : Nat)
  /-- the `k`-th parked thread wakes up for no reason -/
  | wakeup (c : κ) (k : Nat)
  deriving Repr, DecidableEq

namespace MutexLock

variable [DecidableEq κ] [DecidableEq τ]

/-- Nobody is in a call. -/
def init (s : σ) : MutexLock σ κ τ Op where
  data := s
  owner := none
  holder := none
  parked := fun _ => []
  pc := fun _ => .outside

def isLockedByThisThread (s : MutexLock σ κ τ Op) (t : τ) : Bool :=
  s.holder == some t

def setPc (s : MutexLock σ κ τ Op) (t : τ) (pc : LockPc Op) :
    MutexLock σ κ τ Op :=
  { s with pc := Function.update s.pc t pc }

/-- The thread at position `i` is awake. -/
def wake (s : MutexLock σ κ τ Op) (c : κ) (i : Nat) : MutexLock σ κ τ Op :=
  match (s.parked c)[i]? with
  | some (t, o) =>
      { s.setPc t (.awake o) with
        parked := Function.update s.parked c ((s.parked c).eraseIdx i) }
  | none => s

/-- All of them are. -/
def wakeAll (s : MutexLock σ κ τ Op) (c : κ) : MutexLock σ κ τ Op :=
  { s with
    parked := Function.update s.parked c []
    pc := fun t =>
      match (s.parked c).find? fun w => w.1 == t with
      | some w => .awake w.2
      | none => s.pc t }

/-- `notify()` or `notifyAll()`. -/
def signal (s : MutexLock σ κ τ Op) (pick : Nat) : Signal κ → MutexLock σ κ τ Op
  | .none => s
  | .notify c => s.wake c (pick % (s.parked c).length)
  | .notifyAll c => s.wakeAll c

/-- The next step of thread `t`. -/
def go (sec : Op → Section σ κ ε) (s : MutexLock σ κ τ Op) (t : τ) (pick : Nat) :
    Except ε (MutexLock σ κ τ Op) :=
  match s.pc t with
  | .outside => .ok s
  | .locking o =>
      match s.owner with
      | none => .ok { s.setPc t (.locked o) with owner := some t }
      | some _ => .ok s
  | .locked o => .ok { s.setPc t (.testing o false) with holder := some t }
  | .testing o again =>
      if (sec o).ready s.data then .ok (s.setPc t (.body o again 0))
      else .ok (s.setPc t (.waiting o again))
  | .waiting o again =>
      .ok { s.setPc t (.unassigned o again) with holder := none }
  | .unassigned o _ =>
      .ok { s.setPc t (.parked o) with
        owner := none
        parked := Function.update s.parked (sec o).cond
          (s.parked (sec o).cond ++ [(t, o)]) }
  | .parked _ => .ok s
  | .awake o =>
      match s.owner with
      | none => .ok { s.setPc t (.back o) with owner := some t }
      | some _ => .ok s
  | .back o => .ok { s.setPc t (.testing o true) with holder := some t }
  | .body o again n =>
      match (sec o).body[n]? with
      | some f => do
          let data ← f s.data
          .ok { s.setPc t (.body o again (n + 1)) with data := data }
      | none =>
          .ok ((s.setPc t .unlocking).signal pick ((sec o).signal s.data))
  | .unlocking => .ok { s.setPc t .releasing with holder := none }
  | .releasing => .ok { s.setPc t .outside with owner := none }

def step (sec : Op → Section σ κ ε) (s : MutexLock σ κ τ Op) :
    LockAct κ τ Op → Except ε (MutexLock σ κ τ Op)
  | .call t o =>
      match s.pc t with
      | .outside => .ok (s.setPc t (.locking o))
      | _ => .ok s
  | .go t pick => s.go sec t pick
  | .wakeup c k => .ok (s.wake c k)

end MutexLock

end Cobra
