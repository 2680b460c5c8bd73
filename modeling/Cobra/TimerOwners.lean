/-
Who holds pointers to the `Timer` objects, and which objects they were
made for.

# Pointers and objects

The allocator can put a new timer at the address of a deleted one, so an
address does not tell which object a pointer was made for; the address
with the number of the creation does. `TimerOwners` therefore carries,
beside the timers themselves, every pointer in use as such a pair. On
the loop's side these are the pointers in `timers_`, in `activeTimers_`,
in the batch of the `handleRead` in progress and in the calls of
`addTimerInLoop` still to come; one of them is in use until none of these
places has its address. On the other side they are the variable `timer`
of every `addTimer` that another thread has not returned from.
`cancelingTimers_` and the identifiers of the users are left out: nothing
is ever read through them.

`deleted` is the log of `delete`: the objects that a step ends.

# `addTimer`

The last thing `addTimer` does is `return TimerId(timer,
timer->sequence())`, which reads the object again. On the loop thread
`runInLoop` has inserted the timer by then and nothing comes in between:
the call is one action. On another thread it has only queued
`addTimerInLoop`, and the loop is free to go on, so the read is an action
of its own, `returnId`. It comes at any time after the timer's creation,
and needs the object that the pointer was made for: one that is gone, or
that is gone with another in its place, ends the run.
-/
import Cobra.TimerQueue

namespace Cobra

open Machine

/-- The object with this address and this number exists. -/
def TimerQueue.alive (q : TimerQueue) (id : TimerId) : Bool :=
  match q.heap id.timer with
  | some t => t.sequence == id.sequence
  | none => false

/-- The loop's side has a pointer with the address `p`. -/
def TimerLoop.holds (L : TimerLoop) (p : Nat) : Bool :=
  decide (p ∈ L.fresh)
    || decide (p ∈ L.queue.timers.elems.map Entry.timer)
    || decide (p ∈ L.queue.activeTimers.elems.map TimerId.timer)
    || match L.frame with
      | some f => decide (p ∈ f.expired.map Entry.timer)
      | none => false

/-- The object that the action creates, if it does. -/
def TimerLoop.made (L : TimerLoop) : TimerAct → List TimerId
  | .newTimer p _ _ _ =>
      if L.queue.canAllocate p then [⟨p, L.queue.numCreated + 1⟩] else []
  | _ => []

/-- The timers, with the pointers to them. -/
structure TimerOwners where
  loop : TimerLoop
  /-- the pointers in use on the loop's side -/
  pointers : List TimerId
  /-- the pointers of the calls of `addTimer` on other threads that have
  still to return -/
  returning : List TimerId
  deleted : List TimerId

inductive OwnerAct
  /-- the wall clock is set -/
  | set (t : Timestamp)
  /-- an action of the queue; `newTimer` is that of an `addTimer` on
  another thread -/
  | act (a : TimerAct)
  /-- `addTimer` on the loop thread, with the timer at address `p` -/
  | addTimer (p : Nat) (when_ : Timestamp) (repeat_ : Bool) (delta : Int64)
  /-- `return TimerId(timer, timer->sequence())` on another thread -/
  | returnId (id : TimerId)
  deriving Repr, DecidableEq

namespace TimerOwners

def create (clock : Timestamp) : TimerOwners := ⟨.create clock, [], [], []⟩

/-- An action of the queue. -/
def inLoop (s : TimerOwners) (a : TimerAct) :
    Except TimerAssert TimerOwners := do
  let L ← s.loop.step a
  let pointers := s.loop.made a ++ s.pointers
  .ok { s with
    loop := L
    pointers := pointers.filter fun id => L.holds id.timer
    deleted := s.deleted ++ s.pointers.filter fun id =>
      s.loop.queue.alive id && !L.queue.alive id }

/-- One action. -/
def step (s : TimerOwners) : OwnerAct → Except TimerAssert TimerOwners
  | .set t => .ok { s with loop := { s.loop with clock := t } }
  | .act a => do
      let s' ← s.inLoop a
      .ok { s' with returning := s.loop.made a ++ s.returning }
  | .addTimer p when_ repeat_ delta =>
      if s.loop.queue.canAllocate p then do
        let s ← s.inLoop (.newTimer p when_ repeat_ delta)
        let s ← s.inLoop (.addTimerInLoop p)
        let _ ← s.loop.idOf p
        .ok s
      else .ok s
  | .returnId id =>
      if id ∈ s.returning then do
        require (s.loop.queue.alive id = true) .deletedTimer
        .ok { s with returning := s.returning.erase id }
      else .ok s

end TimerOwners

end Cobra
