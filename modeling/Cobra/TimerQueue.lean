/-
Timers: `Timestamp` (base/timestamp.h), `Timer` and `TimerId`
(cobra/timer.h, timer.cpp, timer_id.h) and `TimerQueue`
(cobra/timer_queue.cpp) with the timerfd it arms.

# Time

A `Timestamp` is an `int64_t` of microseconds, so its arithmetic is the
64-bit one: the difference taken by `howMuchTimeFromNow` and the sum
taken by `addTime` wrap. A `double` interval enters as what the code
makes of it: whether it is positive (`repeat_`), and the microseconds it
converts to (`delta`).

# Memory

Timers live in a heap from addresses to objects. The address of a new
one is the allocator's choice: any address that no live object has and
that an object can have, so a deleted timer's address can come back.
Reading or deleting an object that is not there is a failure, next to
the assertions of the source.

# Steps

`TimerLoop` is the queue with the clock and with the local variables of
a `handleRead` in progress. User code runs where the source calls it:
between two steps of the loop, and inside a callback, that is between
`runNext` and the next `runNext` or `endRead`. There it may create,
insert and cancel timers at will. `handleRead` is therefore cut at its
callbacks into `beginRead`, one `runNext` for each timer of the batch,
and `endRead`.

A callback is destroyed with its timer, by the `delete` in
`cancelInLoop` and in `reset`. The destructors of what it has captured
are user code as well, and are taken not to call the queue.
-/
import Cobra.Lib.Machine
import Cobra.Lib.OrdSet
import Mathlib.Algebra.Group.Int.Defs
import Mathlib.Algebra.Group.Nat.Defs
import Mathlib.Data.Prod.Lex
import Mathlib.Logic.Function.Basic

namespace Cobra

open Machine

-- ================================================================= time

/-- Microseconds since the Epoch. -/
structure Timestamp where
  microSecondsSinceEpoch : Int64
  deriving Repr, DecidableEq

namespace Timestamp

/-- The microseconds as an integer. -/
def micros (t : Timestamp) : Int := t.microSecondsSinceEpoch.toInt

theorem micros_injective : Function.Injective micros := by
  rintro ⟨a⟩ ⟨b⟩ h
  have hab : a = b := Int64.toInt_inj.1 h
  rw [hab]

instance : LinearOrder Timestamp := LinearOrder.lift' micros micros_injective

theorem lt_def {a b : Timestamp} : a < b ↔ a.micros < b.micros := Iff.rfl

theorem le_def {a b : Timestamp} : a ≤ b ↔ a.micros ≤ b.micros := Iff.rfl

def kMicroSecondsPerSecond : Int64 := 1000 * 1000

/-- The default constructor, also `Timestamp::invalid()`. -/
def invalid : Timestamp := ⟨0⟩

def valid (t : Timestamp) : Bool := 0 < t.micros

end Timestamp

/-- `addTime`, with the interval already converted to microseconds. -/
def addTime (timestamp : Timestamp) (delta : Int64) : Timestamp :=
  ⟨timestamp.microSecondsSinceEpoch + delta⟩

-- =============================================================== timers

/-- `UINTPTR_MAX`, no object's address. -/
def UINTPTR_MAX : Nat := 2 ^ 64 - 1

structure Timer where
  expiration : Timestamp
  repeat_ : Bool
  delta : Int64
  sequence : Nat
  deriving Repr, DecidableEq

/-- `Timer::restart`. -/
def Timer.restart (t : Timer) (now : Timestamp) : Timer :=
  if t.repeat_ then { t with expiration := addTime now t.delta }
  else { t with expiration := .invalid }

/-- The pairs of `timers_`: `std::pair<Timestamp, Timer*>`. -/
structure Entry where
  when_ : Timestamp
  timer : Nat
  deriving Repr, DecidableEq

/-- The lexicographic key of an entry. -/
def Entry.key (e : Entry) : Timestamp ×ₗ Nat := toLex (e.when_, e.timer)

theorem Entry.key_injective : Function.Injective Entry.key := by
  rintro ⟨a, p⟩ ⟨b, q⟩ h
  obtain ⟨rfl, rfl⟩ := Prod.mk.inj (toLex.injective h)
  rfl

instance : LinearOrder Entry := LinearOrder.lift' Entry.key Entry.key_injective

/-- `TimerId`, also the pairs of `activeTimers_` and `cancelingTimers_`:
`std::pair<Timer*, int64_t>`. -/
structure TimerId where
  timer : Nat
  sequence : Nat
  deriving Repr, DecidableEq

/-- The lexicographic key of an identifier. -/
def TimerId.key (i : TimerId) : Nat ×ₗ Nat := toLex (i.timer, i.sequence)

theorem TimerId.key_injective : Function.Injective TimerId.key := by
  rintro ⟨a, p⟩ ⟨b, q⟩ h
  obtain ⟨rfl, rfl⟩ := Prod.mk.inj (toLex.injective h)
  rfl

instance : LinearOrder TimerId :=
  LinearOrder.lift' TimerId.key TimerId.key_injective

-- ========================================================== the timerfd

structure Timespec where
  tv_sec : Int64
  tv_nsec : Int64
  deriving Repr, DecidableEq

/-- The nanoseconds of a timespec. -/
def Timespec.nanos (ts : Timespec) : Int :=
  ts.tv_sec.toInt * 10 ^ 9 + ts.tv_nsec.toInt

/-- The kernel's side of `timerfd_`: the expiration it is armed with,
until that is read (in nanoseconds), the time of the last
`timerfd_settime` (in microseconds), and every timespec passed to it. -/
structure Timerfd where
  armed : Option Int
  setAt : Int
  passed : List Timespec
  deriving Repr, DecidableEq

/-- `howMuchTimeFromNow`, with `Timestamp::now()` read as `now`. -/
def howMuchTimeFromNow (now when_ : Timestamp) : Timespec :=
  let microseconds :=
    when_.microSecondsSinceEpoch - now.microSecondsSinceEpoch
  let microseconds := if microseconds < 100 then 100 else microseconds
  { tv_sec := microseconds / Timestamp.kMicroSecondsPerSecond
    tv_nsec := (microseconds % Timestamp.kMicroSecondsPerSecond) * 1000 }

/-- `resetTimerfd`: `timerfd_settime` arms the timer once, and drops an
expiration that has not been read. -/
def resetTimerfd (fd : Timerfd) (now expiration : Timestamp) : Timerfd :=
  let newValue := howMuchTimeFromNow now expiration
  { armed := some (now.micros * 1000 + newValue.nanos)
    setAt := now.micros
    passed := fd.passed ++ [newValue] }

/-- `readTimerfd`: the read takes an expiration that has happened, and
fails with `EAGAIN` when there is none. -/
def readTimerfd (fd : Timerfd) (now : Timestamp) : Timerfd :=
  match fd.armed with
  | some d => if d ≤ now.micros * 1000 then { fd with armed := none } else fd
  | none => fd

-- ============================================================ the queue

/-- What can go wrong in `TimerQueue`: its assertions, in source order,
and the use of a deleted timer. -/
inductive TimerAssert
  | cancelSizesBefore
  | cancelErasedOne
  | cancelSizesAfter
  | expiredSizesBefore
  | expiredEnd
  | expiredErasedOne
  | expiredSizesAfter
  | insertSizesBefore
  | insertedTimer
  | insertedActive
  | insertSizesAfter
  | deletedTimer
  deriving Repr, DecidableEq

structure TimerQueue where
  timers : OrdSet Entry
  activeTimers : OrdSet TimerId
  callingExpiredTimers : Bool
  cancelingTimers : OrdSet TimerId
  timerfd : Timerfd
  /-- the `Timer` objects -/
  heap : Nat → Option Timer
  /-- `Timer::s_numCreated_` -/
  numCreated : Nat

namespace TimerQueue

/-- The constructor. -/
def create : TimerQueue where
  timers := .empty
  activeTimers := .empty
  callingExpiredTimers := false
  cancelingTimers := .empty
  timerfd := ⟨none, 0, []⟩
  heap := fun _ => none
  numCreated := 0

/-- Read the object at `p`. -/
def deref (q : TimerQueue) (p : Nat) : Except TimerAssert Timer :=
  match q.heap p with
  | some t => .ok t
  | none => .error .deletedTimer

/-- `delete`. -/
def delete (q : TimerQueue) (p : Nat) : Except TimerAssert TimerQueue :=
  match q.heap p with
  | some _ => .ok { q with heap := Function.update q.heap p none }
  | none => .error .deletedTimer

/-- The allocator can hand out `p`. -/
def canAllocate (q : TimerQueue) (p : Nat) : Bool :=
  p < UINTPTR_MAX && (q.heap p).isNone

/-- `new Timer(cb, when, interval)`, at the address `p`. -/
def newTimer (q : TimerQueue) (p : Nat) (when_ : Timestamp) (repeat_ : Bool)
    (delta : Int64) : TimerQueue :=
  { q with
    heap := Function.update q.heap p
      (some ⟨when_, repeat_, delta, q.numCreated + 1⟩)
    numCreated := q.numCreated + 1 }

/-- The assertion `timers_.size() == activeTimers_.size()`. -/
def sizesEqual (q : TimerQueue) : Prop :=
  q.timers.size = q.activeTimers.size

instance (q : TimerQueue) : Decidable q.sizesEqual :=
  inferInstanceAs (Decidable (_ = _))

/-- `TimerQueue::insert`. -/
def insert (q : TimerQueue) (timer : Nat) :
    Except TimerAssert (Bool × TimerQueue) := do
  require q.sizesEqual .insertSizesBefore
  let t ← q.deref timer
  let earliestChanged :=
    match q.timers.first? with
    | none => true
    | some e => decide (t.expiration < e.when_)
  require (⟨t.expiration, timer⟩ ∉ q.timers) .insertedTimer
  let q := { q with timers := q.timers.insert ⟨t.expiration, timer⟩ }
  require (⟨timer, t.sequence⟩ ∉ q.activeTimers) .insertedActive
  let q := { q with
    activeTimers := q.activeTimers.insert ⟨timer, t.sequence⟩ }
  require q.sizesEqual .insertSizesAfter
  .ok (earliestChanged, q)

/-- `TimerQueue::addTimerInLoop`. -/
def addTimerInLoop (q : TimerQueue) (now : Timestamp) (timer : Nat) :
    Except TimerAssert TimerQueue := do
  let (earliestChanged, q) ← q.insert timer
  if earliestChanged then do
    let t ← q.deref timer
    .ok { q with timerfd := resetTimerfd q.timerfd now t.expiration }
  else .ok q

/-- The two branches of `TimerQueue::cancelInLoop`. -/
def cancelTimer (q : TimerQueue) (timer : TimerId) :
    Except TimerAssert TimerQueue :=
  if timer ∈ q.activeTimers then do
    let t ← q.deref timer.timer
    require (⟨t.expiration, timer.timer⟩ ∈ q.timers) .cancelErasedOne
    let q := { q with timers := q.timers.erase ⟨t.expiration, timer.timer⟩ }
    let q ← q.delete timer.timer
    .ok { q with activeTimers := q.activeTimers.erase timer }
  else if q.callingExpiredTimers then
    .ok { q with cancelingTimers := q.cancelingTimers.insert timer }
  else .ok q

/-- `TimerQueue::cancelInLoop`. -/
def cancelInLoop (q : TimerQueue) (timerId : TimerId) :
    Except TimerAssert TimerQueue := do
  require q.sizesEqual .cancelSizesBefore
  let q ← q.cancelTimer timerId
  require q.sizesEqual .cancelSizesAfter
  .ok q

/-- The loop of `TimerQueue::getExpired` that takes the expired timers
out of `activeTimers_`. -/
def eraseActive (q : TimerQueue) : List Entry → Except TimerAssert TimerQueue
  | [] => .ok q
  | e :: es => do
      let t ← q.deref e.timer
      require (⟨e.timer, t.sequence⟩ ∈ q.activeTimers) .expiredErasedOne
      eraseActive { q with
        activeTimers := q.activeTimers.erase ⟨e.timer, t.sequence⟩ } es

/-- `now < end->first`, for the `end` of `TimerQueue::getExpired`. -/
def endAfter (now : Timestamp) : Option Entry → Prop
  | none => True
  | some e => now < e.when_

instance (now : Timestamp) : (e : Option Entry) → Decidable (endAfter now e)
  | none => .isTrue trivial
  | some e => inferInstanceAs (Decidable (now < e.when_))

/-- `TimerQueue::getExpired`. -/
def getExpired (q : TimerQueue) (now : Timestamp) :
    Except TimerAssert (List Entry × TimerQueue) := do
  require q.sizesEqual .expiredSizesBefore
  let sentry : Entry := ⟨now, UINTPTR_MAX⟩
  require (endAfter now (q.timers.fromKey sentry).first?) .expiredEnd
  let expired := q.timers.below sentry
  let q := { q with timers := q.timers.fromKey sentry }
  let q ← q.eraseActive expired
  require q.sizesEqual .expiredSizesAfter
  .ok (expired, q)

/-- The loop of `TimerQueue::reset`: a repeating timer that was not
cancelled is re-armed, any other one deleted. -/
def resetEach (q : TimerQueue) (now : Timestamp) :
    List Entry → Except TimerAssert TimerQueue
  | [] => .ok q
  | e :: es => do
      let t ← q.deref e.timer
      if t.repeat_ && decide (⟨e.timer, t.sequence⟩ ∉ q.cancelingTimers) then do
        let q := { q with
          heap := Function.update q.heap e.timer (some (t.restart now)) }
        let (_, q) ← q.insert e.timer
        resetEach q now es
      else do
        let q ← q.delete e.timer
        resetEach q now es

/-- The end of `TimerQueue::reset`: arm the timerfd for the earliest
timer, if its expiration is valid. -/
def rearm (q : TimerQueue) (clock : Timestamp) :
    Except TimerAssert TimerQueue := do
  let nextExpire ←
    match q.timers.first? with
    | none => .ok Timestamp.invalid
    | some e => do
        let t ← q.deref e.timer
        .ok t.expiration
  if nextExpire.valid then
    .ok { q with timerfd := resetTimerfd q.timerfd clock nextExpire }
  else .ok q

/-- `TimerQueue::reset`; `clock` is what `Timestamp::now()` returns in
`resetTimerfd`, `now` the time `handleRead` started with. -/
def reset (q : TimerQueue) (expired : List Entry) (now clock : Timestamp) :
    Except TimerAssert TimerQueue := do
  let q ← q.resetEach now expired
  q.rearm clock

end TimerQueue

-- ============================================================= the loop

/-- The local variables of a `TimerQueue::handleRead` in progress: `rest`
is the part of `expired` from `it` on. -/
structure HandleRead where
  now : Timestamp
  expired : List Entry
  rest : List Entry
  deriving Repr, DecidableEq

/-- What an observer of the queue sees. -/
inductive TimerObs
  /-- `addTimer` returned this identifier -/
  | issued (id : TimerId)
  /-- `addTimerInLoop` inserted the timer -/
  | inserted (id : TimerId)
  /-- the timer's callback was started -/
  | started (id : TimerId)
  /-- `cancelInLoop` for this identifier returned -/
  | cancelled (id : TimerId)
  deriving Repr, DecidableEq

/-- The queue, the clock and the loop thread's place in `handleRead`. -/
structure TimerLoop where
  queue : TimerQueue
  clock : Timestamp
  frame : Option HandleRead
  /-- the timers whose `addTimerInLoop` is still to come -/
  fresh : List Nat
  obs : List TimerObs

inductive TimerAct
  /-- time passes until `t` -/
  | tick (t : Timestamp)
  /-- some thread's `addTimer` creates the timer, at address `p` -/
  | newTimer (p : Nat) (when_ : Timestamp) (repeat_ : Bool) (delta : Int64)
  /-- the loop thread runs `addTimerInLoop` for it -/
  | addTimerInLoop (p : Nat)
  /-- the loop thread runs `cancelInLoop` -/
  | cancelInLoop (id : TimerId)
  /-- `handleRead` is entered, up to its first callback -/
  | beginRead
  /-- `handleRead` enters the callback of the timer at `it` -/
  | runNext
  /-- `handleRead` is over with the callbacks and returns -/
  | endRead
  deriving Repr, DecidableEq

namespace TimerLoop

def create (clock : Timestamp) : TimerLoop :=
  ⟨.create, clock, none, [], []⟩

/-- The identifier of the timer at `p`, as `addTimer` returns it. -/
def idOf (L : TimerLoop) (p : Nat) : Except TimerAssert TimerId := do
  let t ← L.queue.deref p
  .ok ⟨p, t.sequence⟩

/-- `TimerQueue::handleRead` up to its loop. -/
def beginRead (L : TimerLoop) : Except TimerAssert TimerLoop := do
  let q := { L.queue with timerfd := readTimerfd L.queue.timerfd L.clock }
  let (expired, q) ← q.getExpired L.clock
  .ok { L with
    queue := { q with callingExpiredTimers := true, cancelingTimers := .empty }
    frame := some ⟨L.clock, expired, expired⟩ }

/-- `TimerQueue::handleRead` after its loop. -/
def endRead (L : TimerLoop) (f : HandleRead) :
    Except TimerAssert TimerLoop := do
  let q := { L.queue with callingExpiredTimers := false }
  let q ← q.reset f.expired f.now L.clock
  .ok { L with queue := q, frame := none }

/-- One action. -/
def step (L : TimerLoop) : TimerAct → Except TimerAssert TimerLoop
  | .tick t => if L.clock ≤ t then .ok { L with clock := t } else .ok L
  | .newTimer p when_ repeat_ delta =>
      if L.queue.canAllocate p then
        .ok { L with
          queue := L.queue.newTimer p when_ repeat_ delta
          fresh := p :: L.fresh
          obs := L.obs ++ [.issued ⟨p, L.queue.numCreated + 1⟩] }
      else .ok L
  | .addTimerInLoop p =>
      if p ∈ L.fresh then do
        let id ← L.idOf p
        let q ← L.queue.addTimerInLoop L.clock p
        .ok { L with
          queue := q
          fresh := L.fresh.erase p
          obs := L.obs ++ [.inserted id] }
      else .ok L
  | .cancelInLoop id => do
      let q ← L.queue.cancelInLoop id
      .ok { L with queue := q, obs := L.obs ++ [.cancelled id] }
  | .beginRead =>
      match L.frame with
      | none => L.beginRead
      | some _ => .ok L
  | .runNext =>
      match L.frame with
      | some ⟨now, expired, e :: rest⟩ => do
          let id ← L.idOf e.timer
          .ok { L with
            frame := some ⟨now, expired, rest⟩
            obs := L.obs ++ [.started id] }
      | _ => .ok L
  | .endRead =>
      match L.frame with
      | some ⟨now, expired, []⟩ => L.endRead ⟨now, expired, []⟩
      | _ => .ok L

end TimerLoop

-- ======================================================= the wall clock

/-- `Timestamp::now()` reads the wall clock, which can also be set, to any
time. -/
inductive WallAct
  | set (t : Timestamp)
  | act (a : TimerAct)
  deriving Repr, DecidableEq

/-- One action, or a new setting of the clock. -/
def TimerLoop.wallStep (L : TimerLoop) : WallAct → Except TimerAssert TimerLoop
  | .set t => .ok { L with clock := t }
  | .act a => L.step a

end Cobra
