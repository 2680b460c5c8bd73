/-
`Connector` (cobra/connector.h, connector.cpp): the active side of a
connection, with the loop it belongs to.

# What is a step

`start` and `stop` come from any thread, one action each; `restart` comes
from the loop thread. On the loop thread `start` runs `startInLoop` at
once, from another thread it submits it, and `stop` always submits
`stopInLoop`. The loop moves by the steps of `Worker`, and the events of
`channel_`, the retry timers and the calls of functors are actions of
the loop thread in the phases they belong to. `new_conn_cb_` is the last
thing `handleWrite` does, so what it calls comes after it.

The kernel's answers are arguments: the errno of `connect(2)`, the value
of `SO_ERROR` and whether the two ends of the socket are the same. Timers
fire in any order: when one does is the clock's business.

# Sockets

A socket is the number of the `createNonblockingOrDie` that made it; how
often it has been closed and handed over is history, and so are the
counters of `stop` at the end of the record.
-/
import Cobra.Channel
import Cobra.Worker

namespace Cobra

open Machine

-- ============================================================ the state

/-- `Connector::States`. -/
inductive ConnectorStates
  | kDisconnected
  | kConnecting
  | kConnected
  deriving Repr, DecidableEq

/-- `savedErrno` in `Connector::connect`. -/
inductive ConnectErrno
  | success
  | EINPROGRESS
  | EINTR
  | EISCONN
  | EAGAIN
  | EADDRINUSE
  | EADDRNOTAVAIL
  | ECONNREFUSED
  | ENETUNREACH
  | EACCES
  | EPERM
  | EAFNOSUPPORT
  | EALREADY
  | EBADF
  | EFAULT
  | ENOTSOCK
  | other (errno : Nat)
  deriving Repr, DecidableEq

/-- The functors of a connector, among those of type `U` that others
submit to its loop. -/
inductive ConnectorFunctor (U : Type)
  | startInLoop
  | stopInLoop
  | resetChannel
  | other (f : U)
  deriving Repr, DecidableEq

/-- A socket that `connect` created. -/
structure ConnectorSocket where
  /-- how often the connector has closed it -/
  closes : Nat
  /-- how often it was given to `new_conn_cb_` -/
  handed : Nat
  deriving Repr, DecidableEq

structure Connector (U : Type) where
  state : ConnectorStates
  connect_ : Bool
  channel : Option Channel
  retryDelayMs : Nat
  loop : Worker (ConnectorFunctor U)
  /-- the delays of the timers that are set and have not fired -/
  timers : List Nat
  sockets : List ConnectorSocket
  /-- calls of `stop` -/
  stops : Nat
  /-- calls of `stopInLoop`: the queue is first in, first out, so these
  are of the first `stopsRun` calls of `stop` -/
  stopsRun : Nat
  /-- calls of `stop` before the last `start` or `restart` -/
  stopsBefore : Nat
  /-- a socket was handed over since the last `start` or `restart` -/
  handedSince : Bool

inductive ConnectorAssert
  | worker (e : WorkerAssert)
  /-- `assert(state_ == kDisconnected)` of `startInLoop` -/
  | startInLoop
  /-- `assert(!channel_)` of `connecting` -/
  | connecting
  /-- `channel_->` on no channel -/
  | nullChannel
  /-- `assert(state_ == kDisconnected)` of `handleWrite` -/
  | handleWrite
  deriving Repr, DecidableEq

inductive ConnectorAct (U : Type)
  | start (t : Nat) (errno : ConnectErrno)
  | stop (t : Nat)
  | restart (errno : ConnectErrno)
  /-- `channel_` has an event -/
  | handleEvent (revents : BitVec 32) (soError : Nat) (selfConnect : Bool)
  /-- the timer at position `k` fires -/
  | timer (k : Nat) (errno : ConnectErrno)
  /-- the next functor is called -/
  | call (errno : ConnectErrno)
  /-- a step of the loop, or of a thread with another functor -/
  | loop (a : WorkerAct U)
  deriving Repr, DecidableEq

namespace Connector

variable {U : Type}

def kMaxRetryDelayMs : Nat := 30000

def kInitRetryDelayMs : Nat := 500

/-- The constructor, for a loop on thread `threadId`. -/
def create (threadId : Nat) : Connector U where
  state := .kDisconnected
  connect_ := false
  channel := none
  retryDelayMs := kInitRetryDelayMs
  loop := .create threadId
  timers := []
  sockets := []
  stops := 0
  stopsRun := 0
  stopsBefore := 0
  handedSince := false

-- ====================================================== small operations

def setState (s : Connector U) (state : ConnectorStates) : Connector U :=
  { s with state := state }

/-- `close(sockfd)`. -/
def close (s : Connector U) (sockfd : Nat) : Connector U :=
  { s with
    sockets := s.sockets.modify sockfd
      fun k => { k with closes := k.closes + 1 } }

/-- `new_conn_cb_(sockfd)`. -/
def newConnCb (s : Connector U) (sockfd : Nat) : Connector U :=
  { s with
    sockets := s.sockets.modify sockfd
      fun k => { k with handed := k.handed + 1 }
    handedSince := true }

/-- `queueInLoop`, from the loop thread. -/
def queueInLoop (s : Connector U) (f : ConnectorFunctor U) : Connector U :=
  { s with loop := s.loop.submit s.loop.threadId f }

/-- The history of a `start` or a `restart`. -/
def started (s : Connector U) : Connector U :=
  { s with connect_ := true, stopsBefore := s.stops, handedSince := false }

-- =========================================================== an attempt

/-- `Connector::retry`. -/
def retry (s : Connector U) (sockfd : Nat) : Connector U :=
  let s' := (s.close sockfd).setState .kDisconnected
  if s'.connect_ then
    { s' with
      timers := s'.timers ++ [s'.retryDelayMs]
      retryDelayMs := min (s'.retryDelayMs * 2) kMaxRetryDelayMs }
  else s'

/-- `Connector::connecting`. -/
def connecting (s : Connector U) (sockfd : Nat) :
    Except ConnectorAssert (Connector U) := do
  let s' := s.setState .kConnecting
  require (s'.channel = none) .connecting
  .ok { s' with channel := some (Channel.create sockfd).enableWriting }

/-- `createNonblockingOrDie()`. -/
def newSocket (s : Connector U) : Connector U :=
  { s with sockets := s.sockets ++ [⟨0, 0⟩] }

/-- `Connector::connect`. -/
def connect (s : Connector U) (errno : ConnectErrno) :
    Except ConnectorAssert (Connector U) :=
  let sockfd := s.sockets.length
  match errno with
  | .success | .EINPROGRESS | .EINTR | .EISCONN =>
      s.newSocket.connecting sockfd
  | .EAGAIN | .EADDRINUSE | .EADDRNOTAVAIL | .ECONNREFUSED | .ENETUNREACH =>
      .ok (s.newSocket.retry sockfd)
  | .EACCES | .EPERM | .EAFNOSUPPORT | .EALREADY | .EBADF | .EFAULT
  | .ENOTSOCK => .ok (s.newSocket.close sockfd)
  | .other _ => .ok (s.newSocket.close sockfd)

/-- `Connector::startInLoop`. -/
def startInLoop (s : Connector U) (errno : ConnectErrno) :
    Except ConnectorAssert (Connector U) := do
  require (s.state = .kDisconnected) .startInLoop
  if s.connect_ then s.connect errno else .ok s

/-- `Connector::start`, from thread `t`. -/
def start (s : Connector U) (t : Nat) (errno : ConnectErrno) :
    Except ConnectorAssert (Connector U) :=
  let s' := s.started
  if s'.loop.isInLoopThread t then s'.startInLoop errno
  else .ok { s' with loop := s'.loop.submit t .startInLoop }

/-- `Connector::restart`. -/
def restart (s : Connector U) (errno : ConnectErrno) :
    Except ConnectorAssert (Connector U) :=
  { (s.setState .kDisconnected).started with
    retryDelayMs := kInitRetryDelayMs }.startInLoop errno

-- ============================================================ its end

/-- `Connector::removeAndResetChannel`, with the descriptor it returns. -/
def removeAndResetChannel (s : Connector U) :
    Except ConnectorAssert (Connector U × Nat) :=
  match s.channel with
  | none => .error .nullChannel
  | some channel =>
      .ok ({ s with channel := some channel.disableAll }.queueInLoop
        .resetChannel, channel.fd)

/-- `Connector::resetChannel`. -/
def resetChannel (s : Connector U) : Connector U := { s with channel := none }

/-- `Connector::handleWrite`, with the socket it gives to
`new_conn_cb_`. -/
def handleWrite (s : Connector U) (soError : Nat) (selfConnect : Bool) :
    Except ConnectorAssert (Connector U × Option Nat) :=
  if s.state = .kConnecting then do
    let (s', sockfd) ← s.removeAndResetChannel
    if soError ≠ 0 then .ok (s'.retry sockfd, none)
    else if selfConnect then .ok (s'.retry sockfd, none)
    else
      let s'' := s'.setState .kConnected
      if s''.connect_ then .ok (s''.newConnCb sockfd, some sockfd)
      else .ok (s''.close sockfd, none)
  else do
    require (s.state = .kDisconnected) .handleWrite
    .ok (s, none)

/-- `Connector::handleError`. -/
def handleError (s : Connector U) : Except ConnectorAssert (Connector U) :=
  if s.state = .kConnecting then do
    let (s', sockfd) ← s.removeAndResetChannel
    .ok (s'.retry sockfd)
  else .ok s

/-- `Channel::handleEventWithGuard`, with the two callbacks `connecting`
sets. -/
def handleEventWithGuard (s : Connector U) (revents : BitVec 32)
    (soError : Nat) (selfConnect : Bool) :
    Except ConnectorAssert (Connector U × Option Nat) := do
  let s' ← guarded (hasAny revents (POLLERR ||| POLLNVAL)) handleError s
  if hasAny revents POLLOUT then s'.handleWrite soError selfConnect
  else .ok (s', none)

/-- `Connector::stop`, from thread `t`. -/
def stop (s : Connector U) (t : Nat) : Connector U :=
  { s with
    connect_ := false
    loop := s.loop.submit t .stopInLoop
    stops := s.stops + 1 }

/-- `Connector::stopInLoop`. -/
def stopInLoop (s : Connector U) : Except ConnectorAssert (Connector U) :=
  let s' := { s with stopsRun := s.stopsRun + 1 }
  if s'.state = .kConnecting then do
    let (s'', sockfd) ← (s'.setState .kDisconnected).removeAndResetChannel
    .ok (s''.retry sockfd)
  else .ok s'

-- ============================================================ the steps

/-- A functor, called on the loop thread. -/
def apply (s : Connector U) (errno : ConnectErrno) :
    ConnectorFunctor U → Except ConnectorAssert (Connector U)
  | .startInLoop => s.startInLoop errno
  | .stopInLoop => s.stopInLoop
  | .resetChannel => .ok s.resetChannel
  | .other _ => .ok s

/-- The socket whose events the loop watches for. -/
def watched (s : Connector U) : Option Nat :=
  match s.channel with
  | some channel => if channel.isNoneEvent then none else some channel.fd
  | none => none

/-- An event of `channel_`, with the socket that is handed over. -/
def handleEvent (s : Connector U) (revents : BitVec 32) (soError : Nat)
    (selfConnect : Bool) : Except ConnectorAssert (Connector U × Option Nat) :=
  if s.loop.canLoop .handling && s.watched.isSome then
    s.handleEventWithGuard revents soError selfConnect
  else .ok (s, none)

/-- The timer at position `k` fires. -/
def timer (s : Connector U) (k : Nat) (errno : ConnectErrno) :
    Except ConnectorAssert (Connector U) :=
  if s.loop.canLoop .handling && decide (k < s.timers.length) then
    { s with timers := s.timers.eraseIdx k }.startInLoop errno
  else .ok s

/-- A step of the loop, with functors that are not the connector's. -/
def loopStep (s : Connector U) (a : WorkerAct U) :
    Except ConnectorAssert (Connector U) :=
  match a.lift .other with
  | none => .ok s
  | some a' => do
      let w ← (s.loop.step a').mapError .worker
      .ok { s with loop := w }

def step (s : Connector U) :
    ConnectorAct U → Except ConnectorAssert (Connector U)
  | .start t errno =>
      if s.loop.canCall t then s.start t errno else .ok s
  | .stop t => if s.loop.canCall t then .ok (s.stop t) else .ok s
  | .restart errno =>
      if s.loop.canCall s.loop.threadId then s.restart errno else .ok s
  | .handleEvent revents soError selfConnect => do
      let (s', _) ← s.handleEvent revents soError selfConnect
      .ok s'
  | .timer k errno => s.timer k errno
  | .call errno =>
      if s.loop.canLoop .draining then
        match s.loop.queue.functors with
        | [] => .ok s
        | f :: _ => { s with loop := s.loop.callFunctor }.apply errno f
      else .ok s
  | .loop a => s.loopStep a

end Connector

end Cobra
