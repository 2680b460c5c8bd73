/-
`TcpConnection` (cobra/tcp_connection.h, tcp_connection.cpp): the state
machine of one connection, with its channel and its two buffers, as the
loop thread runs it.

# The kernel and the user

What the kernel answers to a `write` or a `readv` is an argument of the
function that makes the call: any number of bytes up to the requested
ones, or any errno. The callbacks `connectionCb_` and `messageCb_` are
the user's code, which may send, shut the connection down or retrieve
from the input buffer; what it does is an argument too.

`errno` is that of the `write`. `sendInLoop` looks at it a second time
behind `LOG_SYSERR`, and the statement is taken to leave it alone: that is
so as long as no call that the statement makes fails.

# The log

`obs` is what the outside world sees of the connection, in order: the
bytes the kernel has taken, the calls of callbacks, the functors queued
for callbacks, the `ShutdownWrite`, and the calls the channel makes to
the poller. Log messages are left out.
-/
import Cobra.Buffer
import Cobra.Channel

namespace Cobra

open Machine

-- =========================================================== the kernel

inductive Errno
  | EWOULDBLOCK
  | EPIPE
  | ECONNRESET
  | other (errno : Nat)
  deriving Repr, DecidableEq

/-- The answer to a `write`: up to `n` bytes taken, or an error. -/
inductive WriteResult
  | wrote (n : Nat)
  | failed (errno : Errno)
  deriving Repr, DecidableEq

/-- What a `write` of `len` bytes returns. -/
def WriteResult.on (w : WriteResult) (len : Nat) : Except Errno Nat :=
  match w with
  | .wrote n => .ok (min n len)
  | .failed e => .error e

/-- The answer to a `readv`: the bytes there are (none at the end of the
stream), or an error. -/
inductive ReadResult
  | read (data : List UInt8)
  | failed (errno : Errno)
  deriving Repr, DecidableEq

-- ======================================================= the connection

/-- `TcpConnection::StateE`. -/
inductive StateE
  | kDisconnected
  | kConnecting
  | kConnected
  | kDisconnecting
  deriving Repr, DecidableEq

/-- What the outside world sees. -/
inductive ConnObs
  /-- the kernel has taken these bytes -/
  | accepted (data : List UInt8)
  | shutdownWrite
  /-- `connectionCb_` was called, with `connected()` as given -/
  | connectionCb (connected : Bool)
  | messageCb
  /-- `handleClose` was entered -/
  | handleClose
  | closeCb
  /-- `writeCompleteCb_` was queued -/
  | writeCompleteCb
  /-- `highWaterMarkCb_` was queued -/
  | highWaterMarkCb (len : Nat)
  /-- `Worker::UpdateChannel`, with the interest as given -/
  | updateChannel (events : BitVec 32)
  /-- `Worker::removeChannel` -/
  | removeChannel
  deriving Repr, DecidableEq

/-- The bytes of the entry, if it is about bytes taken. -/
def ConnObs.bytes : ConnObs → List UInt8
  | .accepted data => data
  | _ => []

/-- The bytes the kernel has taken. -/
def accepted (obs : List ConnObs) : List UInt8 := obs.flatMap ConnObs.bytes

/-- The assertions a connection can fail. -/
inductive ConnAssert
  | established
  | close
  /-- `isNoneEvent()` in `Channel::remove` -/
  | remove
  | buffer (a : BufferAssert)
  deriving Repr, DecidableEq

structure TcpConnection where
  state : StateE
  channel : Channel
  inputBuffer : Buffer
  outputBuffer : Buffer
  highWaterMark : Nat
  /-- `writeCompleteCb_` is set -/
  writeCompleteCb : Bool
  /-- `highWaterMarkCb_` is set -/
  highWaterMarkCb : Bool
  obs : List ConnObs
  deriving Repr, DecidableEq

/-- What the user's callbacks do with the connection. -/
inductive UserOp
  | send (data : List UInt8) (w : WriteResult)
  | shutdown
  /-- take up to `len` bytes out of the input buffer -/
  | retrieve (len : Nat)
  deriving Repr, DecidableEq

namespace TcpConnection

/-- The constructor, with the callbacks that may be unset. -/
def create (fd : Nat) (writeCompleteCb highWaterMarkCb : Bool) :
    TcpConnection where
  state := .kConnecting
  channel := .create fd
  inputBuffer := .empty
  outputBuffer := .empty
  highWaterMark := 64 * 1024 * 1024
  writeCompleteCb := writeCompleteCb
  highWaterMarkCb := highWaterMarkCb
  obs := []

def connected (c : TcpConnection) : Bool := c.state == .kConnected

def log (c : TcpConnection) (o : ConnObs) : TcpConnection :=
  { c with obs := c.obs ++ [o] }

def setState (c : TcpConnection) (s : StateE) : TcpConnection :=
  { c with state := s }

/-- A changed interest, and the `update()` that follows it. -/
def setChannel (c : TcpConnection) (ch : Channel) : TcpConnection :=
  { c with channel := ch }.log (.updateChannel ch.events)

-- ============================================================== writing

/-- The direct write of `sendInLoop`, with its locals `nwrote`,
`remaining` and `faultError`; `LOG_SYSERR` leaves `errno` alone. -/
def writeDirectly (c : TcpConnection) (data : List UInt8) (w : WriteResult) :
    TcpConnection × Nat × Nat × Bool :=
  if !c.channel.isWriting && c.outputBuffer.readableBytes == 0 then
    match w.on data.length with
    | .ok nwrote =>
        let c := c.log (.accepted (data.take nwrote))
        let remaining := data.length - nwrote
        if remaining == 0 && c.writeCompleteCb then
          (c.log .writeCompleteCb, nwrote, remaining, false)
        else (c, nwrote, remaining, false)
    | .error e =>
        (c, 0, data.length, e == .EPIPE || e == .ECONNRESET)
  else (c, 0, data.length, false)

/-- `sendInLoop` queues the high water mark callback when `remaining`
bytes more take the output buffer past the mark. -/
def checkHighWaterMark (c : TcpConnection) (remaining : Nat) :
    TcpConnection :=
  let oldLen := c.outputBuffer.readableBytes
  if oldLen + remaining ≥ c.highWaterMark ∧ oldLen < c.highWaterMark
      ∧ c.highWaterMarkCb then
    c.log (.highWaterMarkCb (oldLen + remaining))
  else c

/-- `sendInLoop` asks for write events, unless it has them. -/
def ensureWriting (c : TcpConnection) : TcpConnection :=
  if !c.channel.isWriting then c.setChannel c.channel.enableWriting else c

/-- The end of `sendInLoop`: put the rest of the data into the output
buffer. -/
def bufferRest (c : TcpConnection) (rest : List UInt8) :
    Except ConnAssert TcpConnection := do
  let c := c.checkHighWaterMark rest.length
  let out ← (c.outputBuffer.append rest).mapError .buffer
  .ok { c with outputBuffer := out }.ensureWriting

def sendInLoop (c : TcpConnection) (data : List UInt8) (w : WriteResult) :
    Except ConnAssert TcpConnection :=
  if c.state == .kDisconnected then .ok c
  else
    let (c, nwrote, remaining, faultError) := c.writeDirectly data w
    if !faultError && remaining > 0 then c.bufferRest (data.drop nwrote)
    else .ok c

def shutdownInLoop (c : TcpConnection) : TcpConnection :=
  if !c.channel.isWriting then c.log .shutdownWrite else c

/-- `handleWrite` once the output buffer is empty. -/
def finishWrite (c : TcpConnection) : TcpConnection :=
  let c := c.setChannel c.channel.disableWriting
  let c := if c.writeCompleteCb then c.log .writeCompleteCb else c
  if c.state == .kDisconnecting then c.shutdownInLoop else c

/-- `handleWrite` after the kernel has taken `n` bytes. -/
def takeOutput (c : TcpConnection) (n : Nat) :
    Except ConnAssert TcpConnection := do
  let out ← (c.outputBuffer.retrieve n).mapError .buffer
  .ok { c.log (.accepted (c.outputBuffer.content.take n)) with
    outputBuffer := out }

def handleWrite (c : TcpConnection) (w : WriteResult) :
    Except ConnAssert TcpConnection :=
  if c.channel.isWriting then
    match w.on c.outputBuffer.readableBytes with
    | .ok n =>
        if n > 0 then do
          let c ← c.takeOutput n
          if c.outputBuffer.readableBytes == 0 then .ok c.finishWrite
          else .ok c
        else .ok c
    | .error _ => .ok c
  else .ok c

-- ========================================================== user's calls

/-- `send`, called on the loop thread. -/
def send (c : TcpConnection) (data : List UInt8) (w : WriteResult) :
    Except ConnAssert TcpConnection :=
  if c.state == .kConnected then c.sendInLoop data w else .ok c

/-- `shutdown`, called on the loop thread. -/
def shutdown (c : TcpConnection) : TcpConnection :=
  if c.state == .kConnected then (c.setState .kDisconnecting).shutdownInLoop
  else c

def userOp (c : TcpConnection) : UserOp → Except ConnAssert TcpConnection
  | .send data w => c.send data w
  | .shutdown => .ok c.shutdown
  | .retrieve len => do
      let buf ← (c.inputBuffer.retrieve
        (min len c.inputBuffer.readableBytes)).mapError .buffer
      .ok { c with inputBuffer := buf }

/-- A call of `connectionCb_`, in which the user does `ops`. -/
def callConnectionCb (c : TcpConnection) (ops : List UserOp) :
    Except ConnAssert TcpConnection :=
  run userOp (c.log (.connectionCb c.connected)) ops

/-- A call of `messageCb_`, in which the user does `ops`. -/
def callMessageCb (c : TcpConnection) (ops : List UserOp) :
    Except ConnAssert TcpConnection :=
  run userOp (c.log .messageCb) ops

-- ============================================================= handlers

/-- `setState(kDisconnected)` and `channel_->disableAll()`. -/
def disconnect (c : TcpConnection) : TcpConnection :=
  (c.setState .kDisconnected).setChannel c.channel.disableAll

/-- `handleClose`; the user does `ops` in `connectionCb_`. -/
def handleClose (c : TcpConnection) (ops : List UserOp) :
    Except ConnAssert TcpConnection := do
  let c := c.log .handleClose
  require (c.state = .kConnected ∨ c.state = .kDisconnecting) .close
  let c ← c.disconnect.callConnectionCb ops
  .ok (c.log .closeCb)

/-- `handleError` reads the socket's error and logs it. -/
def handleError (c : TcpConnection) : TcpConnection := c

/-- The answers and the user code one event meets. -/
structure EventInput where
  read : ReadResult
  write : WriteResult
  onMessage : List UserOp
  onConnection : List UserOp
  deriving Repr, DecidableEq

/-- `handleRead`. -/
def handleRead (c : TcpConnection) (i : EventInput) :
    Except ConnAssert TcpConnection :=
  match i.read with
  | .read stream => do
      let data := stream.take c.inputBuffer.readvSize
      let buf ← (c.inputBuffer.readFd data).mapError .buffer
      let c := { c with inputBuffer := buf }
      if data.length > 0 then c.callMessageCb i.onMessage
      else c.handleClose i.onConnection
  | .failed _ => .ok c.handleError

/-- `Channel::handleEventWithGuard`, with the connection's handlers. -/
def handleEventWithGuard (c : TcpConnection) (i : EventInput) :
    Except ConnAssert TcpConnection := do
  let revents := c.channel.revents
  let c ← guarded (hasAny revents POLLHUP && !hasAny revents POLLIN)
    (fun c => c.handleClose i.onConnection) c
  let c ← guarded (hasAny revents (POLLERR ||| POLLNVAL))
    (fun c => .ok c.handleError) c
  let c ← guarded (hasAny revents (POLLIN ||| POLLPRI ||| POLLRDHUP))
    (fun c => c.handleRead i) c
  guarded (hasAny revents POLLOUT) (fun c => c.handleWrite i.write) c

-- ======================================================== begin and end

/-- `ConnectionEstablished`; the user does `ops` in `connectionCb_`. -/
def ConnectionEstablished (c : TcpConnection) (ops : List UserOp) :
    Except ConnAssert TcpConnection := do
  require (c.state = .kConnecting) .established
  let c := c.setState .kConnected
  let c := c.setChannel c.channel.enableReading
  c.callConnectionCb ops

/-- A new connection after a `ConnectionEstablished` in which the user
does nothing. -/
def established (fd : Nat) (writeCompleteCb highWaterMarkCb : Bool) :
    TcpConnection :=
  let c := create fd writeCompleteCb highWaterMarkCb
  ((c.setState .kConnected).setChannel c.channel.enableReading).log
    (.connectionCb true)

theorem ConnectionEstablished_create (fd : Nat)
    (writeCompleteCb highWaterMarkCb : Bool) :
    (create fd writeCompleteCb highWaterMarkCb).ConnectionEstablished []
      = .ok (established fd writeCompleteCb highWaterMarkCb) := rfl

/-- The first half of `ConnectionDestroyed`: a connection that is still
up is taken down. -/
def takeDown (c : TcpConnection) (ops : List UserOp) :
    Except ConnAssert TcpConnection :=
  if c.state == .kConnected then c.disconnect.callConnectionCb ops
  else .ok c

/-- `Channel::remove`. -/
def removeChannel (c : TcpConnection) : Except ConnAssert TcpConnection := do
  require (c.channel.isNoneEvent = true) .remove
  .ok (c.log .removeChannel)

/-- `ConnectionDestroyed`; the user does `ops` in `connectionCb_`. -/
def ConnectionDestroyed (c : TcpConnection) (ops : List UserOp) :
    Except ConnAssert TcpConnection := do
  let c ← c.takeDown ops
  c.removeChannel

-- ====================================================== the output side

/-- What happens to the output side of a connection. -/
inductive OutputAct
  | sendInLoop (data : List UInt8) (w : WriteResult)
  | handleWrite (w : WriteResult)
  /-- some thread's `shutdown`, up to the functor it hands over -/
  | shutdown
  | shutdownInLoop
  deriving Repr, DecidableEq

def outputStep (c : TcpConnection) :
    OutputAct → Except ConnAssert TcpConnection
  | .sendInLoop data w => c.sendInLoop data w
  | .handleWrite w => c.handleWrite w
  | .shutdown =>
      if c.state == .kConnected then .ok (c.setState .kDisconnecting)
      else .ok c
  | .shutdownInLoop => .ok c.shutdownInLoop

end TcpConnection

end Cobra
