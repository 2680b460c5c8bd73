/-
Two connections that face each other, a client's and a server's, each on
the loop of its own process, with the network between them.

# The network

What the kernel has taken from one side arrives at the other, in order.
The bytes in flight to a side are those its peer's kernel has taken and
`readv` has not returned yet, so the network needs no state of its own:
`accepted` of the peer's log is all that was ever put in, and `received`
how far the side has come. A `readv` that finds nothing in flight returns
zero if the peer has called `ShutdownWrite`, and `EWOULDBLOCK` if not; a
`write` after the half-close fails with `EPIPE`. Otherwise both may be cut
short or fail, as the kernel pleases.

# The accounts

`sent` is what the side's `sendInLoop`s have taken on: all their data, but
for those of a disconnected connection and those a failed direct write
makes `sendInLoop` give up. `received` is what `readv` has returned,
`consumed` what the user has retrieved of it, and `ended` says that a
`readv` has returned zero. The functions below are those of `ConnEvents`,
which keep these accounts besides.

# The reports

As in `ConnEvents` a step takes any report of a channel that asks for
events. Those that a poller can really make are `Reported`.
-/
import Cobra.ConnEvents

namespace Cobra

open Machine

namespace TcpConnection

/-- What `sendInLoop` takes on of its data. -/
def taken (c : TcpConnection) (data : List UInt8) (w : WriteResult) :
    List UInt8 :=
  if c.state == .kDisconnected || (c.writeDirectly data w).2.2.2 then []
  else data

end TcpConnection

/-- One side: its connection, and the accounts of its streams. -/
structure Peer where
  events : ConnEvents
  sent : List UInt8
  received : List UInt8
  consumed : List UInt8
  ended : Bool
  deriving Repr, DecidableEq

namespace Peer

open TcpConnection

def create (fd : Nat) (writeCompleteCb highWaterMarkCb : Bool) : Peer where
  events := .create fd writeCompleteCb highWaterMarkCb
  sent := []
  received := []
  consumed := []
  ended := false

def conn (p : Peer) : TcpConnection := p.events.conn

def setConn (p : Peer) (c : TcpConnection) : Peer :=
  { p with events := { p.events with conn := c } }

-- =========================================================== the kernel

/-- All the bytes the kernel has taken from this side. -/
def output (p : Peer) : List UInt8 := accepted p.conn.obs

/-- The side has called `ShutdownWrite`. -/
def shut (p : Peer) : Bool := p.conn.obs.contains .shutdownWrite

/-- What a `write` returns that would return `w` before the half-close. -/
def writeAnswer (p : Peer) (w : WriteResult) : WriteResult :=
  if p.shut then .failed .EPIPE else w

/-- What a `readv` returns that finds `arrived`: `r` says how many bytes
come at once, or which error there is. -/
def readAnswer (arrived : List UInt8) (eof : Bool) : ReadResult → ReadResult
  | .failed e => .failed e
  | .read r =>
      if arrived = [] then
        if eof then .read [] else .failed .EWOULDBLOCK
      else .read (arrived.take (max 1 r.length))

-- ============================================================== writing

def sendInLoop (p : Peer) (data : List UInt8) (w : WriteResult) :
    Except ConnAssert Peer := do
  let w := p.writeAnswer w
  let c ← p.conn.sendInLoop data w
  .ok { p.setConn c with sent := p.sent ++ p.conn.taken data w }

def handleWrite (p : Peer) (w : WriteResult) : Except ConnAssert Peer := do
  let c ← p.conn.handleWrite (p.writeAnswer w)
  .ok (p.setConn c)

-- ========================================================== user's calls

def userOp (p : Peer) : UserOp → Except ConnAssert Peer
  | .send data w =>
      if p.conn.state == .kConnected then p.sendInLoop data w else .ok p
  | .shutdown => .ok (p.setConn p.conn.shutdown)
  | .retrieve len => do
      let c ← p.conn.userOp (.retrieve len)
      .ok { p.setConn c with
        consumed := p.consumed ++ p.conn.inputBuffer.content.take len }

def callConnectionCb (p : Peer) (ops : List UserOp) :
    Except ConnAssert Peer :=
  run userOp (p.setConn (p.conn.log (.connectionCb p.conn.connected))) ops

def callMessageCb (p : Peer) (ops : List UserOp) : Except ConnAssert Peer :=
  run userOp (p.setConn (p.conn.log .messageCb)) ops

-- ============================================================= handlers

def handleClose (p : Peer) (ops : List UserOp) : Except ConnAssert Peer := do
  let p := p.setConn (p.conn.log .handleClose)
  require (p.conn.state = .kConnected ∨ p.conn.state = .kDisconnecting) .close
  let p ← (p.setConn p.conn.disconnect).callConnectionCb ops
  .ok (p.setConn (p.conn.log .closeCb))

/-- `readFd` has put `data` into the input buffer, or has found the end
of the stream. -/
def takeIn (p : Peer) (data : List UInt8) (buf : Buffer) : Peer :=
  let c := { p.conn with inputBuffer := buf }
  { p.setConn c with
    received := p.received ++ data
    ended := p.ended || data.isEmpty }

def handleRead (p : Peer) (i : EventInput) : Except ConnAssert Peer :=
  match i.read with
  | .read stream => do
      let data := stream.take p.conn.inputBuffer.readvSize
      let buf ← (p.conn.inputBuffer.readFd data).mapError .buffer
      let p := p.takeIn data buf
      if data.length > 0 then p.callMessageCb i.onMessage
      else p.handleClose i.onConnection
  | .failed _ => .ok p

def handleEventWithGuard (p : Peer) (i : EventInput) :
    Except ConnAssert Peer := do
  let revents := p.conn.channel.revents
  let p ← guarded (hasAny revents POLLHUP && !hasAny revents POLLIN)
    (fun p => p.handleClose i.onConnection) p
  let p ← guarded (hasAny revents (POLLIN ||| POLLPRI ||| POLLRDHUP))
    (fun p => p.handleRead i) p
  guarded (hasAny revents POLLOUT) (fun p => p.handleWrite i.write) p

def outputStep (p : Peer) : OutputAct → Except ConnAssert Peer
  | .sendInLoop data w => p.sendInLoop data w
  | .handleWrite w => p.handleWrite w
  | .shutdown => do
      let c ← p.conn.outputStep .shutdown
      .ok (p.setConn c)
  | .shutdownInLoop => .ok (p.setConn p.conn.shutdownInLoop)

/-- A step of the side, which finds `arrived` when it reads. -/
def step (p : Peer) (arrived : List UInt8) (eof : Bool) :
    EventAct → Except ConnAssert Peer
  | .poll revents =>
      if !p.events.polled && !p.conn.channel.isNoneEvent then
        .ok { p with
          events := ⟨ConnEvents.setRevents p.conn revents, true⟩ }
      else .ok p
  | .handleEvent i =>
      if p.events.polled then do
        let p ← p.handleEventWithGuard
          { i with read := readAnswer arrived eof i.read }
        .ok { p with events := ⟨p.conn, false⟩ }
      else .ok p
  | .user op => p.userOp op
  | .output a => p.outputStep a

/-- What poll can report of a side that finds `arrived`: events that its
channel asks for, errors and hang-ups, and `POLLIN` only if there is
something to read. -/
def MayReport (p : Peer) (arrived : List UInt8) (eof : Bool)
    (revents : BitVec 32) : Prop :=
  revents &&& reportable p.conn.channel.events = revents
    ∧ (hasAny revents POLLIN = true → arrived ≠ [] ∨ eof = true)

end Peer

-- ============================================================== the link

inductive Side
  | client
  | server
  deriving Repr, DecidableEq

def Side.other : Side → Side
  | .client => .server
  | .server => .client

structure Link where
  client : Peer
  server : Peer
  deriving Repr, DecidableEq

namespace Link

/-- Two established connections. -/
def create (fd : Side → Nat) (writeCompleteCb highWaterMarkCb : Side → Bool) :
    Link where
  client := .create (fd .client) (writeCompleteCb .client)
    (highWaterMarkCb .client)
  server := .create (fd .server) (writeCompleteCb .server)
    (highWaterMarkCb .server)

def peer (l : Link) : Side → Peer
  | .client => l.client
  | .server => l.server

def setPeer (l : Link) (s : Side) (p : Peer) : Link :=
  match s with
  | .client => { l with client := p }
  | .server => { l with server := p }

/-- The bytes on their way to the side. -/
def inFlight (l : Link) (s : Side) : List UInt8 :=
  (l.peer s.other).output.drop (l.peer s).received.length

/-- One of the sides takes a step. -/
def step (l : Link) (a : Side × EventAct) : Except ConnAssert Link := do
  let p ← (l.peer a.1).step (l.inFlight a.1) (l.peer a.1.other).shut a.2
  .ok (l.setPeer a.1 p)

/-- The action is a report that poll can make, or no report. -/
def Reported (l : Link) (a : Side × EventAct) : Prop :=
  ∀ revents, a.2 = .poll revents →
    (l.peer a.1).MayReport (l.inFlight a.1) (l.peer a.1.other).shut revents

end Link

end Cobra
