/-
The life of an established connection on its loop thread: poll events
and the handlers they fan out to, and the sends and shutdowns in
between.

An event is delivered in two steps. The poller reports it while the
channel asks for events at all, and sets `revents_`; the loop dispatches
it when the channel's turn comes. User code runs between the steps and
inside the callbacks of a dispatch; functors that other threads' `send`
and `shutdown` have queued run between the steps.
-/
import Cobra.TcpConnection

namespace Cobra

open Machine

structure ConnEvents where
  conn : TcpConnection
  /-- an event of the channel is still to be dispatched -/
  polled : Bool
  deriving Repr, DecidableEq

inductive EventAct
  /-- the poller reports `revents` for the channel -/
  | poll (revents : BitVec 32)
  /-- `Channel::handleEvent` -/
  | handleEvent (i : TcpConnection.EventInput)
  /-- user code on the loop thread -/
  | user (op : UserOp)
  /-- `sendInLoop`, `handleWrite`, another thread's `shutdown`, or the
  functor it has queued -/
  | output (a : TcpConnection.OutputAct)
  deriving Repr, DecidableEq

namespace ConnEvents

/-- A connection just established. -/
def create (fd : Nat) (writeCompleteCb highWaterMarkCb : Bool) :
    ConnEvents :=
  ⟨.established fd writeCompleteCb highWaterMarkCb, false⟩

/-- `Channel::set_revents`. -/
def setRevents (c : TcpConnection) (revents : BitVec 32) : TcpConnection :=
  { c with channel := { c.channel with revents := revents } }

def step (s : ConnEvents) : EventAct → Except ConnAssert ConnEvents
  | .poll revents =>
      if !s.polled && !s.conn.channel.isNoneEvent then
        .ok ⟨setRevents s.conn revents, true⟩
      else .ok s
  | .handleEvent i =>
      if s.polled then do
        let c ← s.conn.handleEventWithGuard i
        .ok ⟨c, false⟩
      else .ok s
  | .user op => do
      let c ← s.conn.userOp op
      .ok { s with conn := c }
  | .output a => do
      let c ← s.conn.outputStep a
      .ok { s with conn := c }

end ConnEvents

end Cobra
