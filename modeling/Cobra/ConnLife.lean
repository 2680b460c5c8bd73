/-
The whole life of a connection on its loop thread, from the constructor
to `ConnectionDestroyed`, one function at a time.

# Callbacks

What the user's code does in a callback is taken one operation at a
time. `messageCb_` is the last thing `handleRead` does, and
`connectionCb_` the last thing `ConnectionEstablished` does, so the
operations in them are the steps that follow. `handleClose` and
`ConnectionDestroyed` go on after theirs, which run on a connection that
is down already, so there the operations stay inside.

# Calls of `shutdownInLoop`

Each step then calls `shutdownInLoop` at most once, as its last act.
`shutdownCall` is the connection it is called on: of the functor, of the
user's `shutdown`, and of a `handleWrite` that has written all there
was.
-/
import Cobra.TcpConnection

namespace Cobra

open Machine

inductive LifeAct
  /-- and then what the user does in `connectionCb_` -/
  | ConnectionEstablished
  /-- user code on the loop thread -/
  | user (op : UserOp)
  /-- `sendInLoop`, `handleWrite`, another thread's `shutdown`, or the
  functor it has queued -/
  | output (a : TcpConnection.OutputAct)
  /-- and then what the user does in `messageCb_`, if it is called -/
  | handleRead (read : ReadResult) (onConnection : List UserOp)
  | handleClose (onConnection : List UserOp)
  | ConnectionDestroyed (onConnection : List UserOp)
  deriving Repr, DecidableEq

namespace TcpConnection

def lifeStep (c : TcpConnection) :
    LifeAct → Except ConnAssert TcpConnection
  | .ConnectionEstablished => c.ConnectionEstablished []
  | .user op => c.userOp op
  | .output a => c.outputStep a
  | .handleRead read ops => c.handleRead ⟨read, .wrote 0, [], ops⟩
  | .handleClose ops => c.handleClose ops
  | .ConnectionDestroyed ops => c.ConnectionDestroyed ops

/-- `finishWrite` before it looks at the state. -/
def stopWriting (c : TcpConnection) : TcpConnection :=
  let c := c.setChannel c.channel.disableWriting
  if c.writeCompleteCb then c.log .writeCompleteCb else c

theorem finishWrite_eq (c : TcpConnection) : c.finishWrite
    = if c.stopWriting.state == .kDisconnecting then
        c.stopWriting.shutdownInLoop
      else c.stopWriting := rfl

/-- The connection on which `handleWrite` calls `shutdownInLoop`, if it
does. -/
def handleWriteCall (c : TcpConnection) (w : WriteResult) :
    Option TcpConnection :=
  if c.channel.isWriting then
    match w.on c.outputBuffer.readableBytes with
    | .ok n =>
        if n > 0 then
          match c.takeOutput n with
          | .ok c =>
              if c.outputBuffer.readableBytes == 0
                  && c.stopWriting.state == .kDisconnecting then
                some c.stopWriting
              else none
          | .error _ => none
        else none
    | .error _ => none
  else none

/-- The connection on which the step calls `shutdownInLoop`, if it
does. -/
def shutdownCall (c : TcpConnection) : LifeAct → Option TcpConnection
  | .user .shutdown =>
      if c.state == .kConnected then some (c.setState .kDisconnecting)
      else none
  | .output .shutdownInLoop => some c
  | .output (.handleWrite w) => c.handleWriteCall w
  | _ => none

end TcpConnection

end Cobra
