/-
A connection shared between its loop thread and one client thread that
sends and then shuts the connection down, while the peer stays open.

The client's `send` and `shutdown` look at `state_` on the client's
thread and hand their work over with `runInLoop`, which queues it; each
is one step. The loop thread alternates between event handlers and
batches of functors.

The kernel takes as many bytes as it has room for. After the connection's
own `ShutdownWrite` every write fails with `EPIPE`; before that, the only
failure is that there is no room.
-/
import Cobra.TcpConnection
import Cobra.Worker

namespace Cobra

open Machine

/-- The functors `send` and `shutdown` hand to the loop. -/
inductive ConnFunctor
  | sendInLoop (data : List UInt8)
  | shutdownInLoop
  deriving Repr, DecidableEq

/-- The connection, its loop's queue, and the messages whose `send` found
the connection up. -/
structure ConnThreads where
  conn : TcpConnection
  queue : FunctorQueue ConnFunctor
  sent : List (List UInt8)
  deriving Repr, DecidableEq

inductive ConnAct
  /-- `send`, on the client's thread -/
  | send (data : List UInt8)
  /-- `shutdown`, on the client's thread -/
  | shutdown
  /-- `doPendingFunctors` swaps -/
  | swap
  /-- `doPendingFunctors` calls the next functor -/
  | call (w : WriteResult)
  | handleWrite (w : WriteResult)
  | handleRead (r : ReadResult)
  deriving Repr, DecidableEq

namespace ConnThreads

/-- A connection just established. -/
def create (fd : Nat) (writeCompleteCb highWaterMarkCb : Bool) :
    ConnThreads :=
  ⟨.established fd writeCompleteCb highWaterMarkCb, .empty, []⟩

/-- What the kernel really answers to a write. -/
def answer (c : TcpConnection) (w : WriteResult) : WriteResult :=
  if .shutdownWrite ∈ c.obs then .failed .EPIPE
  else
    match w with
    | .wrote n => .wrote n
    | .failed _ => .failed .EWOULDBLOCK

/-- The functor, called on the loop thread. -/
def invoke (c : TcpConnection) (w : WriteResult) :
    ConnFunctor → Except ConnAssert TcpConnection
  | .sendInLoop data => c.sendInLoop data (answer c w)
  | .shutdownInLoop => .ok c.shutdownInLoop

/-- The loop thread runs `f` on the connection. -/
def inLoop (s : ConnThreads)
    (f : TcpConnection → Except ConnAssert TcpConnection) :
    Except ConnAssert ConnThreads := do
  let c ← f s.conn
  .ok { s with conn := c }

def step (s : ConnThreads) : ConnAct → Except ConnAssert ConnThreads
  | .send data =>
      if s.conn.state == .kConnected then
        .ok { s with
          queue := s.queue.push (.sendInLoop data)
          sent := s.sent ++ [data] }
      else .ok s
  | .shutdown =>
      if s.conn.state == .kConnected then
        .ok { s with
          conn := s.conn.setState .kDisconnecting
          queue := s.queue.push .shutdownInLoop }
      else .ok s
  | .swap =>
      if s.queue.functors.isEmpty then .ok { s with queue := s.queue.swap }
      else .ok s
  | .call w =>
      match s.queue.functors with
      | f :: rest =>
          { s with queue := { s.queue with functors := rest } }.inLoop
            (fun c => invoke c w f)
      | [] => .ok s
  | .handleWrite w =>
      if s.queue.functors.isEmpty then
        s.inLoop (fun c => c.handleWrite (answer c w))
      else .ok s
  | .handleRead r =>
      -- the peer stays open: there is something to read, or an error
      if s.queue.functors.isEmpty && r != .read [] then
        s.inLoop (fun c => c.handleRead ⟨r, .wrote 0, [], []⟩)
      else .ok s

end ConnThreads

end Cobra
