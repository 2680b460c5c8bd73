/-
A connection and the poller of its loop, from the accept to the teardown
by `Server` (cobra/server.cpp): the calls the connection's channel makes
reach the poller, together with those of all the other channels of the
loop.

The connection logs the calls its channel makes (`updateChannel`,
`removeChannel`), and `replay` makes them. The channel object the poller
works on is the one at the address `self`; its interest and descriptor
are those of the connection's channel, and its index is the poller's.

`ConnectionDestroyed` is what both ends of a connection come to: the
functor that `Server::RemoveConnectionInLoop` queues after `closeCb_`,
and the loop of `Server::~Server` over the connections it still has,
whatever state they are in.

There is one connection and no list of active channels here, so that the
assertion of `Worker::removeChannel` on `activeChannels_` is left out.
It is in Cobra.ServerLoops.
-/
import Cobra.ConnEvents
import Cobra.Poller

namespace Cobra

open Machine

/-- What can stop the process. -/
inductive NetAssert
  | conn (a : ConnAssert)
  | poller (a : PollerAssert)
  deriving Repr, DecidableEq

structure ConnPoller where
  life : ConnEvents
  poller : Poller
  chans : ChannelMem
  /-- the address of the connection's channel -/
  self : Nat

inductive NetAct
  /-- `ConnectionEstablished`, with what the user does in
  `connectionCb_` -/
  | ConnectionEstablished (ops : List UserOp)
  /-- an event or a call of the connection -/
  | life (a : EventAct)
  /-- another channel changes its interest -/
  | UpdateChannel (c : Nat) (events : BitVec 32)
  /-- another channel is removed -/
  | removeChannel (c : Nat)
  deriving Repr, DecidableEq

namespace ConnPoller

/-- A call that a channel makes to the poller of its loop. -/
def call (self : Nat) (pm : Poller × ChannelMem) :
    ConnObs → Except PollerAssert (Poller × ChannelMem)
  | .updateChannel events =>
      pm.1.UpdateChannel (pm.2.setEvents self events) self
  | .removeChannel => pm.1.removeChannel pm.2 self
  | _ => .ok pm

/-- The connection goes on as `life`: make the calls of the entries that
its log has more. -/
def replay (n : ConnPoller) (life : ConnEvents) :
    Except NetAssert ConnPoller := do
  let new := life.conn.obs.drop n.life.conn.obs.length
  let pm ← (run (call n.self) (n.poller, n.chans) new).mapError .poller
  .ok { n with life := life, poller := pm.1, chans := pm.2 }

/-- A connection just accepted, on a loop with a new poller; `fds` are the
descriptors of all the channels there will be. -/
def create (usePoll : Bool) (fds : Nat → Nat) (self : Nat)
    (writeCompleteCb highWaterMarkCb : Bool) : ConnPoller where
  life := ⟨.create (fds self) writeCompleteCb highWaterMarkCb, false⟩
  poller := .newDefaultPoller usePoll
  chans := fun c => .create (fds c)
  self := self

/-- `ConnectionEstablished` has run. -/
def isEstablished (n : ConnPoller) : Bool := n.life.conn.state != .kConnecting

def step (n : ConnPoller) : NetAct → Except NetAssert ConnPoller
  | .ConnectionEstablished ops => do
      let c ← (n.life.conn.ConnectionEstablished ops).mapError .conn
      n.replay { n.life with conn := c }
  | .life a =>
      if n.isEstablished then do
        let life ← (n.life.step a).mapError .conn
        n.replay life
      else .ok n
  | .UpdateChannel c events =>
      if c ≠ n.self then do
        let pm ← (n.poller.UpdateChannel (n.chans.setEvents c events)
          c).mapError .poller
        .ok { n with poller := pm.1, chans := pm.2 }
      else .ok n
  | .removeChannel c =>
      if c ≠ n.self then do
        let pm ← (n.poller.removeChannel n.chans c).mapError .poller
        .ok { n with poller := pm.1, chans := pm.2 }
      else .ok n

/-- `ConnectionDestroyed`, with what the user does in `connectionCb_`. -/
def ConnectionDestroyed (n : ConnPoller) (ops : List UserOp) :
    Except NetAssert ConnPoller := do
  let c ← (n.life.conn.ConnectionDestroyed ops).mapError .conn
  n.replay { n.life with conn := c }

end ConnPoller

end Cobra
