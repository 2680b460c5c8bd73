/-
Sequences of calls on the channels of one loop (cobra/channel.h,
channel.cpp): the interest operations, each of which ends in
`UpdateChannel`, and `remove`, which ends in `removeChannel`.

# Which channels

The channels are objects with descriptors of their own: `fds` gives the
descriptor of each, and is injective. A descriptor stays open while it
is registered, so the kernel's epoll set changes by `epoll_ctl` only.

# Two machines

- `EpollRun` is `EPollPoller` alone, with every `epoll_ctl` it issues
  logged together with what the kernel knew of the descriptor.
- `PollerRun` is either poller, driven by the calls that keep to the
  rules of `Channel`: `remove` needs an empty interest, and an update
  since the last `remove`. A `remove` against the rules is not made.
  `Stage` is what has been called for a channel so far; it is history,
  and the same for both pollers.
-/
import Cobra.Poller

namespace Cobra

open Machine

-- ============================================================ the calls

inductive InterestOp
  | enableReading
  | enableWriting
  | disableWriting
  | disableAll
  deriving Repr, DecidableEq

def InterestOp.apply : InterestOp → Channel → Channel
  | .enableReading, ch => ch.enableReading
  | .enableWriting, ch => ch.enableWriting
  | .disableWriting, ch => ch.disableWriting
  | .disableAll, ch => ch.disableAll

inductive ChannelCall
  | interest (c : Nat) (op : InterestOp)
  | remove (c : Nat)
  deriving Repr, DecidableEq

namespace ChannelMem

/-- The channel objects as their constructors leave them. -/
def create (fds : Nat ↪ Nat) : ChannelMem := fun c => .create (fds c)

/-- The interest operation, before its `update()`. -/
def interest (m : ChannelMem) (c : Nat) (op : InterestOp) : ChannelMem :=
  m.setEvents c (op.apply (m c)).events

end ChannelMem

-- ========================================================== epoll, logged

/-- The operation `EPollPoller::UpdateChannel` passes to `update`. -/
def EPollPoller.updateOp (ch : Channel) : EpollOp :=
  if ch.index = kNew ∨ ch.index = kDeleted then .EPOLL_CTL_ADD
  else if ch.isNoneEvent then .EPOLL_CTL_DEL
  else .EPOLL_CTL_MOD

/-- The operation `EPollPoller::removeChannel` passes to `update`, if it
calls it. -/
def EPollPoller.removeOp (ch : Channel) : Option EpollOp :=
  if ch.index = kAdded then some .EPOLL_CTL_DEL else none

/-- One `epoll_ctl`, and whether the descriptor was in the set. -/
structure EpollCtl where
  op : EpollOp
  fd : Nat
  present : Bool
  deriving Repr, DecidableEq

/-- `ADD` on an absent descriptor, `MOD` and `DEL` on a present one. -/
def EpollCtl.legal (e : EpollCtl) : Bool :=
  match e.op with
  | .EPOLL_CTL_ADD => !e.present
  | .EPOLL_CTL_MOD => e.present
  | .EPOLL_CTL_DEL => e.present

structure EpollRun where
  poller : EPollPoller
  mem : ChannelMem
  /-- history: the calls of `epoll_ctl` -/
  ctls : List EpollCtl

namespace EpollRun

def create (fds : Nat ↪ Nat) : EpollRun where
  poller := ⟨(∅ : Finmap _), (∅ : Finmap _)⟩
  mem := .create fds
  ctls := []

/-- The log entry for an `epoll_ctl` on the channel's descriptor. -/
def entry (s : EpollRun) (c : Nat) (op : EpollOp) : EpollCtl :=
  ⟨op, (s.mem c).fd, (Finmap.lookup (s.mem c).fd s.poller.epoll).isSome⟩

def step (s : EpollRun) : ChannelCall → Except PollerAssert EpollRun
  | .interest c op => do
      let m := s.mem.interest c op
      let (p, m') ← s.poller.UpdateChannel m c
      .ok { poller := p
            mem := m'
            ctls := s.ctls ++ [s.entry c (EPollPoller.updateOp (m c))] }
  | .remove c => do
      let (p, m') ← s.poller.removeChannel s.mem c
      .ok { poller := p
            mem := m'
            ctls := s.ctls
              ++ ((EPollPoller.removeOp (s.mem c)).map (s.entry c)).toList }

end EpollRun

-- ========================================================== either poller

/-- What has been called for a channel. -/
inductive Stage
  /-- nothing yet -/
  | fresh
  /-- one update since the registration, with an empty interest -/
  | blank
  /-- the last update had an interest -/
  | on
  /-- the last update emptied the interest, of a channel that was
  registered already -/
  | off
  /-- removed -/
  | gone
  deriving Repr, DecidableEq

/-- The stage after an update. -/
def Stage.update (st : Stage) (none : Bool) : Stage :=
  match st, none with
  | _, false => .on
  | .fresh, true => .blank
  | .gone, true => .blank
  | _, true => .off

/-- The channel has been updated since it was last removed. -/
def Stage.updated (st : Stage) : Bool := st != .fresh && st != .gone

structure PollerRun (P : Type) where
  poller : P
  mem : ChannelMem
  /-- history: the calls made for each channel -/
  stage : Nat → Stage

namespace PollerRun

variable {P : Type}

def create (p : P) (fds : Nat ↪ Nat) : PollerRun P where
  poller := p
  mem := .create fds
  stage := fun _ => .fresh

/-- `Channel::remove` may be called. -/
def mayRemove (s : PollerRun P) (c : Nat) : Bool :=
  (s.mem c).isNoneEvent && (s.stage c).updated

/-- The calls, on a poller with the two operations given. -/
def step (UpdateChannel removeChannel :
      P → ChannelMem → Nat → Except PollerAssert (P × ChannelMem))
    (s : PollerRun P) : ChannelCall → Except PollerAssert (PollerRun P)
  | .interest c op => do
      let m := s.mem.interest c op
      let (p, m') ← UpdateChannel s.poller m c
      .ok { poller := p
            mem := m'
            stage := Function.update s.stage c
              ((s.stage c).update (m c).isNoneEvent) }
  | .remove c =>
      if s.mayRemove c then do
        let (p, m') ← removeChannel s.poller s.mem c
        .ok { poller := p
              mem := m'
              stage := Function.update s.stage c .gone }
      else .ok s

end PollerRun

/-- The kernel is asked to watch the descriptor for the events, by
epoll. -/
def EPollPoller.asks (p : EPollPoller) (fd : Nat) (mask : BitVec 32) : Prop :=
  mask ≠ kNoneEvent ∧ (Finmap.lookup fd p.epoll).map Prod.fst = some mask

/-- The kernel is asked to watch the descriptor for the events, by poll(2):
an entry with a negative descriptor is ignored. -/
def PollPoller.asks (p : PollPoller) (fd : Nat) (mask : BitVec 32) : Prop :=
  mask ≠ kNoneEvent
    ∧ ∃ pfd ∈ p.pollfds, pfd.fd = fd ∧ pfd.events.signExtend 32 = mask

/-- The calls on `EPollPoller`. -/
def epollStep :
    PollerRun EPollPoller → ChannelCall → Except PollerAssert (PollerRun EPollPoller) :=
  PollerRun.step EPollPoller.UpdateChannel EPollPoller.removeChannel

/-- The calls on `PollPoller`. -/
def pollStep :
    PollerRun PollPoller → ChannelCall → Except PollerAssert (PollerRun PollPoller) :=
  PollerRun.step PollPoller.UpdateChannel PollPoller.removeChannel

/-- The two pollers, side by side on the same channels. -/
def sideBySide (fds : Nat ↪ Nat) :
    PollerRun EPollPoller × PollerRun PollPoller :=
  (.create ⟨(∅ : Finmap _), (∅ : Finmap _)⟩ fds,
    .create ⟨[], (∅ : Finmap _)⟩ fds)

end Cobra
