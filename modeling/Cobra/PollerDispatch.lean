/-
The two pollers on the same channels, with polls: the calls of
`sideBySide`, and between them polls of both while the descriptors have
the same bits.

A kernel that is asked with poll(2) reports of an entry what its `events`
ask for, an error or a hang-up, of the bits its descriptor has; what
epoll_wait(2) reports is `EpollSet.wait`. The bits fit a `short`.
-/
import Cobra.EpollPoll

namespace Cobra

open Machine

/-- The `revents` poll(2) finds at each position, when the descriptors have
the bits `ready`. -/
def PollPoller.answer (p : PollPoller) (ready : Nat → BitVec 16) (i : Nat) :
    BitVec 16 :=
  match p.pollfds[i]? with
  | some pfd =>
      ready pfd.fd.toNat &&& (pfd.events ||| (POLLERR ||| POLLHUP).truncate 16)
  | none => 0#16

structure BothPollers where
  epoll : PollerRun EPollPoller
  poll : PollerRun PollPoller
  /-- `events_` of `EPollPoller` -/
  events : List EpollEvent
  epollActive : List Nat
  pollActive : List Nat

inductive BothAct
  | call (a : ChannelCall)
  /-- both poll, while the descriptors have the bits `ready`; epoll's
  kernel goes through them in the given order -/
  | poll (order : List Nat) (ready : Nat → BitVec 16)

namespace BothPollers

def create (fds : Nat ↪ Nat) : BothPollers where
  epoll := (sideBySide fds).1
  poll := (sideBySide fds).2
  events := List.replicate kInitEventListSize ⟨0#32, 0⟩
  epollActive := []
  pollActive := []

/-- The two pollers, as the calls see them. -/
def pair (s : BothPollers) : PollerRun EPollPoller × PollerRun PollPoller :=
  (s.epoll, s.poll)

def step (s : BothPollers) : BothAct → Except EpollAssert BothPollers
  | .call a => do
      let (x, y) ← (both epollStep pollStep s.pair a).mapError .call
      .ok { s with epoll := x, poll := y }
  | .poll order ready => do
      let (events, m₁, epollActive) ← s.epoll.poller.poll s.events s.epoll.mem
        (some (order, fun fd => (ready fd).setWidth 32)) []
      let (p, m₂, pollActive) ← (s.poll.poller.poll s.poll.mem
        (some (s.poll.poller.answer ready)) []).mapError .call
      .ok
        { epoll := { s.epoll with mem := m₁ }
          poll := { s.poll with poller := p, mem := m₂ }
          events := events
          epollActive := epollActive
          pollActive := pollActive }

end BothPollers

end Cobra
