/-
`PollPoller::poll` (cobra/poller/poll_poller.cpp), and the runs of one
`PollPoller`: the calls its channels make and the polls between them.

# What poll(2) answers

It writes the `revents` of every entry, and nothing else of the array:
`writeRevents` has any bits at any position, but none in an entry whose
descriptor is negative. It returns the number of entries with a bit set,
or fails and leaves the array alone.

# Runs

`Channel` calls `update()` right after it has changed its interest, and
there is no other way to change it. A second `UpdateChannel` for the same
interest is an interest operation that changes nothing, so `ChannelCall`
has all the calls. `loop` empties `activeChannels_` before each poll. A
failed assertion ends the run, whoever made the call.
-/
import Cobra.ChannelCalls

namespace Cobra

open Machine

/-- `set_revents`. -/
def ChannelMem.setRevents (m : ChannelMem) (c : Nat) (revents : BitVec 32) :
    ChannelMem :=
  Function.update m c { m c with revents := revents }

/-- `pfd->revents > 0`, of a `short`. -/
def PollFd.fired (pfd : PollFd) : Bool := decide (0 < pfd.revents.toInt)

/-- poll(2) writes the `revents`. -/
def PollFd.writeRevents (pfd : PollFd) (revents : BitVec 16) : PollFd :=
  { pfd with revents := if pfd.fd < 0 then 0 else revents }

namespace PollPoller

/-- The array after poll(2), with the bits it found at each position. -/
def writeRevents (p : PollPoller) (revents : Nat → BitVec 16) : PollPoller :=
  { p with pollfds := p.pollfds.mapIdx fun i pfd => pfd.writeRevents (revents i) }

/-- What poll(2) returns: how many entries have a bit set. -/
def numEvents (p : PollPoller) : Nat :=
  p.pollfds.countP fun pfd => pfd.revents != 0

/-- `channels_.find(fd)`, of an `int`. -/
def find (channels : ChannelMap) (fd : Int) : Option Nat :=
  if 0 ≤ fd then Finmap.lookup fd.toNat channels else none

/-- The loop of `fillActiveChannels`, over the entries that are left. -/
def fillFrom (channels : ChannelMap) :
    List PollFd → Int → ChannelMem → List Nat →
      Except PollerAssert (ChannelMem × List Nat)
  | [], _, m, activeChannels => .ok (m, activeChannels)
  | pfd :: pfds, numEvents, m, activeChannels =>
      if 0 < numEvents then
        if pfd.fired then
          match find channels pfd.fd with
          | none => .error .nullChannel
          | some c =>
              fillFrom channels pfds (numEvents - 1)
                (m.setRevents c (pfd.revents.signExtend 32))
                (activeChannels ++ [c])
        else fillFrom channels pfds numEvents m activeChannels
      else .ok (m, activeChannels)

def fillActiveChannels (p : PollPoller) (m : ChannelMem) (numEvents : Int)
    (activeChannels : List Nat) : Except PollerAssert (ChannelMem × List Nat) :=
  fillFrom p.channels p.pollfds numEvents m activeChannels

/-- `poll`, with the answer of poll(2): the bits it found, or a
failure. -/
def poll (p : PollPoller) (m : ChannelMem)
    (answer : Option (Nat → BitVec 16)) (activeChannels : List Nat) :
    Except PollerAssert (PollPoller × ChannelMem × List Nat) :=
  match answer with
  | none => .ok (p, m, activeChannels)
  | some revents =>
      let p := p.writeRevents revents
      if 0 < p.numEvents then do
        let (m, activeChannels) ←
          p.fillActiveChannels m p.numEvents activeChannels
        .ok (p, m, activeChannels)
      else .ok (p, m, activeChannels)

end PollPoller

-- ================================================================= runs

inductive PollAct
  | call (a : ChannelCall)
  | poll (answer : Option (Nat → BitVec 16))

structure PollRun where
  poller : PollPoller
  mem : ChannelMem
  activeChannels : List Nat

namespace PollRun

def create (fds : Nat ↪ Nat) : PollRun where
  poller := ⟨[], (∅ : Finmap _)⟩
  mem := .create fds
  activeChannels := []

def step (s : PollRun) : PollAct → Except PollerAssert PollRun
  | .call (.interest c op) => do
      let (p, m) ← s.poller.UpdateChannel (s.mem.interest c op) c
      .ok { s with poller := p, mem := m }
  | .call (.remove c) => do
      let (p, m) ← s.poller.removeChannel s.mem c
      .ok { s with poller := p, mem := m }
  | .poll answer => do
      let (p, m, activeChannels) ← s.poller.poll s.mem answer []
      .ok ⟨p, m, activeChannels⟩

end PollRun

end Cobra
