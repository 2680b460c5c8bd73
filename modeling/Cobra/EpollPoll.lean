/-
`EPollPoller::poll` (cobra/poller/epoll_poller.cpp), and the runs of one
`EPollPoller`: the calls its channels make and the polls between them.
`PollRun` has the same for `PollPoller`.

# What epoll_wait(2) answers

The kernel goes through the descriptors of the set in an order of its own
and reports those that have a bit their registration asks for, or an error
or a hang-up, which need not be asked for; it stops when the array it was
given is full. What it reports is level-triggered: the bits a descriptor
has are those of the moment. `events_` is written from the front and keeps
what was in it behind.

# Runs

The calls are those of `ChannelCalls`; `loop` empties `activeChannels_`
before each poll. A failed assertion ends the run, whoever made the call.
-/
import Cobra.PollRun

namespace Cobra

open Machine

/-- `struct epoll_event`. -/
structure EpollEvent where
  events : BitVec 32
  ptr : Nat
  deriving Repr, DecidableEq

/-- What the kernel reports of a descriptor that has the bits `ready`. -/
def EpollSet.report (set : EpollSet) (ready : Nat → BitVec 32) (fd : Nat) :
    Option EpollEvent :=
  (Finmap.lookup fd set).bind fun watch =>
    let bits := ready fd &&& reportable watch.1
    if bits = 0#32 then none else some ⟨bits, watch.2⟩

/-- `epoll_wait`, for a kernel that goes through the descriptors in the
given order. -/
def EpollSet.wait (set : EpollSet) (order : List Nat)
    (ready : Nat → BitVec 32) (maxevents : Nat) : List EpollEvent :=
  (order.dedup.filterMap (set.report ready)).take maxevents

/-- What a poll or a call can fail at. -/
inductive EpollAssert
  | call (a : PollerAssert)
  | fillSize
  | fillKnown
  | fillSame
  deriving Repr, DecidableEq

def kInitEventListSize : Nat := 16

namespace EPollPoller

/-- The loop of `fillActiveChannels`, over the events that are left. -/
def fillFrom (channels : ChannelMap) :
    List EpollEvent → ChannelMem → List Nat →
      Except EpollAssert (ChannelMem × List Nat)
  | [], m, activeChannels => .ok (m, activeChannels)
  | event :: events, m, activeChannels => do
      let fd := (m event.ptr).fd
      require (Finmap.lookup fd channels ≠ none) .fillKnown
      require (Finmap.lookup fd channels = some event.ptr) .fillSame
      fillFrom channels events (m.setRevents event.ptr event.events)
        (activeChannels ++ [event.ptr])

def fillActiveChannels (p : EPollPoller) (events : List EpollEvent)
    (m : ChannelMem) (numEvents : Nat) (activeChannels : List Nat) :
    Except EpollAssert (ChannelMem × List Nat) := do
  require (numEvents ≤ events.length) .fillSize
  fillFrom p.channels (events.take numEvents) m activeChannels

/-- `events_.resize(events_.size()*2)` when it is full. -/
def growEvents (events : List EpollEvent) (numEvents : Nat) :
    List EpollEvent :=
  if numEvents = events.length then
    events ++ List.replicate events.length ⟨0#32, 0⟩
  else events

/-- `poll` with `events_`, and the answer of epoll_wait(2): the order and
the bits, or a failure. -/
def poll (p : EPollPoller) (events : List EpollEvent) (m : ChannelMem)
    (answer : Option (List Nat × (Nat → BitVec 32)))
    (activeChannels : List Nat) :
    Except EpollAssert (List EpollEvent × ChannelMem × List Nat) :=
  match answer with
  | none => .ok (events, m, activeChannels)
  | some (order, ready) =>
      let written := p.epoll.wait order ready events.length
      let numEvents := written.length
      let events := written ++ events.drop numEvents
      if 0 < numEvents then do
        let (m, activeChannels) ←
          p.fillActiveChannels events m numEvents activeChannels
        .ok (growEvents events numEvents, m, activeChannels)
      else .ok (events, m, activeChannels)

end EPollPoller

-- ================================================================= runs

inductive EpollAct
  | call (a : ChannelCall)
  | poll (answer : Option (List Nat × (Nat → BitVec 32)))

structure EpollLoop where
  poller : EPollPoller
  /-- `events_` -/
  events : List EpollEvent
  mem : ChannelMem
  activeChannels : List Nat

namespace EpollLoop

def create (fds : Nat ↪ Nat) : EpollLoop where
  poller := ⟨(∅ : Finmap _), (∅ : Finmap _)⟩
  events := List.replicate kInitEventListSize ⟨0#32, 0⟩
  mem := .create fds
  activeChannels := []

def step (s : EpollLoop) : EpollAct → Except EpollAssert EpollLoop
  | .call (.interest c op) => do
      let (p, m) ← (s.poller.UpdateChannel (s.mem.interest c op) c).mapError
        .call
      .ok { s with poller := p, mem := m }
  | .call (.remove c) => do
      let (p, m) ← (s.poller.removeChannel s.mem c).mapError .call
      .ok { s with poller := p, mem := m }
  | .poll answer => do
      let (events, m, activeChannels) ←
        s.poller.poll s.events s.mem answer []
      .ok { s with events := events, mem := m, activeChannels := activeChannels }

end EpollLoop

end Cobra
