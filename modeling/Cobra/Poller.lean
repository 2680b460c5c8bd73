/-
The pollers (cobra/poller.h, poller/epoll_poller.cpp,
poller/poll_poller.cpp): `UpdateChannel` and `removeChannel` of
`EPollPoller`, with the kernel's epoll set behind it, and of
`PollPoller`, with the array of `pollfd`s it passes to poll(2).

A channel is an object at an address, and a poller is handed the address:
it reads the object's `fd_`, `events_` and `index_`, and sets `index_`,
also that of another channel when `PollPoller` moves an entry. The
objects are therefore a memory that goes in and out of each operation.
`epoll_ctl` fails as the kernel's does, on a descriptor that is there
already or not there.
-/
import Cobra.Channel
import Cobra.Lib.Machine
import Mathlib.Data.Finmap
import Mathlib.Logic.Function.Basic

namespace Cobra

open Machine

/-- The channel objects, by address. -/
abbrev ChannelMem : Type := Nat → Channel

/-- `set_index`. -/
def ChannelMem.setIndex (m : ChannelMem) (c : Nat) (index : Int) :
    ChannelMem :=
  Function.update m c { m c with index := index }

/-- The interest of the channel changes. -/
def ChannelMem.setEvents (m : ChannelMem) (c : Nat) (events : BitVec 32) :
    ChannelMem :=
  Function.update m c { m c with events := events }

namespace ChannelMem

variable {m : ChannelMem} {c c' : Nat}

theorem setIndex_self (m : ChannelMem) (c : Nat) (index : Int) :
    m.setIndex c index c = { m c with index := index } :=
  Function.update_self ..

theorem setIndex_of_ne (index : Int) (h : c' ≠ c) :
    m.setIndex c index c' = m c' := Function.update_of_ne h ..

theorem setEvents_self (m : ChannelMem) (c : Nat) (events : BitVec 32) :
    m.setEvents c events c = { m c with events := events } :=
  Function.update_self ..

theorem setEvents_of_ne (events : BitVec 32) (h : c' ≠ c) :
    m.setEvents c events c' = m c' := Function.update_of_ne h ..

/-- An index is all that `setIndex` changes, in any channel. -/
theorem setIndex_frame (m : ChannelMem) (c c' : Nat) (index : Int) :
    (m.setIndex c index c').fd = (m c').fd
      ∧ (m.setIndex c index c').events = (m c').events := by
  by_cases h : c' = c
  · subst h
    rw [setIndex_self]
    exact ⟨rfl, rfl⟩
  · rw [setIndex_of_ne index h]
    exact ⟨rfl, rfl⟩

/-- The interest is all that `setEvents` changes. -/
theorem setEvents_frame (m : ChannelMem) (c c' : Nat) (events : BitVec 32) :
    (m.setEvents c events c').fd = (m c').fd
      ∧ (m.setEvents c events c').index = (m c').index := by
  by_cases h : c' = c
  · subst h
    rw [setEvents_self]
    exact ⟨rfl, rfl⟩
  · rw [setEvents_of_ne events h]
    exact ⟨rfl, rfl⟩

end ChannelMem

/-- A `ChannelMap`: descriptors to channels. -/
abbrev ChannelMap : Type := Finmap (fun _ : Nat => Nat)

/-- What can go wrong in a poller: its assertions, a failed `epoll_ctl`
that is fatal, and the use of a channel that is not in the map. -/
inductive PollerAssert
  | updateFresh
  | updateKnown
  | updateSame
  | updateAdded
  | updateIndex
  | updateFd
  | removeKnown
  | removeSame
  | removeNone
  | removeIndex
  | removeFd
  | epollFatal
  | nullChannel
  deriving Repr, DecidableEq

-- ================================================================ epoll

def kNew : Int := -1

def kAdded : Int := 1

def kDeleted : Int := 2

inductive EpollOp
  | EPOLL_CTL_ADD
  | EPOLL_CTL_MOD
  | EPOLL_CTL_DEL
  deriving Repr, DecidableEq

/-- The kernel's epoll set: the events and the `data.ptr` of each
descriptor. -/
abbrev EpollSet : Type := Finmap (fun _ : Nat => BitVec 32 × Nat)

/-- `epoll_ctl`. -/
def epollCtl (set : EpollSet) (op : EpollOp) (fd : Nat) (events : BitVec 32)
    (ptr : Nat) : Option EpollSet :=
  match op, Finmap.lookup fd set with
  | .EPOLL_CTL_ADD, none => some (Finmap.insert fd (events, ptr) set)
  | .EPOLL_CTL_MOD, some _ => some (Finmap.insert fd (events, ptr) set)
  | .EPOLL_CTL_DEL, some _ => some (Finmap.erase fd set)
  | _, _ => none

structure EPollPoller where
  channels : ChannelMap
  epoll : EpollSet

namespace EPollPoller

/-- `EPollPoller::update`: a failure is fatal, but for a removal. -/
def update (p : EPollPoller) (op : EpollOp) (m : ChannelMem) (c : Nat) :
    Except PollerAssert EPollPoller :=
  match epollCtl p.epoll op (m c).fd (m c).events c with
  | some set => .ok { p with epoll := set }
  | none =>
      if op = .EPOLL_CTL_DEL then .ok p else .error .epollFatal

/-- `UpdateChannel` for a channel that the kernel does not watch. -/
def addChannel (p : EPollPoller) (m : ChannelMem) (c : Nat) :
    Except PollerAssert (EPollPoller × ChannelMem) := do
  let m := m.setIndex c kAdded
  let p ← p.update .EPOLL_CTL_ADD m c
  .ok (p, m)

/-- `UpdateChannel` for a channel that the kernel watches. -/
def modChannel (p : EPollPoller) (m : ChannelMem) (c : Nat) :
    Except PollerAssert (EPollPoller × ChannelMem) :=
  if (m c).isNoneEvent then do
    let p ← p.update .EPOLL_CTL_DEL m c
    .ok (p, m.setIndex c kDeleted)
  else do
    let p ← p.update .EPOLL_CTL_MOD m c
    .ok (p, m)

def UpdateChannel (p : EPollPoller) (m : ChannelMem) (c : Nat) :
    Except PollerAssert (EPollPoller × ChannelMem) :=
  if (m c).index = kNew then do
    require (Finmap.lookup (m c).fd p.channels = none) .updateFresh
    { p with channels := Finmap.insert (m c).fd c p.channels }.addChannel m c
  else if (m c).index = kDeleted then do
    require (Finmap.lookup (m c).fd p.channels ≠ none) .updateKnown
    require (Finmap.lookup (m c).fd p.channels = some c) .updateSame
    p.addChannel m c
  else do
    require (Finmap.lookup (m c).fd p.channels ≠ none) .updateKnown
    require (Finmap.lookup (m c).fd p.channels = some c) .updateSame
    require ((m c).index = kAdded) .updateAdded
    p.modChannel m c

/-- `removeChannel` after its assertions. -/
def dropChannel (p : EPollPoller) (m : ChannelMem) (c : Nat) :
    Except PollerAssert (EPollPoller × ChannelMem) :=
  if (m c).index = kAdded then do
    let p ← p.update .EPOLL_CTL_DEL m c
    .ok (p, m.setIndex c kNew)
  else .ok (p, m.setIndex c kNew)

def removeChannel (p : EPollPoller) (m : ChannelMem) (c : Nat) :
    Except PollerAssert (EPollPoller × ChannelMem) := do
  require (Finmap.lookup (m c).fd p.channels ≠ none) .removeKnown
  require (Finmap.lookup (m c).fd p.channels = some c) .removeSame
  require ((m c).isNoneEvent = true) .removeNone
  require ((m c).index = kAdded ∨ (m c).index = kDeleted) .removeIndex
  { p with channels := Finmap.erase (m c).fd p.channels }.dropChannel m c

end EPollPoller

-- ================================================================= poll

structure PollFd where
  fd : Int
  events : BitVec 16
  revents : BitVec 16
  deriving Repr, DecidableEq

/-- The descriptor of an entry that may be switched off. -/
def PollFd.decode (pfd : PollFd) : Nat :=
  if pfd.fd < 0 then (-pfd.fd - 1).toNat else pfd.fd.toNat

/-- The entry brought up to date with the channel: switched off when the
channel has no interest, and never switched on. -/
def PollFd.refresh (pfd : PollFd) (ch : Channel) : PollFd where
  fd := if ch.isNoneEvent then -ch.fd - 1 else pfd.fd
  events := ch.events.truncate 16
  revents := 0

structure PollPoller where
  pollfds : List PollFd
  channels : ChannelMap

namespace PollPoller

/-- The entry at a channel's index, with the assertion that the index is
in range. -/
def entryAt (p : PollPoller) (index : Int) (e : PollerAssert) :
    Except PollerAssert (Nat × PollFd) :=
  if 0 ≤ index then
    match p.pollfds[index.toNat]? with
    | some pfd => .ok (index.toNat, pfd)
    | none => .error e
  else .error e

def UpdateChannel (p : PollPoller) (m : ChannelMem) (c : Nat) :
    Except PollerAssert (PollPoller × ChannelMem) :=
  let ch := m c
  if ch.index < 0 then do
    require (Finmap.lookup ch.fd p.channels = none) .updateFresh
    let pfd : PollFd := ⟨ch.fd, ch.events.truncate 16, 0⟩
    .ok ({ pollfds := p.pollfds ++ [pfd]
           channels := Finmap.insert ch.fd c p.channels },
      m.setIndex c p.pollfds.length)
  else do
    require (Finmap.lookup ch.fd p.channels ≠ none) .updateKnown
    require (Finmap.lookup ch.fd p.channels = some c) .updateSame
    let (idx, pfd) ← p.entryAt ch.index .updateIndex
    require (pfd.fd = ch.fd ∨ pfd.fd = -ch.fd - 1) .updateFd
    .ok ({ p with pollfds := p.pollfds.set idx (pfd.refresh ch) }, m)

/-- `removeChannel` takes the entry at `idx` out: the last one takes its
place, and its channel is told. -/
def takeOut (p : PollPoller) (m : ChannelMem) (idx : Nat) :
    Except PollerAssert (PollPoller × ChannelMem) :=
  if idx = p.pollfds.length - 1 then
    .ok ({ p with pollfds := p.pollfds.dropLast }, m)
  else
    match p.pollfds.getLast? with
    | none => .error .removeIndex
    | some last =>
        match Finmap.lookup last.decode p.channels with
        | none => .error .nullChannel
        | some c =>
            .ok ({ p with pollfds := (p.pollfds.set idx last).dropLast },
              m.setIndex c idx)

def removeChannel (p : PollPoller) (m : ChannelMem) (c : Nat) :
    Except PollerAssert (PollPoller × ChannelMem) := do
  let ch := m c
  require (Finmap.lookup ch.fd p.channels ≠ none) .removeKnown
  require (Finmap.lookup ch.fd p.channels = some c) .removeSame
  require (ch.isNoneEvent = true) .removeNone
  let (idx, pfd) ← p.entryAt ch.index .removeIndex
  require (pfd.fd = -ch.fd - 1 ∧ pfd.events.signExtend 32 = ch.events) .removeFd
  { p with channels := Finmap.erase ch.fd p.channels }.takeOut m idx

end PollPoller

-- ========================================================== either of them

/-- `Poller::newDefaultPoller` makes one of the two. -/
inductive Poller
  | epoll (p : EPollPoller)
  | poll (p : PollPoller)

namespace Poller

/-- A new poller: `PollPoller` if `COBRA_USE_POLL` is set. -/
def newDefaultPoller (usePoll : Bool) : Poller :=
  if usePoll then .poll ⟨[], (∅ : Finmap _)⟩
  else .epoll ⟨(∅ : Finmap _), (∅ : Finmap _)⟩

def UpdateChannel (p : Poller) (m : ChannelMem) (c : Nat) :
    Except PollerAssert (Poller × ChannelMem) :=
  match p with
  | .epoll p => do
      let (p, m) ← p.UpdateChannel m c
      .ok (.epoll p, m)
  | .poll p => do
      let (p, m) ← p.UpdateChannel m c
      .ok (.poll p, m)

def removeChannel (p : Poller) (m : ChannelMem) (c : Nat) :
    Except PollerAssert (Poller × ChannelMem) :=
  match p with
  | .epoll p => do
      let (p, m) ← p.removeChannel m c
      .ok (.epoll p, m)
  | .poll p => do
      let (p, m) ← p.removeChannel m c
      .ok (.poll p, m)

end Poller

end Cobra
