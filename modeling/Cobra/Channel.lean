/-
`Channel` (cobra/channel.h, channel.cpp): a descriptor and the events
its owner is interested in. Event masks are the 32 bits of an `int`,
with the flags of poll(2).

An interest changes together with a call of `Worker::UpdateChannel`;
which owner makes that call, and what the poller does with it, is not
this module's business, so the operations here only change the mask.
-/
import Mathlib.Data.BitVec

namespace Cobra

-- ================================================================ flags

def POLLIN : BitVec 32 := 0x1#32

def POLLPRI : BitVec 32 := 0x2#32

def POLLOUT : BitVec 32 := 0x4#32

def POLLERR : BitVec 32 := 0x8#32

def POLLHUP : BitVec 32 := 0x10#32

def POLLNVAL : BitVec 32 := 0x20#32

def POLLRDHUP : BitVec 32 := 0x2000#32

def kNoneEvent : BitVec 32 := 0#32

def kReadEvent : BitVec 32 := POLLIN ||| POLLPRI

def kWriteEvent : BitVec 32 := POLLOUT

/-- `mask & flags`, as a condition. -/
def hasAny (mask flags : BitVec 32) : Bool := mask &&& flags != 0#32

/-- What the kernel reports of a descriptor watched for `events`: an error
and a hang-up need not be asked for. -/
def reportable (events : BitVec 32) : BitVec 32 :=
  events ||| POLLERR ||| POLLHUP

-- ============================================================= channels

structure Channel where
  fd : Nat
  events : BitVec 32
  revents : BitVec 32
  index : Int
  deriving Repr, DecidableEq

namespace Channel

/-- The constructor. -/
def create (fd : Nat) : Channel := ⟨fd, 0#32, 0#32, -1⟩

def isNoneEvent (c : Channel) : Bool := c.events == kNoneEvent

def isWriting (c : Channel) : Bool := hasAny c.events kWriteEvent

def enableReading (c : Channel) : Channel :=
  { c with events := c.events ||| kReadEvent }

def enableWriting (c : Channel) : Channel :=
  { c with events := c.events ||| kWriteEvent }

def disableWriting (c : Channel) : Channel :=
  { c with events := c.events &&& ~~~ kWriteEvent }

def disableAll (c : Channel) : Channel :=
  { c with events := kNoneEvent }

theorem hasAny_none : hasAny kNoneEvent kWriteEvent = false := by decide

@[simp] theorem isWriting_create (fd : Nat) :
    (create fd).isWriting = false := hasAny_none

@[simp] theorem isNoneEvent_disableAll (c : Channel) :
    c.disableAll.isNoneEvent = true := beq_self_eq_true _

@[simp] theorem isWriting_enableWriting (c : Channel) :
    c.enableWriting.isWriting = true := by
  have h : (c.events ||| kWriteEvent) &&& kWriteEvent = kWriteEvent := by
    ext i hi
    simp only [BitVec.getElem_and, BitVec.getElem_or]
    cases kWriteEvent[i] <;> simp
  unfold isWriting hasAny enableWriting
  simp only [h]
  decide

@[simp] theorem isWriting_disableWriting (c : Channel) :
    c.disableWriting.isWriting = false := by
  have h : c.events &&& ~~~ kWriteEvent &&& kWriteEvent = 0#32 := by
    rw [BitVec.and_assoc, BitVec.not_and_self]
    exact BitVec.and_zero
  unfold isWriting hasAny disableWriting
  simp only [h]
  decide

/-- Read interest does not make a channel write. -/
@[simp] theorem isWriting_enableReading (c : Channel) :
    c.enableReading.isWriting = c.isWriting := by
  have hread : kReadEvent &&& kWriteEvent = 0#32 := by decide
  unfold isWriting hasAny enableReading
  rw [BitVec.and_or_distrib_right, hread, BitVec.or_zero]

end Channel

end Cobra
