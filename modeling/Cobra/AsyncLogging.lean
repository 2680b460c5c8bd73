/-
`AsyncLogging` (base/AsyncLogging.cc): producers fill large buffers under
`mutex_`, a back-end thread takes them away and hands them to a `LogFile`.

# What is a step

`append` is one critical section. The back-end thread (`threadFunc`) is
one step for each place where another thread can get in between: the loop
test, the lock, the end of `waitForSeconds` (a timeout, a notification or
nothing at all, so that `cond_.notify()` decides nothing), every call of
`output.append`, and the rest of the round, which touches only its own
locals. `stop` is its assignment of `running_`; the join behind it waits
for `threadFunc` to return. It is called after `start` has returned, that
is when the back-end has counted the latch down.

# What is recorded

`output` has the calls of `output.append`, `found` what each round found
at its swap. A pointer that is `NULL` is `none`; going through it and a
failed assertion are `.error`s.

A `FixedBuffer` is the bytes up to `cur_`. What is behind them is never
read.
-/
import Cobra.Lib.Machine

namespace Cobra

open Machine

-- ======================================================= the buffers

def kLargeBuffer : Nat := 4000 * 1000

structure FixedBuffer (size : Nat) where
  data : List UInt8
  fits : data.length ≤ size
  deriving Repr, DecidableEq

namespace FixedBuffer

variable {size : Nat}

def new : FixedBuffer size := ⟨[], Nat.zero_le _⟩

def length (b : FixedBuffer size) : Nat := b.data.length

def avail (b : FixedBuffer size) : Nat := size - b.data.length

/-- Bytes that do not fit are left out. -/
def append (b : FixedBuffer size) (buf : List UInt8) : FixedBuffer size :=
  if h : buf.length < b.avail then
    { data := b.data ++ buf
      fits := by
        have hb := b.fits
        unfold avail at h
        rw [List.length_append]
        omega }
  else b

def reset (_ : FixedBuffer size) : FixedBuffer size := new

end FixedBuffer

/-- `AsyncLogging::Buffer`. -/
abbrev LogBuffer := FixedBuffer kLargeBuffer

-- ========================================================== the state

/-- Where the back-end thread stands. -/
inductive BackendPc
  /-- no thread yet -/
  | notStarted
  /-- before `latch_.countDown()` -/
  | opening
  /-- about to test `running_` -/
  | test
  /-- about to lock `mutex_` -/
  | locking
  /-- in `cond_.waitForSeconds` -/
  | waiting
  /-- has swapped, and given the mutex back -/
  | swapped
  /-- about to hand over the `i`-th buffer -/
  | writing (i : Nat)
  /-- past the loop over the buffers -/
  | recycling
  /-- `threadFunc` has returned -/
  | returned
  deriving Repr, DecidableEq

inductive AsyncAssert
  /-- `assert(running_ == true)` -/
  | running
  | newBuffer1
  | newBuffer2
  | toWriteEmpty
  | toWriteNotEmpty
  | refill1
  | refill2
  /-- `currentBuffer_` is `NULL` -/
  | nullCurrent
  deriving Repr, DecidableEq

/-- A call of `output.append`: the notice about dropped buffers, or a
buffer. -/
inductive LogChunk
  | notice (text : List UInt8)
  | buffer (data : List UInt8)
  deriving Repr, DecidableEq

structure AsyncLogging where
  running : Bool
  currentBuffer : Option LogBuffer
  nextBuffer : Option LogBuffer
  buffers : List LogBuffer
  pc : BackendPc
  newBuffer1 : Option LogBuffer
  newBuffer2 : Option LogBuffer
  buffersToWrite : List LogBuffer
  output : List LogChunk
  found : List (List (List UInt8))
  deriving Repr, DecidableEq

inductive AsyncAct
  /-- `append`, by any thread -/
  | append (logline : List UInt8)
  | start
  | stop
  /-- the back-end up to its loop -/
  | opened
  | test
  | lock
  /-- `waitForSeconds` returns -/
  | wake
  /-- the check for too many buffers; `now` is the time as text -/
  | check (now : String)
  /-- the next buffer is handed over, or there is none left -/
  | write
  | recycle
  deriving Repr, DecidableEq

namespace AsyncLogging

def create : AsyncLogging where
  running := false
  currentBuffer := some .new
  nextBuffer := some .new
  buffers := []
  pc := .notStarted
  newBuffer1 := none
  newBuffer2 := none
  buffersToWrite := []
  output := []
  found := []

-- ====================================================== the producers

def append (s : AsyncLogging) (logline : List UInt8) :
    Except AsyncAssert AsyncLogging :=
  match s.currentBuffer with
  | none => .error .nullCurrent
  | some b =>
      if logline.length < b.avail then
        .ok { s with currentBuffer := some (b.append logline) }
      else
        let fresh := s.nextBuffer.getD .new
        .ok { s with
          buffers := s.buffers ++ [b]
          nextBuffer := none
          currentBuffer := some (fresh.append logline) }

-- ======================================================= the back-end

/-- The rest of the critical section, from the wait on. -/
def swap (s : AsyncLogging) : Except AsyncAssert AsyncLogging :=
  match s.currentBuffer with
  | none => .error .nullCurrent
  | some b =>
      let buffers := s.buffers ++ [b]
      let s := { s with
        currentBuffer := s.newBuffer1
        newBuffer1 := none
        buffers := s.buffersToWrite
        buffersToWrite := buffers
        pc := .swapped
        found := s.found ++ [buffers.map FixedBuffer.data] }
      match s.nextBuffer with
      | some _ => .ok s
      | none => .ok { s with nextBuffer := s.newBuffer2, newBuffer2 := none }

/-- The most buffers that a round writes out. -/
def kMaxBuffers : Nat := 25

/-- What is left of the buffers that a round has found. -/
def kept {α : Type} (found : List α) : List α :=
  if kMaxBuffers < found.length then found.take 2 else found

/-- The text about dropped buffers, cut by `snprintf` to its array. -/
def dropNotice (now : String) (n : Nat) : List UInt8 :=
  ("Dropped log messages at " ++ now ++ ", " ++ toString (n - 2)
    ++ " larger buffers\n").toUTF8.toList.take 255

def check (s : AsyncLogging) (now : String) :
    Except AsyncAssert AsyncLogging := do
  require (s.buffersToWrite ≠ []) .toWriteNotEmpty
  if kMaxBuffers < s.buffersToWrite.length then
    .ok { s with
      output := s.output ++ [.notice (dropNotice now s.buffersToWrite.length)]
      buffersToWrite := s.buffersToWrite.take 2
      pc := .writing 0 }
  else .ok { s with pc := .writing 0 }

def write (s : AsyncLogging) (i : Nat) : AsyncLogging :=
  match s.buffersToWrite[i]? with
  | some b =>
      { s with output := s.output ++ [.buffer b.data], pc := .writing (i + 1) }
  | none => { s with pc := .recycling }

/-- A buffer to start the next round with: the one that is still there,
or the last of those written out, reset. -/
def refill (newBuffer : Option LogBuffer) (toWrite : List LogBuffer)
    (e : AsyncAssert) : Except AsyncAssert (LogBuffer × List LogBuffer) :=
  match newBuffer with
  | some b => .ok (b, toWrite)
  | none =>
      match toWrite.getLast? with
      | none => .error e
      | some b => .ok (b.reset, toWrite.dropLast)

def recycle (s : AsyncLogging) : Except AsyncAssert AsyncLogging := do
  let toWrite :=
    if 2 < s.buffersToWrite.length then s.buffersToWrite.take 2
    else s.buffersToWrite
  let (newBuffer1, toWrite) ← refill s.newBuffer1 toWrite .refill1
  let (newBuffer2, _) ← refill s.newBuffer2 toWrite .refill2
  .ok { s with
    newBuffer1 := some newBuffer1
    newBuffer2 := some newBuffer2
    buffersToWrite := []
    pc := .test }

/-- The pointer is there, and its buffer is empty. -/
def isFresh (b : Option LogBuffer) : Bool := b.any (·.length == 0)

/-- The head of the loop. -/
def testRunning (s : AsyncLogging) : Except AsyncAssert AsyncLogging :=
  if s.running then do
    require (isFresh s.newBuffer1) .newBuffer1
    require (isFresh s.newBuffer2) .newBuffer2
    require (s.buffersToWrite = []) .toWriteEmpty
    .ok { s with pc := .locking }
  else .ok { s with pc := .returned }

-- ========================================================== the steps

def step (s : AsyncLogging) : AsyncAct → Except AsyncAssert AsyncLogging
  | .append logline => s.append logline
  | .start =>
      if s.pc = .notStarted then .ok { s with running := true, pc := .opening }
      else .ok s
  | .stop =>
      if s.pc = .notStarted ∨ s.pc = .opening then .ok s
      else .ok { s with running := false }
  | .opened =>
      if s.pc = .opening then do
        require (s.running = true) .running
        .ok { s with
          newBuffer1 := some .new
          newBuffer2 := some .new
          buffersToWrite := []
          pc := .test }
      else .ok s
  | .test => if s.pc = .test then s.testRunning else .ok s
  | .lock =>
      if s.pc = .locking then
        if s.buffers.isEmpty then .ok { s with pc := .waiting } else s.swap
      else .ok s
  | .wake => if s.pc = .waiting then s.swap else .ok s
  | .check now => if s.pc = .swapped then s.check now else .ok s
  | .write =>
      match s.pc with
      | .writing i => .ok (s.write i)
      | _ => .ok s
  | .recycle => if s.pc = .recycling then s.recycle else .ok s

-- ========================================================== what is where

/-- The lines of a run, in the order in which `append` got `mutex_`. -/
def linesOf (acts : List AsyncAct) : List (List UInt8) :=
  acts.filterMap fun
    | .append logline => some logline
    | _ => none

/-- The buffers of the current round that are still to be handed over. -/
def unwritten (s : AsyncLogging) : List LogBuffer :=
  match s.pc with
  | .swapped => kept s.buffersToWrite
  | .writing i => s.buffersToWrite.drop i
  | _ => []

/-- The bytes of a call of `output.append`. -/
def bytesOf : LogChunk → List UInt8
  | .notice text => text
  | .buffer data => data

/-- The buffers among the calls of `output.append`. -/
def handed (output : List LogChunk) : List (List UInt8) :=
  output.filterMap fun
    | .buffer data => some data
    | .notice _ => none

/-- The back-end is past `latch_.countDown()`. -/
def started (s : AsyncLogging) : Prop := s.pc ≠ .notStarted ∧ s.pc ≠ .opening

/-- The back-end is past its loop test, and has not swapped yet. -/
def swapAhead (s : AsyncLogging) : Prop := s.pc = .locking ∨ s.pc = .waiting

/-- The bytes that no round has found yet. -/
def pending (s : AsyncLogging) : List UInt8 :=
  s.buffers.flatMap FixedBuffer.data
    ++ (s.currentBuffer.map FixedBuffer.data).getD []

end AsyncLogging

end Cobra
