/-
`Buffer` (cobra/buffer.h) in the machine's own terms: three fields that
nothing ties together, and `size_t` arithmetic that wraps.

# Shape

`Buffer` (Cobra.Buffer) carries the order of its indices in its type and
counts with natural numbers. Here neither is given: an index is a number
below `2 ^ 64`, a difference that would be negative wraps, and a copy
that leaves the vector is an `.error` of its own beside the failed
assertions. The proofs (Cobra.Proofs.RawBuffer) take the one to the
other.

A pointer into the vector is its offset from `begin()`. `resize` fills
with zeros; that `std::vector` refuses sizes it cannot allocate is not
modelled, see `Sized`.

# What it is for

`ByteQueues.step` says what the operations do to a plain list of bytes for each
buffer. Its marks follow the bytes: a buffer is marked once it has been
prepended to, and `swap` exchanges the marks with the rest.
-/
import Cobra.Buffer
import Mathlib.Algebra.Group.Nat.Defs
import Mathlib.Logic.Function.Basic

namespace Cobra

open Machine Window

/-- The values of `size_t`. -/
def sizeMod : Nat := 2 ^ 64

/-- The largest size that the buffers are used with. -/
def maxSize : Nat := 2 ^ 63

/-- `a + b` in `size_t`. -/
def plus (a b : Nat) : Nat := (a + b) % sizeMod

/-- `a - b` in `size_t`. -/
def minus (a b : Nat) : Nat := (a + (sizeMod - b % sizeMod)) % sizeMod

/-- The assertions of `Buffer`, and leaving the vector. -/
inductive RawFault
  | retrieveLen
  | retrieveUntilBegin
  | retrieveUntilEnd
  | retrieveAsStringLen
  | ensureWritable
  | prependLen
  | makeSpaceReader
  | makeSpaceReadable
  | outOfBounds
  deriving Repr, DecidableEq

structure RawBuffer where
  buffer : List UInt8
  readerIndex : Nat
  writerIndex : Nat
  deriving Repr, DecidableEq

namespace RawBuffer

/-- The constructor. -/
def new : RawBuffer where
  buffer := List.replicate (kCheapPrepend + kInitialSize) 0
  readerIndex := kCheapPrepend
  writerIndex := kCheapPrepend

def readableBytes (b : RawBuffer) : Nat := minus b.writerIndex b.readerIndex

def writableBytes (b : RawBuffer) : Nat := minus b.buffer.length b.writerIndex

def prependableBytes (b : RawBuffer) : Nat := b.readerIndex

-- the assertions of the constructor
example : new.readableBytes = 0 ∧ new.writableBytes = kInitialSize
    ∧ new.prependableBytes = kCheapPrepend := by decide +kernel

/-- The bytes from `BeginRead()` to `BeginWrite()`. -/
def content (b : RawBuffer) : List UInt8 :=
  slice b.buffer b.readerIndex b.writerIndex

/-- The bytes between two pointers into the vector. -/
def bytes (b : RawBuffer) (first last : Nat) :
    Except RawFault (List UInt8) := do
  require (first ≤ last ∧ last ≤ b.buffer.length) .outOfBounds
  .ok (slice b.buffer first last)

/-- `std::copy` to a pointer into the vector. -/
def copy (b : RawBuffer) (data : List UInt8) (result : Nat) :
    Except RawFault RawBuffer := do
  require (result + data.length ≤ b.buffer.length) .outOfBounds
  .ok { b with buffer := overlay b.buffer result data }

-- ============================================================ retrieving

def retrieveAll (b : RawBuffer) : RawBuffer :=
  { b with readerIndex := kCheapPrepend, writerIndex := kCheapPrepend }

def retrieve (b : RawBuffer) (len : Nat) : Except RawFault RawBuffer := do
  require (len ≤ b.readableBytes) .retrieveLen
  if len < b.readableBytes then
    .ok { b with readerIndex := plus b.readerIndex len }
  else .ok b.retrieveAll

def retrieveUntil (b : RawBuffer) (last : Nat) :
    Except RawFault RawBuffer := do
  require (b.readerIndex ≤ last) .retrieveUntilBegin
  require (last ≤ b.writerIndex) .retrieveUntilEnd
  b.retrieve (minus last b.readerIndex)

def retrieveAsString (b : RawBuffer) (len : Nat) :
    Except RawFault (List UInt8 × RawBuffer) := do
  require (len ≤ b.readableBytes) .retrieveAsStringLen
  let result ← b.bytes b.readerIndex (plus b.readerIndex len)
  let b ← b.retrieve len
  .ok (result, b)

def retrieveAllAsString (b : RawBuffer) :
    Except RawFault (List UInt8 × RawBuffer) :=
  b.retrieveAsString b.readableBytes

-- =============================================================== writing

def makeSpace (b : RawBuffer) (len : Nat) : Except RawFault RawBuffer :=
  if plus b.writableBytes b.prependableBytes < plus len kCheapPrepend then
    .ok { b with buffer := resize b.buffer (plus b.writerIndex len) 0 }
  else do
    require (kCheapPrepend < b.readerIndex) .makeSpaceReader
    let readable := b.readableBytes
    let data ← b.bytes b.readerIndex b.writerIndex
    let b ← b.copy data kCheapPrepend
    let b := { b with
      readerIndex := kCheapPrepend
      writerIndex := plus kCheapPrepend readable }
    require (readable = b.readableBytes) .makeSpaceReadable
    .ok b

/-- `ensureWritableBytes` up to its assertion. -/
def makeRoom (b : RawBuffer) (len : Nat) : Except RawFault RawBuffer :=
  if b.writableBytes < len then b.makeSpace len else .ok b

def ensureWritableBytes (b : RawBuffer) (len : Nat) :
    Except RawFault RawBuffer := do
  let b ← b.makeRoom len
  require (len ≤ b.writableBytes) .ensureWritable
  .ok b

def hasWritten (b : RawBuffer) (len : Nat) : RawBuffer :=
  { b with writerIndex := plus b.writerIndex len }

/-- Bytes written at `BeginWrite()`, and `hasWritten`. -/
def write (b : RawBuffer) (data : List UInt8) : Except RawFault RawBuffer := do
  let b ← b.copy data b.writerIndex
  .ok (b.hasWritten data.length)

def append (b : RawBuffer) (data : List UInt8) :
    Except RawFault RawBuffer := do
  let b ← b.ensureWritableBytes data.length
  b.write data

def prepend (b : RawBuffer) (data : List UInt8) :
    Except RawFault RawBuffer := do
  require (data.length ≤ b.prependableBytes) .prependLen
  let b := { b with readerIndex := minus b.readerIndex data.length }
  b.copy data b.readerIndex

/-- The size that the vector has after `ensureWritableBytes`. -/
def grownSize (b : RawBuffer) (len : Nat) : Nat :=
  if b.writableBytes < len
      ∧ b.writableBytes + b.prependableBytes < len + kCheapPrepend then
    b.writerIndex + len
  else b.buffer.length

/-- The sizes of an operation that asks for `len` bytes of room. -/
def Sized (b : RawBuffer) (len : Nat) : Prop :=
  len ≤ maxSize ∧ b.grownSize len ≤ maxSize

instance (b : RawBuffer) (len : Nat) : Decidable (b.Sized len) :=
  inferInstanceAs (Decidable (_ ∧ _))

end RawBuffer

-- ============================================================= the runs

/-- The operations on numbered buffers. `retrieveUntil` is called with a
pointer: `n` bytes behind `BeginRead()`. -/
inductive BufferOp
  | append (i : Nat) (data : List UInt8)
  | prepend (i : Nat) (data : List UInt8)
  | retrieve (i : Nat) (len : Nat)
  | retrieveUntil (i : Nat) (n : Nat)
  | retrieveAsString (i : Nat) (len : Nat)
  | retrieveAllAsString (i : Nat)
  | retrieveAll (i : Nat)
  | ensureWritableBytes (i : Nat) (len : Nat)
  | write (i : Nat) (data : List UInt8)
  | swap (i j : Nat)
  deriving Repr, DecidableEq

/-- The buffers, and the strings returned so far. -/
structure RawBuffers where
  bufs : Nat → RawBuffer
  returned : List (List UInt8)

namespace RawBuffers

/-- Every buffer as it was constructed. -/
def start : RawBuffers := ⟨fun _ => .new, []⟩

/-- An operation of one buffer. -/
def onBuffer (s : RawBuffers) (i : Nat)
    (f : RawBuffer → Except RawFault RawBuffer) :
    Except RawFault RawBuffers := do
  let b ← f (s.bufs i)
  .ok { s with bufs := Function.update s.bufs i b }

/-- An operation of one buffer that returns a string. -/
def returning (s : RawBuffers) (i : Nat)
    (f : RawBuffer → Except RawFault (List UInt8 × RawBuffer)) :
    Except RawFault RawBuffers := do
  let (str, b) ← f (s.bufs i)
  .ok { bufs := Function.update s.bufs i b
        returned := s.returned ++ [str] }

def swap (s : RawBuffers) (i j : Nat) : RawBuffers :=
  { s with bufs :=
      Function.update (Function.update s.bufs i (s.bufs j)) j (s.bufs i) }

def step (s : RawBuffers) : BufferOp → Except RawFault RawBuffers
  | .append i data => s.onBuffer i (·.append data)
  | .prepend i data => s.onBuffer i (·.prepend data)
  | .retrieve i len => s.onBuffer i (·.retrieve len)
  | .retrieveUntil i n =>
      s.onBuffer i fun b => b.retrieveUntil (plus b.readerIndex n)
  | .retrieveAsString i len => s.returning i (·.retrieveAsString len)
  | .retrieveAllAsString i => s.returning i (·.retrieveAllAsString)
  | .retrieveAll i => s.onBuffer i fun b => .ok b.retrieveAll
  | .ensureWritableBytes i len => s.onBuffer i (·.ensureWritableBytes len)
  | .write i data => s.onBuffer i (·.write data)
  | .swap i j => .ok (s.swap i j)

/-- The arguments an operation may be called with. -/
def Legal (s : RawBuffers) : BufferOp → Prop
  | .append i data => (s.bufs i).Sized data.length
  | .prepend i data => data.length ≤ (s.bufs i).prependableBytes
  | .retrieve i len => len ≤ (s.bufs i).readableBytes
  | .retrieveUntil i n => n ≤ (s.bufs i).readableBytes
  | .retrieveAsString i len => len ≤ (s.bufs i).readableBytes
  | .retrieveAllAsString _ => True
  | .retrieveAll _ => True
  | .ensureWritableBytes i len => (s.bufs i).Sized len
  | .write i data => data.length ≤ (s.bufs i).writableBytes
  | .swap _ _ => True

instance (s : RawBuffers) : ∀ op, Decidable (s.Legal op)
  | .append .. => inferInstanceAs (Decidable (RawBuffer.Sized ..))
  | .prepend .. => inferInstanceAs (Decidable (_ ≤ _))
  | .retrieve .. => inferInstanceAs (Decidable (_ ≤ _))
  | .retrieveUntil .. => inferInstanceAs (Decidable (_ ≤ _))
  | .retrieveAsString .. => inferInstanceAs (Decidable (_ ≤ _))
  | .retrieveAllAsString _ => .isTrue trivial
  | .retrieveAll _ => .isTrue trivial
  | .ensureWritableBytes .. => inferInstanceAs (Decidable (RawBuffer.Sized ..))
  | .write .. => inferInstanceAs (Decidable (_ ≤ _))
  | .swap .. => .isTrue trivial

end RawBuffers

-- ======================================================= the byte queues

/-- A list of bytes for each buffer, the strings taken off their fronts,
and which of them hold bytes that were prepended to. -/
structure ByteQueues where
  queues : Nat → List UInt8
  returned : List (List UInt8)
  prepended : Nat → Bool

namespace ByteQueues

def start : ByteQueues := ⟨fun _ => [], [], fun _ => false⟩

/-- The first `n` bytes dropped. -/
def drop (q : ByteQueues) (i n : Nat) : ByteQueues :=
  { q with queues := Function.update q.queues i ((q.queues i).drop n) }

/-- The first `n` bytes dropped and returned. -/
def take (q : ByteQueues) (i n : Nat) : ByteQueues :=
  { q.drop i n with returned := q.returned ++ [(q.queues i).take n] }

def push (q : ByteQueues) (i : Nat) (data : List UInt8) : ByteQueues :=
  { q with queues := Function.update q.queues i (q.queues i ++ data) }

def pushFront (q : ByteQueues) (i : Nat) (data : List UInt8) : ByteQueues :=
  { q with
    queues := Function.update q.queues i (data ++ q.queues i)
    prepended := Function.update q.prepended i true }

def swap (q : ByteQueues) (i j : Nat) : ByteQueues :=
  { q with
    queues :=
      Function.update (Function.update q.queues i (q.queues j)) j (q.queues i)
    prepended := Function.update
      (Function.update q.prepended i (q.prepended j)) j (q.prepended i) }

/-- What an operation does to the byte queues. -/
def step (q : ByteQueues) : BufferOp → ByteQueues
  | .append i data => q.push i data
  | .prepend i data => q.pushFront i data
  | .retrieve i len => q.drop i len
  | .retrieveUntil i n => q.drop i n
  | .retrieveAsString i len => q.take i len
  | .retrieveAllAsString i => q.take i (q.queues i).length
  | .retrieveAll i => q.drop i (q.queues i).length
  | .ensureWritableBytes _ _ => q
  | .write i data => q.push i data
  | .swap i j => q.swap i j

end ByteQueues

end Cobra
