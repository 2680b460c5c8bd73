/-
`Buffer` (cobra/buffer.h, buffer.cpp) over a vector that may refuse to
grow: `std::vector::resize` raises a length error or runs out of memory.

# Shape

The operations are those of Cobra.RawBuffer with one more outcome. An
exception leaves the buffer behind as it was when it was raised
(`VecFault.refused`), and the caller may go on with it; a failed
assertion or a copy that leaves the vector ends the program
(`VecFault.fault`).

`alloc n` says whether there is memory for a vector of `n` bytes. It is
an argument of each call: the answer may be another one the next time.
No vector gets larger than `maxSize`, whatever there is.

# Reachable buffers

`BufferCall.step` is any call of a member function, with the caller
going on after an exception. `Legal` is what the assertions ask of a
caller, what `readv` promises, and for a reservation that the size asked
for is a `size_t` at all. Whoever has `BeginWrite()` may
write there without `hasWritten`, so the bytes behind the content are
any bytes (`fill`).
-/
import Cobra.StringPiece

namespace Cobra

open Machine Window

/-- How a call of a member function ends early. -/
inductive VecFault
  /-- a length error or no memory, with the buffer as it is then -/
  | refused (left : RawBuffer)
  | fault (f : RawFault)
  deriving Repr, DecidableEq

namespace VecBuffer

-- ============================================================ the vector

/-- `std::vector::resize(n)` succeeds: the vector gets no larger, or
there is memory for it. -/
def Granted (alloc : Nat → Bool) (b : RawBuffer) (n : Nat) : Prop :=
  n ≤ b.buffer.length ∨ n ≤ maxSize ∧ alloc n = true

instance (alloc : Nat → Bool) (b : RawBuffer) (n : Nat) :
    Decidable (Granted alloc b n) :=
  inferInstanceAs (Decidable (_ ∨ _))

/-- The branch of `makeSpace` that grows the vector. -/
def Grows (b : RawBuffer) (len : Nat) : Prop :=
  plus b.writableBytes b.prependableBytes < plus len kCheapPrepend

instance (b : RawBuffer) (len : Nat) : Decidable (Grows b len) :=
  inferInstanceAs (Decidable (_ < _))

/-- A reservation has to grow the vector and the vector refuses. -/
def Refuses (alloc : Nat → Bool) (b : RawBuffer) (len : Nat) : Prop :=
  b.writableBytes < len ∧ Grows b len
    ∧ ¬ Granted alloc b (plus b.writerIndex len)

instance (alloc : Nat → Bool) (b : RawBuffer) (len : Nat) :
    Decidable (Refuses alloc b len) :=
  inferInstanceAs (Decidable (_ ∧ _))

/-- The constructor allocates. -/
def create (alloc : Nat → Bool) : Except VecFault RawBuffer :=
  if alloc (kCheapPrepend + kInitialSize) then .ok .new
  else .error (.refused .new)

-- =============================================================== writing

/-- `makeSpace`, where `resize` may throw. -/
def makeSpace (alloc : Nat → Bool) (b : RawBuffer) (len : Nat) :
    Except VecFault RawBuffer :=
  if Grows b len ∧ ¬ Granted alloc b (plus b.writerIndex len) then
    .error (.refused b)
  else (b.makeSpace len).mapError .fault

/-- `ensureWritableBytes` up to its assertion. -/
def makeRoom (alloc : Nat → Bool) (b : RawBuffer) (len : Nat) :
    Except VecFault RawBuffer :=
  if b.writableBytes < len then makeSpace alloc b len else .ok b

def ensureWritableBytes (alloc : Nat → Bool) (b : RawBuffer) (len : Nat) :
    Except VecFault RawBuffer := do
  let b ← makeRoom alloc b len
  require (len ≤ b.writableBytes) (.fault .ensureWritable)
  .ok b

/-- `append(const char* data, size_t len)`; `data` points at the start of
`mem`. -/
def appendFrom (alloc : Nat → Bool) (b : RawBuffer) (mem : List UInt8)
    (len : Nat) : Except VecFault RawBuffer := do
  let b ← ensureWritableBytes alloc b len
  require (len ≤ mem.length) (.fault .outOfBounds)
  (b.write (mem.take len)).mapError .fault

/-- `append` of a whole object. -/
def append (alloc : Nat → Bool) (b : RawBuffer) (data : List UInt8) :
    Except VecFault RawBuffer :=
  appendFrom alloc b data data.length

/-- `append(const StringPiece& str)`. -/
def appendPiece (alloc : Nat → Bool) (b : RawBuffer) (str : StringPiece) :
    Except VecFault RawBuffer :=
  appendFrom alloc b str.data (castSize str.size)

def toStringPiece (b : RawBuffer) : StringPiece :=
  .ofPointer (b.buffer.drop b.readerIndex) (castInt b.readableBytes)

/-- An exception on the way to a new buffer leaves the old one alone. -/
def aside (b : RawBuffer) : VecFault → VecFault
  | .refused _ => .refused b
  | .fault f => .fault f

/-- The local `other` of `shrink`, before the swap. -/
def shrinkOther (alloc : Nat → Bool) (b : RawBuffer) (reserve : Nat) :
    Except VecFault RawBuffer := do
  let other ← create alloc
  let other ← ensureWritableBytes alloc other (plus b.readableBytes reserve)
  appendPiece alloc other (toStringPiece b)

def shrink (alloc : Nat → Bool) (b : RawBuffer) (reserve : Nat) :
    Except VecFault RawBuffer :=
  (shrinkOther alloc b reserve).mapError (aside b)

-- =============================================================== reading

/-- What `readv` did: it failed, or it filled the iovecs in order with
the first bytes of the stream. -/
inductive Readv
  | failed (errno : Nat)
  | filled (data : List UInt8)
  deriving Repr, DecidableEq

/-- The bytes read. -/
def Readv.data : Readv → List UInt8
  | .failed _ => []
  | .filled data => data

/-- The result `n` of the call. -/
def Readv.n : Readv → Int
  | .failed _ => -1
  | .filled data => data.length

/-- `errno` after a call that failed. -/
def Readv.errno : Readv → Option Nat
  | .failed errno => some errno
  | .filled _ => none

/-- The total length of the iovecs that `readFd` passes. -/
def iovLen (b : RawBuffer) : Nat :=
  if b.writableBytes < Buffer.kExtraSize then
    b.writableBytes + Buffer.kExtraSize
  else b.writableBytes

/-- The branches of `readFd` after the call. -/
inductive ReadBranch
  | failed
  | fits
  | spills
  /-- `n > writable + sizeof extrabuf` -/
  | beyond
  deriving Repr, DecidableEq

def readBranch (b : RawBuffer) (r : Readv) : ReadBranch :=
  if r.n < 0 then .failed
  else if r.n.toNat ≤ b.writableBytes then .fits
  else if r.n.toNat ≤ plus b.writableBytes Buffer.kExtraSize then .spills
  else .beyond

/-- `readFd` after the call, with its local `writable`; what did not fit
is in `extrabuf`. -/
def afterReadv (alloc : Nat → Bool) (b : RawBuffer) (writable : Nat)
    (r : Readv) : ReadBranch → Except VecFault (Int × Option Nat × RawBuffer)
  | .failed => .ok (r.n, r.errno, b)
  | .fits => .ok (r.n, none, b.hasWritten r.n.toNat)
  | .spills => do
      let b := { b with writerIndex := b.buffer.length }
      let extrabuf := r.data.drop writable
      let b ← appendFrom alloc b extrabuf (minus r.n.toNat writable)
      .ok (r.n, none, b)
  | .beyond => .ok (r.n, none, b)

/-- `readFd`: the number it returns, what it saves of `errno`, and the
buffer. The kernel puts the first bytes behind the content. -/
def readFd (alloc : Nat → Bool) (b : RawBuffer) (r : Readv) :
    Except VecFault (Int × Option Nat × RawBuffer) := do
  let filled ←
    (b.copy (r.data.take b.writableBytes) b.writerIndex).mapError .fault
  afterReadv alloc filled b.writableBytes r (readBranch b r)

-- ============================================================== searching

/-- The assertions of `findEOL`, and leaving the vector. -/
inductive FindFault
  | startBegin
  | startEnd
  | outOfBounds
  deriving Repr, DecidableEq

/-- `'\n'`. -/
def kEOL : UInt8 := 10

/-- `memchr` from a pointer into the vector: it stops at the first `c`,
and leaves the vector when there is none and it is to look further. -/
def memchr (b : RawBuffer) (start : Nat) (c : UInt8) (len : Nat) :
    Except FindFault (Option Nat) :=
  match (slice b.buffer start (start + len)).findIdx? (· == c) with
  | some i => .ok (some (start + i))
  | none => do
      require (start + len ≤ b.buffer.length) .outOfBounds
      .ok none

/-- `findEOL()`. -/
def findEOL (b : RawBuffer) : Except FindFault (Option Nat) :=
  memchr b b.readerIndex kEOL b.readableBytes

/-- `findEOL(const char* start)`. -/
def findEOLFrom (b : RawBuffer) (start : Nat) :
    Except FindFault (Option Nat) := do
  require (b.readerIndex ≤ start) .startBegin
  require (start ≤ b.writerIndex) .startEnd
  memchr b start kEOL b.readableBytes

/-- Where the first `'\n'` of the content from `start` on is. -/
def firstEOL (b : RawBuffer) (start : Nat) : Option Nat :=
  ((slice b.buffer start b.writerIndex).findIdx? (· == kEOL)).map (start + ·)

/-- Bytes put at `BeginWrite()` and not counted. -/
def fill (b : RawBuffer) (data : List UInt8) : Except RawFault RawBuffer :=
  b.copy data b.writerIndex

end VecBuffer

-- ============================================================= the calls

/-- The calls of the member functions of one buffer. -/
inductive BufferCall
  | append (alloc : Nat → Bool) (data : List UInt8)
  | prepend (data : List UInt8)
  | retrieve (len : Nat)
  | retrieveUntil (n : Nat)
  | retrieveAsString (len : Nat)
  | retrieveAll
  | ensureWritableBytes (alloc : Nat → Bool) (len : Nat)
  | fill (data : List UInt8)
  | hasWritten (len : Nat)
  | readFd (alloc : Nat → Bool) (r : VecBuffer.Readv)
  | shrink (alloc : Nat → Bool) (reserve : Nat)

namespace BufferCall

/-- The caller goes on after an exception. -/
def caught (x : Except VecFault RawBuffer) : Except RawFault RawBuffer :=
  match x with
  | .ok b => .ok b
  | .error (.refused left) => .ok left
  | .error (.fault f) => .error f

def step (b : RawBuffer) : BufferCall → Except RawFault RawBuffer
  | .append alloc data => caught (VecBuffer.append alloc b data)
  | .prepend data => b.prepend data
  | .retrieve len => b.retrieve len
  | .retrieveUntil n => b.retrieveUntil (plus b.readerIndex n)
  | .retrieveAsString len => (b.retrieveAsString len).map (·.2)
  | .retrieveAll => .ok b.retrieveAll
  | .ensureWritableBytes alloc len =>
      caught (VecBuffer.ensureWritableBytes alloc b len)
  | .fill data => VecBuffer.fill b data
  | .hasWritten len => .ok (b.hasWritten len)
  | .readFd alloc r => caught ((VecBuffer.readFd alloc b r).map (·.2.2))
  | .shrink alloc reserve => caught (VecBuffer.shrink alloc b reserve)

/-- What a caller has to keep to. -/
def Legal (b : RawBuffer) : BufferCall → Prop
  | .append _ data => b.writerIndex + data.length < sizeMod
  | .prepend data => data.length ≤ b.prependableBytes
  | .retrieve len => len ≤ b.readableBytes
  | .retrieveUntil n => n ≤ b.readableBytes
  | .retrieveAsString len => len ≤ b.readableBytes
  | .retrieveAll => True
  | .ensureWritableBytes _ len => b.writerIndex + len < sizeMod
  | .fill data => data.length ≤ b.writableBytes
  | .hasWritten len => len ≤ b.writableBytes
  | .readFd _ r => r.data.length ≤ VecBuffer.iovLen b
  | .shrink _ reserve =>
      kCheapPrepend + plus b.readableBytes reserve < sizeMod

instance (b : RawBuffer) : ∀ call, Decidable (Legal b call)
  | .append .. => inferInstanceAs (Decidable (_ < _))
  | .prepend _ => inferInstanceAs (Decidable (_ ≤ _))
  | .retrieve _ => inferInstanceAs (Decidable (_ ≤ _))
  | .retrieveUntil _ => inferInstanceAs (Decidable (_ ≤ _))
  | .retrieveAsString _ => inferInstanceAs (Decidable (_ ≤ _))
  | .retrieveAll => .isTrue trivial
  | .ensureWritableBytes .. => inferInstanceAs (Decidable (_ < _))
  | .fill _ => inferInstanceAs (Decidable (_ ≤ _))
  | .hasWritten _ => inferInstanceAs (Decidable (_ ≤ _))
  | .readFd .. => inferInstanceAs (Decidable (_ ≤ _))
  | .shrink .. => inferInstanceAs (Decidable (_ < _))

end BufferCall

/-- A buffer that calls have led to. -/
def Reachable (b : RawBuffer) : Prop :=
  ∃ calls, Along BufferCall.step BufferCall.Legal .new calls
    ∧ run BufferCall.step .new calls = .ok b

end Cobra
