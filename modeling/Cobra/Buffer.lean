/-
`Buffer` (cobra/buffer.h, buffer.cpp): a vector of bytes with a reader
and a writer index, and in between them the content.

# Shape

    | prependable bytes |  readable bytes  |  writable bytes  |
    0       <=     readerIndex    <=   writerIndex    <=    size

The order of the indices is part of the type, so that every operation
has to keep it; so is that the vector never gets smaller than the
`kCheapPrepend` bytes in front, where `retrieveAll` puts both indices.
Sizes are natural numbers. A failed assertion of the source is an
`.error`.

A write at `BeginWrite()` followed by `hasWritten` is `write`, which asks
for the room. `ensureWritableBytes` returns the buffer together with the
room it has made.
-/
import Cobra.Lib.Machine
import Cobra.Lib.Window

namespace Cobra

open Machine Window

/-- The assertions of `Buffer`. -/
inductive BufferAssert
  | retrieveLen
  | ensureWritable
  | makeSpaceReader
  | makeSpaceReadable
  deriving Repr, DecidableEq

def kCheapPrepend : Nat := 8

def kInitialSize : Nat := 1024

structure Buffer where
  buffer : List UInt8
  readerIndex : Nat
  writerIndex : Nat
  reader_le : readerIndex ≤ writerIndex
  writer_le : writerIndex ≤ buffer.length
  prepend_le : kCheapPrepend ≤ buffer.length
  deriving Repr, DecidableEq

namespace Buffer

/-- The constructor. -/
def empty : Buffer where
  buffer := List.replicate (kCheapPrepend + kInitialSize) 0
  readerIndex := kCheapPrepend
  writerIndex := kCheapPrepend
  reader_le := Nat.le_refl _
  writer_le := by rw [List.length_replicate]; exact Nat.le_add_right ..
  prepend_le := by rw [List.length_replicate]; exact Nat.le_add_right ..

def readableBytes (b : Buffer) : Nat := b.writerIndex - b.readerIndex

def writableBytes (b : Buffer) : Nat := b.buffer.length - b.writerIndex

def prependableBytes (b : Buffer) : Nat := b.readerIndex

/-- The readable bytes, from `BeginRead()` to `BeginWrite()`. -/
def content (b : Buffer) : List UInt8 :=
  slice b.buffer b.readerIndex b.writerIndex

def retrieveAll (b : Buffer) : Buffer where
  buffer := b.buffer
  readerIndex := kCheapPrepend
  writerIndex := kCheapPrepend
  reader_le := Nat.le_refl _
  writer_le := b.prepend_le
  prepend_le := b.prepend_le

def retrieve (b : Buffer) (len : Nat) : Except BufferAssert Buffer := do
  require (len ≤ b.readableBytes) .retrieveLen
  if h : len < b.readableBytes then
    .ok { b with
      readerIndex := b.readerIndex + len
      reader_le := by unfold readableBytes at h; omega }
  else .ok b.retrieveAll

theorem length_content (b : Buffer) : b.content.length = b.readableBytes :=
  length_slice b.writer_le

/-- The content fits in front of where it is. -/
theorem front_le (b : Buffer) (h : kCheapPrepend < b.readerIndex) :
    kCheapPrepend + b.content.length ≤ b.buffer.length := by
  have hr := b.reader_le
  have hw := b.writer_le
  rw [length_content]
  unfold readableBytes
  omega

/-- `makeSpace`, called when there is not enough room: grow the vector,
or move the content to the front. -/
def makeSpace (b : Buffer) (len : Nat) (hlen : b.writableBytes < len) :
    Except BufferAssert Buffer :=
  if b.writableBytes + b.prependableBytes < len + kCheapPrepend then
    .ok { b with
      buffer := resize b.buffer (b.writerIndex + len) 0
      writer_le := by
        rw [length_resize]
        exact Nat.le_add_right ..
      prepend_le := by
        have hp := b.prepend_le
        unfold writableBytes at hlen
        rw [length_resize]
        omega }
  else if h : kCheapPrepend < b.readerIndex then do
    let readable := b.readableBytes
    let moved : Buffer :=
      { buffer := overlay b.buffer kCheapPrepend b.content
        readerIndex := kCheapPrepend
        writerIndex := kCheapPrepend + readable
        reader_le := Nat.le_add_right ..
        writer_le := by
          have hfront := b.front_le h
          rw [length_content] at hfront
          rw [length_overlay (b.front_le h)]
          exact hfront
        prepend_le := by
          rw [length_overlay (b.front_le h)]
          exact b.prepend_le }
    require (readable = moved.readableBytes) .makeSpaceReadable
    .ok moved
  else .error .makeSpaceReader

/-- `ensureWritableBytes` up to its assertion. -/
def makeRoom (b : Buffer) (len : Nat) : Except BufferAssert Buffer :=
  if h : b.writableBytes < len then b.makeSpace len h else .ok b

/-- `ensureWritableBytes`, with the room that its assertion promises. -/
def ensureWritableBytes (b : Buffer) (len : Nat) :
    Except BufferAssert { b : Buffer // len ≤ b.writableBytes } := do
  let b ← b.makeRoom len
  if h : len ≤ b.writableBytes then .ok ⟨b, h⟩ else .error .ensureWritable

/-- Bytes copied to `BeginWrite()`, and `hasWritten`. -/
def write (b : Buffer) (data : List UInt8)
    (h : data.length ≤ b.writableBytes) : Buffer where
  buffer := overlay b.buffer b.writerIndex data
  readerIndex := b.readerIndex
  writerIndex := b.writerIndex + data.length
  reader_le := Nat.le_trans b.reader_le (Nat.le_add_right ..)
  writer_le := by
    have hw := b.writer_le
    unfold writableBytes at h
    rw [length_overlay (by omega)]
    omega
  prepend_le := by
    have hw := b.writer_le
    unfold writableBytes at h
    rw [length_overlay (by omega)]
    exact b.prepend_le

def append (b : Buffer) (data : List UInt8) : Except BufferAssert Buffer := do
  let ⟨b, h⟩ ← b.ensureWritableBytes data.length
  .ok (b.write data h)

/-- `prepend`, with the room that its assertion asks for. -/
def prepend (b : Buffer) (data : List UInt8)
    (h : data.length ≤ b.prependableBytes) : Buffer where
  buffer := overlay b.buffer (b.readerIndex - data.length) data
  readerIndex := b.readerIndex - data.length
  writerIndex := b.writerIndex
  reader_le := Nat.le_trans (Nat.sub_le ..) b.reader_le
  writer_le := by
    have hr := b.reader_le
    have hw := b.writer_le
    unfold prependableBytes at h
    rw [length_overlay (by omega)]
    exact hw
  prepend_le := by
    have hr := b.reader_le
    have hw := b.writer_le
    unfold prependableBytes at h
    rw [length_overlay (by omega)]
    exact b.prepend_le

-- ============================================================== reading

/-- The size of `extrabuf`. -/
def kExtraSize : Nat := 65536

/-- The total length of the iovecs that `readFd` passes to `readv`. -/
def readvSize (b : Buffer) : Nat :=
  if b.writableBytes < kExtraSize then b.writableBytes + kExtraSize
  else b.writableBytes

/-- `readFd`, after a `readv` that has filled the iovecs with `data`. -/
def readFd (b : Buffer) (data : List UInt8) : Except BufferAssert Buffer :=
  if h : data.length ≤ b.writableBytes then .ok (b.write data h)
  else if data.length ≤ b.writableBytes + kExtraSize then
    (b.write (data.take b.writableBytes) (List.length_take_le ..)).append
      (data.drop b.writableBytes)
  else .ok b

end Buffer

end Cobra
