/-
The integers of a `Buffer` (cobra/buffer.h, cobra/endian.h):
`appendInt8/16/32`, `prependInt8/16/32`, `peekInt8/16/32`,
`retrieveInt8/16/32` and `readInt8/16/32`, over a machine of either byte
order.

An integer travels as it does in the source: from its signed type to the
unsigned one of the same width, through `hostToNetwork`, back to the
signed type, and then as the bytes that it has in memory. The functions
for 16 and 32 bits are one function with the width as a parameter; those
for 8 bits have no conversion.

`htobe` and `betoh` swap the bytes on a machine that keeps the lowest byte
first, and do nothing on one that keeps the highest byte first. The
functions for 64 bits are not used by `Buffer`.
-/
import Cobra.VecBuffer
import Cobra.Lib.Bytes

namespace Cobra

open Machine Bytes

/-- The types of the integers. -/
inductive IntType
  | int8
  | int16
  | int32
  deriving Repr, DecidableEq

/-- `sizeof`. -/
def IntType.width : IntType → Nat
  | .int8 => 1
  | .int16 => 2
  | .int32 => 4

/-- A value of one of the types. -/
inductive NetInt
  | int8 (x : Int8)
  | int16 (x : Int16)
  | int32 (x : Int32)
  deriving Repr, DecidableEq

namespace NetInt

def type : NetInt → IntType
  | .int8 _ => .int8
  | .int16 _ => .int16
  | .int32 _ => .int32

def width (v : NetInt) : Nat := v.type.width

/-- The bits of a value, as a number. -/
def bits : NetInt → Nat
  | .int8 x => x.toUInt8.toNat
  | .int16 x => x.toUInt16.toNat
  | .int32 x => x.toUInt32.toNat

/-- A value in the network's order: its bits with the highest byte
first. -/
def bytes (v : NetInt) : List UInt8 := toBE v.width v.bits

end NetInt

-- ============================================================= endian.h

section Endian

variable (host : ByteOrder)

def hostToNetwork32 (host32 : UInt32) : UInt32 :=
  .ofNat (host.toNetwork 4 host32.toNat)

def hostToNetwork16 (host16 : UInt16) : UInt16 :=
  .ofNat (host.toNetwork 2 host16.toNat)

def networkToHost32 (net32 : UInt32) : UInt32 :=
  .ofNat (host.ofNetwork 4 net32.toNat)

def networkToHost16 (net16 : UInt16) : UInt16 :=
  .ofNat (host.ofNetwork 2 net16.toNat)

end Endian

/-- The assertion of `peekInt`, and the faults of the rest. -/
inductive IntFault
  | peekLen
  | buffer (f : RawFault)
  deriving Repr, DecidableEq

namespace BufferInts

variable (host : ByteOrder)

-- ============================================================ the writes

/-- The memory of the local `be32`. -/
def memory32 (x : Int32) : List UInt8 :=
  let be32 : Int32 := (hostToNetwork32 host x.toUInt32).toInt32
  host.store 4 be32.toUInt32.toNat

/-- The memory of the local `be16`. -/
def memory16 (x : Int16) : List UInt8 :=
  let be16 : Int16 := (hostToNetwork16 host x.toUInt16).toInt16
  host.store 2 be16.toUInt16.toNat

/-- The memory of an `int8_t`. -/
def memory8 (x : Int8) : List UInt8 := [x.toUInt8]

def appendInt32 (alloc : Nat → Bool) (b : RawBuffer) (x : Int32) :
    Except VecFault RawBuffer :=
  VecBuffer.append alloc b (memory32 host x)

def appendInt16 (alloc : Nat → Bool) (b : RawBuffer) (x : Int16) :
    Except VecFault RawBuffer :=
  VecBuffer.append alloc b (memory16 host x)

def appendInt8 (alloc : Nat → Bool) (b : RawBuffer) (x : Int8) :
    Except VecFault RawBuffer :=
  VecBuffer.append alloc b (memory8 x)

def prependInt32 (b : RawBuffer) (x : Int32) : Except RawFault RawBuffer :=
  b.prepend (memory32 host x)

def prependInt16 (b : RawBuffer) (x : Int16) : Except RawFault RawBuffer :=
  b.prepend (memory16 host x)

def prependInt8 (b : RawBuffer) (x : Int8) : Except RawFault RawBuffer :=
  b.prepend (memory8 x)

-- ============================================================= the reads

/-- `memcpy` of `k` bytes from `BeginRead()`, after the assertion that
they are there. -/
def copyOut (b : RawBuffer) (k : Nat) : Except IntFault (List UInt8) := do
  require (k ≤ b.readableBytes) .peekLen
  (b.bytes b.readerIndex (plus b.readerIndex k)).mapError .buffer

def peekInt32 (b : RawBuffer) : Except IntFault Int32 := do
  let mem ← copyOut b 4
  let be32 : Int32 := (UInt32.ofNat (host.load mem)).toInt32
  .ok (networkToHost32 host be32.toUInt32).toInt32

def peekInt16 (b : RawBuffer) : Except IntFault Int16 := do
  let mem ← copyOut b 2
  let be16 : Int16 := (UInt16.ofNat (host.load mem)).toInt16
  .ok (networkToHost16 host be16.toUInt16).toInt16

/-- `peekInt8` reads the byte itself. -/
def peekInt8 (b : RawBuffer) : Except IntFault Int8 := do
  let mem ← copyOut b 1
  match mem with
  | x :: _ => .ok x.toInt8
  | [] => .error (.buffer .outOfBounds)

/-- `retrieveInt32`, `retrieveInt16` and `retrieveInt8`. -/
def retrieveInt (b : RawBuffer) (t : IntType) : Except IntFault RawBuffer :=
  (b.retrieve t.width).mapError .buffer

def readInt32 (b : RawBuffer) : Except IntFault (Int32 × RawBuffer) := do
  let result ← peekInt32 host b
  let b ← retrieveInt b .int32
  .ok (result, b)

def readInt16 (b : RawBuffer) : Except IntFault (Int16 × RawBuffer) := do
  let result ← peekInt16 host b
  let b ← retrieveInt b .int16
  .ok (result, b)

def readInt8 (b : RawBuffer) : Except IntFault (Int8 × RawBuffer) := do
  let result ← peekInt8 b
  let b ← retrieveInt b .int8
  .ok (result, b)

-- ======================================================= any of the types

/-- `appendInt` of the value's type. -/
def appendInt (alloc : Nat → Bool) (b : RawBuffer) :
    NetInt → Except VecFault RawBuffer
  | .int8 x => appendInt8 alloc b x
  | .int16 x => appendInt16 host alloc b x
  | .int32 x => appendInt32 host alloc b x

/-- `prependInt` of the value's type. -/
def prependInt (b : RawBuffer) : NetInt → Except RawFault RawBuffer
  | .int8 x => prependInt8 b x
  | .int16 x => prependInt16 host b x
  | .int32 x => prependInt32 host b x

/-- `peekInt` of a type. -/
def peekInt (b : RawBuffer) : IntType → Except IntFault NetInt
  | .int8 => (peekInt8 b).map .int8
  | .int16 => (peekInt16 host b).map .int16
  | .int32 => (peekInt32 host b).map .int32

/-- `readInt` of a type. -/
def readInt (b : RawBuffer) : IntType → Except IntFault (NetInt × RawBuffer)
  | .int8 => (readInt8 b).map fun r => (.int8 r.1, r.2)
  | .int16 => (readInt16 host b).map fun r => (.int16 r.1, r.2)
  | .int32 => (readInt32 host b).map fun r => (.int32 r.1, r.2)

/-- A sequence of reads. -/
def readInts : List IntType → RawBuffer →
    Except IntFault (List NetInt × RawBuffer)
  | [], b => .ok ([], b)
  | t :: ts, b => do
      let (v, b) ← readInt host b t
      let (vs, b) ← readInts ts b
      .ok (v :: vs, b)

-- ============================================================ the calls

/-- A value put at one end of the buffer. -/
inductive PutInt
  | append (alloc : Nat → Bool) (v : NetInt)
  | prepend (v : NetInt)

def step (b : RawBuffer) : PutInt → Except VecFault RawBuffer
  | .append alloc v => appendInt host alloc b v
  | .prepend v => (prependInt host b v).mapError .fault

/-- A prepended value has the room in front, and the vector does not
refuse to grow for an appended one. -/
def Fits (b : RawBuffer) : PutInt → Prop
  | .append alloc v => ¬ VecBuffer.Refuses alloc b v.width
  | .prepend v => v.width ≤ b.prependableBytes

instance (b : RawBuffer) : ∀ p, Decidable (Fits b p)
  | .append .. => inferInstanceAs (Decidable (¬ _))
  | .prepend _ => inferInstanceAs (Decidable (_ ≤ _))

/-- The values appended, in order. -/
def appended : List PutInt → List NetInt
  | [] => []
  | .append _ v :: puts => v :: appended puts
  | .prepend _ :: puts => appended puts

/-- The values prepended, in order. -/
def prepended : List PutInt → List NetInt
  | [] => []
  | .append _ _ :: puts => prepended puts
  | .prepend v :: puts => v :: prepended puts

end BufferInts

end Cobra
