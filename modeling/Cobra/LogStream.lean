/-
`LogStream` (base/LogStream.h, LogStream.cc): items are written one after
the other into a `FixedBuffer`, which leaves out what does not fit.

# Memory

The array `data_` is a list of `SIZE` bytes and a pointer into it an
offset. A write that leaves the array, and a read that leaves the object
it reads from, is an `.error` (`StreamFault.outOfBounds`); a pointer to
other memory is the memory from there to the end of the object. The
constructor does not initialise `data_`, so a new buffer is one over any
bytes.

`FixedBuffer` of Cobra.AsyncLogging is the bytes up to `cur_` only. Here
the numbers are formatted in place, behind `cur_`, and then counted with
`add`, so that the whole array is kept.

# Numbers

`convert` and `convertHex` share their loop: it peels digits off the
back, with the division and the remainder of C, which round towards zero,
and looks them up in a table. The remainders of a negative number are
negative, and the table of `convert` has the digits on both sides of its
zero. A value of an integer type is the integer it stands for.

A `double` is given by the text that `"%.12g"` makes of it.
-/
import Cobra.StringPiece

namespace Cobra

open Machine Window

/-- Where a stream stops. -/
inductive StreamFault
  /-- a read or a write outside the object -/
  | outOfBounds
  /-- `assert(static_cast<size_t>(length_) < sizeof buf_)` -/
  | fmtLength
  /-- `assert(strlen(str) == len_)` of `T` (Logging.cc) -/
  | knownLength
  /-- `assert(us.length() == 9)` of `formatTime` -/
  | microsLength
  deriving Repr, DecidableEq

namespace Detail

-- ============================================================== memory

/-- Bytes written into an array. -/
def put (mem : List UInt8) (i : Nat) (data : List UInt8) :
    Except StreamFault (List UInt8) := do
  require (i + data.length ≤ mem.length) .outOfBounds
  .ok (overlay mem i data)

/-- An element of an array of characters. -/
def element (table : List UInt8) (i : Int) : Except StreamFault UInt8 := do
  require (0 ≤ i ∧ i < table.length) .outOfBounds
  .ok (table.getD i.toNat 0)

/-- `std::reverse`. -/
def reverse (mem : List UInt8) (first last : Nat) :
    Except StreamFault (List UInt8) := do
  require (first ≤ last ∧ last ≤ mem.length) .outOfBounds
  .ok (overlay mem first (slice mem first last).reverse)

/-- `strlen`: the bytes in front of the first zero, if there is one. -/
def strlen (mem : List UInt8) : Except StreamFault Nat := do
  require (0 ∈ mem) .outOfBounds
  .ok (mem.idxOf 0)

/-- The bytes of a text. -/
def ascii (text : List Char) : List UInt8 := text.map fun c => c.toNat.toUInt8

/-- A string literal: the text and the zero behind it. -/
def literal (text : String) : List UInt8 := ascii text.toList ++ [0]

/-- `snprintf(buf, size, ..)`: the text, cut so that the zero fits in,
and what it returns, the length of the whole text. -/
def snprintfTo (mem : List UInt8) (buf size : Nat) (text : List UInt8) :
    Except StreamFault (List UInt8 × Nat) := do
  let mem ← put mem buf (text.take (size - 1) ++ [0])
  .ok (mem, text.length)

-- ============================================================= numbers

/-- `const char digits[]`. -/
def digits : List UInt8 := literal "9876543210123456789"

/-- `const char* zero`, as an offset in `digits`. -/
def zero : Int := 9

def digitsHex : List UInt8 := literal "0123456789ABCDEF"

-- the static assertions
example : digits.length = 20 ∧ digitsHex.length = 17 := by decide

/-- `do { .. } while (i != 0)`: the last digit of `i` is looked up,
`origin` being the place of the zero in the table, and written to `p`.
Returns the memory and the final `p`. -/
def digitLoop (base : Nat) (hbase : 1 < base) (table : List UInt8)
    (origin : Int) (mem : List UInt8) (p : Nat) (i : Int) :
    Except StreamFault (List UInt8 × Nat) := do
  let lsd := i.tmod base
  let c ← element table (origin + lsd)
  let mem ← put mem p [c]
  if i.tdiv base ≠ 0 then
    digitLoop base hbase table origin mem (p + 1) (i.tdiv base)
  else .ok (mem, p + 1)
termination_by i.natAbs
decreasing_by
  rename_i hmore
  rw [Int.natAbs_tdiv]
  have hne : i.natAbs ≠ 0 := by
    intro h
    rw [Int.natAbs_eq_zero.1 h, Int.zero_tdiv] at hmore
    exact hmore rfl
  exact Nat.div_lt_self (by omega) hbase

/-- `if (value < 0) { *p++ = '-'; }` -/
def putSign (mem : List UInt8) (p : Nat) (value : Int) :
    Except StreamFault (List UInt8 × Nat) :=
  if value < 0 then do
    let mem ← put mem p (ascii ['-'])
    .ok (mem, p + 1)
  else .ok (mem, p)

/-- The memory after the call, and the length that it returns. -/
def convert (mem : List UInt8) (buf : Nat) (value : Int) :
    Except StreamFault (List UInt8 × Nat) := do
  let (mem, p) ← digitLoop 10 (by decide) digits zero mem buf value
  let (mem, p) ← putSign mem p value
  let mem ← put mem p [0]
  let mem ← reverse mem buf p
  .ok (mem, p - buf)

def convertHex (mem : List UInt8) (buf : Nat) (value : UInt64) :
    Except StreamFault (List UInt8 × Nat) := do
  let (mem, p) ← digitLoop 16 (by decide) digitsHex 0 mem buf value.toNat
  let mem ← put mem p [0]
  let mem ← reverse mem buf p
  .ok (mem, p - buf)

end Detail

open Detail

-- ========================================================== the buffer

def kSmallBuffer : Nat := 4000

/-- `FixedBuffer<SIZE>` with the whole array, `SIZE` being its length. -/
structure RawFixedBuffer where
  data : List UInt8
  cur : Nat
  deriving Repr, DecidableEq

namespace RawFixedBuffer

/-- The constructor, over memory that nobody has initialised. -/
def new (mem : List UInt8) : RawFixedBuffer := ⟨mem, 0⟩

/-- A difference of pointers as an `int`. -/
def castDiff (i : Int) : Int := castInt (castSize i)

def length (b : RawFixedBuffer) : Int := castDiff b.cur

def avail (b : RawFixedBuffer) : Int := castDiff (b.data.length - b.cur)

/-- `append`; `buf` points at the start of the memory. -/
def append (b : RawFixedBuffer) (buf : List UInt8) (len : Nat) :
    Except StreamFault RawFixedBuffer :=
  if castSize b.avail > len then do
    require (len ≤ buf.length) .outOfBounds
    let data ← put b.data b.cur (buf.take len)
    .ok { data := data, cur := b.cur + len }
  else .ok b

/-- What was written behind `cur_` is counted. -/
def add (b : RawFixedBuffer) (len : Nat) : RawFixedBuffer :=
  { b with cur := b.cur + len }

def reset (b : RawFixedBuffer) : RawFixedBuffer := { b with cur := 0 }

/-- `debugString` puts its zero at `cur_`. -/
def debugString (b : RawFixedBuffer) : Except StreamFault RawFixedBuffer := do
  let data ← put b.data b.cur [0]
  .ok { b with data := data }

/-- The bytes that `asString()` returns: those up to `cur_`. -/
def content (b : RawFixedBuffer) : List UInt8 := b.data.take b.cur

end RawFixedBuffer

-- =========================================================== the stream

/-- `Fmt`: the text in `buf_`, which the constructor has checked. -/
structure Fmt where
  data : List UInt8
  length_lt : data.length < 32
  deriving Repr, DecidableEq

/-- The constructor; `text` is what `snprintf` makes of the value. -/
def Fmt.create (text : List UInt8) : Except StreamFault Fmt :=
  if h : text.length < 32 then .ok ⟨text, h⟩ else .error .fmtLength

def Fmt.length (f : Fmt) : Int := castInt f.data.length

/-- What is inserted. A `float` is inserted as a `double`. -/
inductive Item
  | bool (v : Bool)
  | short (v : Int16)
  | unsignedShort (v : UInt16)
  | int (v : Int32)
  | unsignedInt (v : UInt32)
  | long (v : Int64)
  | unsignedLong (v : UInt64)
  | longLong (v : Int64)
  | unsignedLongLong (v : UInt64)
  | pointer (p : UInt64)
  /-- by the text that `"%.12g"` gives -/
  | double (text : List UInt8)
  | char (v : UInt8)
  /-- a `const char*` -/
  | chars (v : List UInt8)
  | string (v : List UInt8)
  | piece (v : StringPiece)
  | fmt (f : Fmt)
  deriving Repr, DecidableEq

/-- A stream is its `buffer_`. -/
abbrev LogStream := RawFixedBuffer

namespace LogStream

def kMaxNumericSize : Nat := 32

/-- `append(const char* data, int len)`. -/
def appendInt (s : LogStream) (data : List UInt8) (len : Int) :
    Except StreamFault LogStream :=
  s.append data (castSize len)

def formatInteger (s : LogStream) (v : Int) : Except StreamFault LogStream :=
  if s.avail ≥ kMaxNumericSize then do
    let (data, len) ← convert s.data s.cur v
    .ok ({ s with data := data }.add len)
  else .ok s

def insertInt (s : LogStream) (v : Int32) : Except StreamFault LogStream :=
  s.formatInteger v.toInt

def insertUnsignedInt (s : LogStream) (v : UInt32) :
    Except StreamFault LogStream :=
  s.formatInteger v.toNat

def insertPointer (s : LogStream) (p : UInt64) :
    Except StreamFault LogStream :=
  if s.avail ≥ kMaxNumericSize then do
    let data ← put s.data s.cur (ascii ['0'])
    let data ← put data (s.cur + 1) (ascii ['x'])
    let (data, len) ← convertHex data (s.cur + 2) p
    .ok ({ s with data := data }.add (len + 2))
  else .ok s

def insertDouble (s : LogStream) (text : List UInt8) :
    Except StreamFault LogStream :=
  if s.avail ≥ kMaxNumericSize then do
    let (data, len) ← snprintfTo s.data s.cur kMaxNumericSize text
    .ok ({ s with data := data }.add len)
  else .ok s

def insertChars (s : LogStream) (v : List UInt8) :
    Except StreamFault LogStream := do
  let len ← strlen v
  s.append v len

/-- `operator<<`. -/
def insert (s : LogStream) : Item → Except StreamFault LogStream
  | .bool v => s.append (literal (if v then "1" else "0")) 1
  | .short v => s.insertInt v.toInt32
  | .unsignedShort v => s.insertUnsignedInt v.toUInt32
  | .int v => s.insertInt v
  | .unsignedInt v => s.insertUnsignedInt v
  | .long v => s.formatInteger v.toInt
  | .unsignedLong v => s.formatInteger v.toNat
  | .longLong v => s.formatInteger v.toInt
  | .unsignedLongLong v => s.formatInteger v.toNat
  | .pointer p => s.insertPointer p
  | .double text => s.insertDouble text
  | .char v => s.append [v] 1
  | .chars v => s.insertChars v
  | .string v => s.append (v ++ [0]) v.length
  | .piece v => s.append v.data (castSize v.size)
  | .fmt f => s.appendInt f.data f.length

end LogStream

/-- The calls of a stream. -/
inductive StreamCall
  | insert (item : Item)
  | resetBuffer
  deriving Repr, DecidableEq

def StreamCall.step (s : LogStream) : StreamCall → Except StreamFault LogStream
  | .insert item => s.insert item
  | .resetBuffer => .ok s.reset

-- ========================================================= what is meant

/-- The values of the integer types, which have at most 64 bits. -/
def In64 (v : Int) : Prop :=
  -9223372036854775808 ≤ v ∧ v < 18446744073709551616

/-- The decimal numeral. -/
def decimal (v : Int) : List Char :=
  if v < 0 then '-' :: Nat.toDigits 10 v.natAbs else Nat.toDigits 10 v.natAbs

/-- The hexadecimal numeral, in upper case. -/
def hexadecimal (n : Nat) : List Char := (Nat.toDigits 16 n).map Char.toUpper

namespace Item

/-- The text of an item. -/
def render : Item → List UInt8
  | .bool v => ascii [if v then '1' else '0']
  | .short v => ascii (decimal v.toInt)
  | .unsignedShort v => ascii (decimal v.toNat)
  | .int v => ascii (decimal v.toInt)
  | .unsignedInt v => ascii (decimal v.toNat)
  | .long v => ascii (decimal v.toInt)
  | .unsignedLong v => ascii (decimal v.toNat)
  | .longLong v => ascii (decimal v.toInt)
  | .unsignedLongLong v => ascii (decimal v.toNat)
  | .pointer p => ascii ('0' :: 'x' :: hexadecimal p.toNat)
  | .double text => text
  | .char v => [v]
  | .chars v => v.takeWhile (· ≠ 0)
  | .string v => v
  | .piece v => v.data.take (castSize v.size)
  | .fmt f => f.data

/-- How long it is. A piece says so itself; if it is made of a string
whose length is no `int`, its size may be negative, which is a very large
`size_t`. -/
def size : Item → Nat
  | .piece v => castSize v.size
  | item => item.render.length

/-- What an item has to be: a text with a zero behind it, a piece that
points at as many bytes as it says, a `double` that `snprintf` has room
for. -/
def Ok : Item → Prop
  | .chars v => 0 ∈ v
  | .piece v => -intMod ≤ v.size ∧ v.size < intMod ∧ v.size ≤ v.data.length
  | .double text => text.length < LogStream.kMaxNumericSize
  | _ => True

instance : ∀ item : Item, Decidable item.Ok
  | .chars v => inferInstanceAs (Decidable (0 ∈ v))
  | .piece _ => inferInstanceAs (Decidable (_ ∧ _))
  | .double _ => inferInstanceAs (Decidable (_ < _))
  | .bool _ | .short _ | .unsignedShort _ | .int _ | .unsignedInt _
  | .long _ | .unsignedLong _ | .longLong _ | .unsignedLongLong _
  | .pointer _ | .char _ | .string _ | .fmt _ => .isTrue trivial

/-- The items that are formatted in place. -/
def numeric : Item → Bool
  | .short _ | .unsignedShort _ | .int _ | .unsignedInt _ | .long _
  | .unsignedLong _ | .longLong _ | .unsignedLongLong _ | .pointer _
  | .double _ => true
  | .bool _ | .char _ | .chars _ | .string _ | .piece _ | .fmt _ => false

/-- There is room for the item: 32 bytes for a number, one byte more than
its length for a text. -/
def Fits (item : Item) (avail : Nat) : Prop :=
  if item.numeric then LogStream.kMaxNumericSize ≤ avail else item.size < avail

instance (item : Item) (avail : Nat) : Decidable (item.Fits avail) :=
  inferInstanceAs (Decidable (if item.numeric
    then LogStream.kMaxNumericSize ≤ avail else item.size < avail))

/-- What the item leaves of a content in `size` bytes. -/
def fill (size : Nat) (content : List UInt8) (item : Item) : List UInt8 :=
  if item.Fits (size - content.length) then content ++ item.render
  else content

end Item

end Cobra
