/-
`readTimeZoneFile` and the constructor of `TimeZone` (base/TimeZone.cc):
a zone's table out of the bytes of a file.

# Shape

The file is a reader of bytes (Cobra.Lib.ByteReader) whose output is the
`Data` behind the pointer that is passed in. A short read throws a
`logic_error`, and so does `reserve` with a negative count, which no vector
can hold; what was filled in before stays. Two things are not checked and
have no outcome at all: an array on the stack with a negative length and
an entry of `localtimes` that is not there. That memory runs out is not
modelled, on the stack or elsewhere.

The bytes of a number are in the order of the network. The machine loads
them in its own order, and `be32toh` puts them right.

# What it is for

`ZoneBlock` is the first block of a zone file: six counts, then the arrays
that four of them count. `ZoneBlock.encode` are its bytes, `ZoneBlock.data`
the table that it means.
-/
import Cobra.Lib.ByteReader
import Cobra.Lib.Bytes
import Cobra.TimeZone

namespace Cobra.TimeZone

open Bytes ByteReader

-- ================================================================ the file

/-- The exceptions that `readTimeZoneFile` catches. -/
inductive LogicError
  | noEnoughData
  | badInt32
  | badUInt8
  | badHead
  /-- `std::length_error` -/
  | reserve
  deriving Repr, DecidableEq

def LogicError.what : LogicError → String
  | .noEnoughData => "no enough data"
  | .badInt32 => "bad int32_t data"
  | .badUInt8 => "bad uint8_t data"
  | .badHead => "bad head"
  | .reserve => "vector::reserve"

/-- What has no outcome. -/
inductive ParseFault
  /-- `char buf[n]` with a negative `n` -/
  | arrayLength
  /-- `data->localtimes[localIdx]` -/
  | localtimesIndex
  deriving Repr, DecidableEq

/-- How reading ends early. -/
inductive Halt
  | logicError (e : LogicError)
  | undefined (f : ParseFault)
  deriving Repr, DecidableEq

/-- `detail::File`, with the result that is filled in. -/
abbrev File (α : Type) := Reader Halt Data α

namespace File

def throws {α : Type} (e : LogicError) : File α := fun c =>
  .error (.logicError e) c

/-- `fread` of so many bytes, and the exception when there are fewer. -/
def fread (n : Nat) (e : LogicError) : File (List UInt8) := fun c =>
  if c.rest.length < n then .error (.logicError e) { c with rest := [] }
  else .ok (c.rest.take n) { c with rest := c.rest.drop n }

def readBytes (n : Int) : File (List UInt8) := fun c =>
  if n < 0 then .error (.undefined .arrayLength) c
  else fread n.toNat .noEnoughData c

variable (host : ByteOrder)

def be32toh (x : UInt32) : UInt32 := UInt32.ofNat (host.ofNetwork 4 x.toNat)

def readInt32 : File Int32 := do
  let x ← fread 4 .badInt32
  pure (be32toh host (UInt32.ofNat (host.load x))).toInt32

def readUInt8 : File UInt8 := do
  let x ← fread 1 .badUInt8
  pure (x.headD 0)

-- ============================================================== the parts

/-- The six counts, in the order of the file. -/
structure Counts where
  isgmtcnt : Int32
  isstdcnt : Int32
  leapcnt : Int32
  timecnt : Int32
  typecnt : Int32
  charcnt : Int32
  deriving Repr, DecidableEq

def readCounts : File Counts := do
  let isgmtcnt ← readInt32 host
  let isstdcnt ← readInt32 host
  let leapcnt ← readInt32 host
  let timecnt ← readInt32 host
  let typecnt ← readInt32 host
  let charcnt ← readInt32 host
  pure ⟨isgmtcnt, isstdcnt, leapcnt, timecnt, typecnt, charcnt⟩

/-- The characters of `"TZif"`. -/
def magic : List UInt8 := [84, 90, 105, 102]

/-- The head, the version and what is reserved. -/
def readHead : File (List UInt8) := do
  let head ← readBytes 4
  if head = magic then
    let version ← readBytes 1
    let reserved ← readBytes 15
    pure (version ++ reserved)
  else throws .badHead

/-- `trans.reserve(timecnt)`. -/
def reserve (timecnt : Int32) : File Unit :=
  if timecnt.toInt < 0 then throws .reserve else pure ()

/-- The locals of the loop over the types. -/
structure TypeInfo where
  gmtoff : Int32
  isdst : UInt8
  abbrind : UInt8
  deriving Repr, DecidableEq

def readTypeInfo : File TypeInfo := do
  let gmtoff ← readInt32 host
  let isdst ← readUInt8
  let abbrind ← readUInt8
  pure ⟨gmtoff, isdst, abbrind⟩

/-- `Localtime(gmtoff, isdst, abbrind)`. -/
def TypeInfo.localtime (t : TypeInfo) : Localtime :=
  ⟨t.gmtoff.toInt, t.isdst != 0, t.abbrind.toNat⟩

/-- `data->localtimes.push_back(..)`. -/
def pushLocaltime (l : Localtime) : File Unit := fun c =>
  .ok () { c with out := { c.out with localtimes := c.out.localtimes ++ [l] } }

/-- The loop over the types. -/
def readLocaltimes : Nat → File Unit
  | 0 => pure ()
  | n + 1 => do
      let t ← readTypeInfo host
      pushLocaltime t.localtime
      readLocaltimes n

/-- The body of the loop over the transitions. -/
def pushTransition (trans : Int32) (localIdx : UInt8) : File Unit := fun c =>
  match c.out.localtimes[localIdx.toNat]? with
  | none => .error (.undefined .localtimesIndex) c
  | some l =>
      let t : Transition :=
        ⟨trans.toInt, trans.toInt + l.gmtOffset, localIdx.toNat⟩
      .ok () { c with out :=
        { c.out with transitions := c.out.transitions ++ [t] } }

/-- The loop over the transitions: `trans[i]` and `localtimes[i]`. -/
def pushTransitions : List (Int32 × UInt8) → File Unit
  | [] => pure ()
  | (t, localIdx) :: rest => do
      pushTransition t localIdx
      pushTransitions rest

/-- `data->abbreviation = ..`. -/
def setAbbreviation (chars : List UInt8) : File Unit := fun c =>
  .ok () { c with out := { c.out with abbreviation := chars } }

/-- What is behind the head, up to the characters of the abbreviations. -/
def readBody : File (List UInt8) := do
  let counts ← readCounts host
  reserve counts.timecnt
  let trans ← times counts.timecnt.toInt.toNat (readInt32 host)
  let localtimes ← times counts.timecnt.toInt.toNat readUInt8
  readLocaltimes host counts.typecnt.toInt.toNat
  pushTransitions (trans.zip localtimes)
  readBytes counts.charcnt.toInt

/-- The body of the `try`. -/
def parse : File Unit := do
  let _ ← readHead
  let abbreviation ← readBody host
  setAbbreviation abbreviation

end File

/-- A `Data` as it is constructed. -/
def Data.new : Data := ⟨[], [], []⟩

/-- What `readTimeZoneFile` leaves behind: its result, the `Data`, and a
line on `stderr`. -/
structure ReadResult where
  returned : Bool
  data : Data
  printed : Option String
  deriving Repr, DecidableEq

/-- `readTimeZoneFile`, for a file with these bytes or one that cannot be
opened. -/
def readTimeZoneFile (host : ByteOrder) (file : Option (List UInt8)) :
    Except ParseFault ReadResult :=
  match file with
  | none => .ok ⟨true, .new, none⟩
  | some content =>
      match File.parse host ⟨content, .new⟩ with
      | .ok _ c => .ok ⟨true, c.out, none⟩
      | .error (.logicError e) c => .ok ⟨true, c.out, some e.what⟩
      | .error (.undefined f) _ => .error f

/-- The constructor. -/
def ofFile (host : ByteOrder) (file : Option (List UInt8)) :
    Except ParseFault TimeZone := do
  let r ← readTimeZoneFile host file
  .ok ⟨if r.returned then some r.data else none⟩

-- =========================================================== what it is for

/-- The bytes of a number in a file. -/
def int32Bytes (x : Int32) : List UInt8 := toBE 4 x.toUInt32.toNat

def File.Counts.encode (c : File.Counts) : List UInt8 :=
  int32Bytes c.isgmtcnt ++ (int32Bytes c.isstdcnt ++ (int32Bytes c.leapcnt
    ++ (int32Bytes c.timecnt ++ (int32Bytes c.typecnt
      ++ int32Bytes c.charcnt))))

def File.TypeInfo.encode (t : File.TypeInfo) : List UInt8 :=
  int32Bytes t.gmtoff ++ [t.isdst, t.abbrind]

/-- The first block of a zone file. -/
structure ZoneBlock where
  /-- the version and what is reserved -/
  head : List UInt8
  counts : File.Counts
  times : List Int32
  indices : List UInt8
  types : List File.TypeInfo
  chars : List UInt8
  head_length : head.length = 16
  timecnt : counts.timecnt.toInt = times.length
  indices_length : indices.length = times.length
  typecnt : counts.typecnt.toInt = types.length
  charcnt : counts.charcnt.toInt = chars.length

namespace ZoneBlock

def encode (b : ZoneBlock) : List UInt8 :=
  File.magic ++ (b.head ++ (b.counts.encode ++ (b.times.flatMap int32Bytes
    ++ (b.indices ++ (b.types.flatMap File.TypeInfo.encode ++ b.chars)))))

def localtimes (b : ZoneBlock) : List Localtime :=
  b.types.map File.TypeInfo.localtime

/-- A transition at a time, to the type with an index. -/
def transition (b : ZoneBlock) (trans : Int32) (localIdx : UInt8) :
    Transition where
  gmttime := trans.toInt
  localtime := trans.toInt
    + (b.localtimes.getD localIdx.toNat default).gmtOffset
  localtimeIdx := localIdx.toNat

def data (b : ZoneBlock) : Data where
  transitions := (b.times.zip b.indices).map fun (t, i) => b.transition t i
  localtimes := b.localtimes
  abbreviation := b.chars

/-- Every type index is one of a type. -/
def TypesInRange (b : ZoneBlock) : Prop :=
  ∀ i ∈ b.indices, i.toNat < b.types.length

end ZoneBlock

end Cobra.TimeZone
