/-
`Endpoint` (cobra/endpoint.h, endpoint.cpp) down to its `sockaddr_in`, and
the texts that are made of it.

# Memory

`sin_port` and `s_addr` are numbers of the machine that have the network's
order in memory (`hostToNetwork16` and its like are in Cobra.BufferInts).
An array on the stack is the list of its bytes. `buf` is not initialised,
so that a function is given what happens to be in it. `sin_zero`, which
nothing reads, is left out.

# The functions of the system

`inet_ntop` and `inet_pton` are parameters (`Inet`). What is known of them
is `Inet.Lawful`: the one writes the dotted text of an address and a zero,
the other reads the address back. `posix` is such a pair.

`Cobra.Endpoint` is what the rest of the development needs of an endpoint.
-/
import Cobra.BufferInts
import Cobra.Convert
import Cobra.Endpoint

namespace Cobra

open Machine Bytes Window Detail

-- ======================================================== the addresses

/-- `'.'`. -/
def dot : UInt8 := 46

/-- The text of an address: its bytes in decimal, with dots between. -/
def dotted (addr : List UInt8) : List UInt8 :=
  [dot].intercalate (addr.map fun x => ascii (formatU x.toNat))

structure Inet where
  /-- `inet_ntop(AF_INET, src, dst, size)`: what is at `dst` afterwards -/
  ntop : (src dst : List UInt8) → (size : Nat) → List UInt8
  /-- `inet_pton(AF_INET, src, dst)`: what it stores at `dst`, if `src` is
  the text of an address -/
  pton : (src : List UInt8) → Option (List UInt8)

/-- What the two functions promise for the addresses of four bytes. -/
structure Inet.Lawful (inet : Inet) : Prop where
  /-- the text is there if `size` has room for it and its zero -/
  ntop_writes : ∀ {src dst : List UInt8} {size : Nat}, src.length = 4 →
    (dotted src).length < size → size ≤ dst.length →
    dotted src ++ [0] <+: inet.ntop src dst size
      ∧ (inet.ntop src dst size).length = dst.length
  /-- the text is read up to its zero -/
  pton_reads : ∀ {src : List UInt8} (rest : List UInt8), src.length = 4 →
    inet.pton (dotted src ++ 0 :: rest) = some src

/-- A number from 0 to 255, without zeros in front. -/
def readOctet (s : List UInt8) : Option UInt8 :=
  match decimalDigits.read s with
  | some n =>
      if n < 256 ∧ decimalDigits.Canonical s then some (UInt8.ofNat n)
      else none
  | none => none

/-- The two functions as the system has them. -/
def Inet.posix : Inet where
  ntop src dst size :=
    if (dotted src).length < size then overlay dst 0 (dotted src ++ [0])
    else dst
  pton src :=
    match ((src.takeWhile (· ≠ 0)).splitOn dot).mapM readOctet with
    | some addr => if addr.length = 4 then some addr else none
    | none => none

-- ======================================================== the endpoints

/-- `sockaddr_in`. -/
structure SockAddrIn where
  sin_family : UInt16
  sin_port : UInt16
  /-- `sin_addr.s_addr` -/
  s_addr : UInt32
  deriving Repr, DecidableEq

/-- `AF_INET`. -/
def afInet : UInt16 := 2

def kInaddrAny : UInt32 := 0

/-- `INET_ADDRSTRLEN`. -/
def inetAddrstrlen : Nat := 16

/-- A `char` array of the given size. -/
abbrev Chars (n : Nat) : Type := { mem : List UInt8 // mem.length = n }

/-- The string in an array: the bytes in front of the first zero. -/
def cString (mem : List UInt8) : Except StreamFault (List UInt8) := do
  let len ← strlen mem
  .ok (mem.take len)

/-- `StringPiece(const string& str)`, with the zero that the string has
behind its bytes. -/
def StringPiece.ofStringData (str : List UInt8) : StringPiece :=
  .ofPointer (str ++ [0]) (castInt str.length)

namespace SockAddrIn

variable (host : ByteOrder) (inet : Inet)

/-- The memory of `sin_addr`. -/
def sinAddr (e : SockAddrIn) : List UInt8 := host.store 4 e.s_addr.toNat

/-- The port in the machine's order. -/
def port (e : SockAddrIn) : UInt16 := networkToHost16 host e.sin_port

/-- Which address and port they are. -/
def endpoint (e : SockAddrIn) : Endpoint :=
  ⟨e.s_addr.toBitVec, (e.port host).toBitVec⟩

/-- `Endpoint(uint16_t port)`. -/
def ofPort (port : UInt16) : SockAddrIn where
  sin_family := afInet
  s_addr := hostToNetwork32 host kInaddrAny
  sin_port := hostToNetwork16 host port

/-- `Endpoint(const StringPiece& ip, uint16_t port)`. If the text is no
address, that is logged and the address stays zero. -/
def ofIpPort (ip : StringPiece) (port : UInt16) : SockAddrIn :=
  let addr : SockAddrIn := ⟨afInet, hostToNetwork16 host port, 0⟩
  match inet.pton ip.data with
  | some sinAddr => { addr with s_addr := .ofNat (host.load sinAddr) }
  | none => addr

/-- `char host[INET_ADDRSTRLEN] = "INVALID"`: the rest is zeros. -/
def hostArray : Chars inetAddrstrlen :=
  ⟨literal "INVALID" ++ List.replicate 8 0, by decide⟩

/-- The address is printed into `buf`, not into `host`. -/
def toIpPort (buf : Chars 32) (e : SockAddrIn) :
    Except StreamFault (List UInt8) := do
  let buf := inet.ntop (e.sinAddr host) buf.val inetAddrstrlen
  let port := networkToHost16 host e.sin_port
  let hostText ← cString hostArray.val
  let (buf, _) ← snprintfTo buf 0 32
    (hostText ++ ascii (':' :: formatU port.toNat))
  cString buf

def toIp (buf : Chars 32) (e : SockAddrIn) :
    Except StreamFault (List UInt8) := do
  let size := 32
  let buf := inet.ntop (e.sinAddr host) buf.val size
  cString buf

end SockAddrIn

end Cobra
