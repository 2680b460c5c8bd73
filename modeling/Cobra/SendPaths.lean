/-
The ways of `TcpConnection::send` (cobra/tcp_connection.cpp): three
overloads, each called on the loop thread or on another one, and all of
them ending in `sendInLoop(const void*, size_t)`.

On the loop thread the pointer and the length are passed on as they are.
On another thread the message is copied into a string that is bound to
`sendInLoop(const StringPiece&)`; when the loop calls the functor, the
string becomes a `StringPiece`, whose length is an `int`, and the piece
becomes a pointer and a length again.

# What is recorded

Every `send` that finds the connection up has a number, its place in
`issued`. `reached` is what reached `sendInLoop(const void*, size_t)`,
with the number of the send it comes from. What `sendInLoop` does then is
Cobra.TcpConnection's.

A `send` of a buffer leaves it empty; the buffer as the call leaves it is
part of the record. Copying a message into a string may run out of
memory, which is left out.
-/
import Cobra.VecBuffer
import Cobra.TcpConnection
import Cobra.Worker

namespace Cobra

open Machine

/-- A pointer and a length, as they reach `sendInLoop`. -/
structure Handed where
  /-- the bytes from the pointer on, as many as the length says; none if
  the object ends before that -/
  bytes : Option (List UInt8)
  len : Nat
  deriving Repr, DecidableEq

namespace Handed

/-- A pointer to the start of `mem`. -/
def ofPointer (mem : List UInt8) (len : Nat) : Handed :=
  ⟨if len ≤ mem.length then some (mem.take len) else none, len⟩

/-- The message as it should arrive. -/
def whole (message : List UInt8) : Handed := ⟨some message, message.length⟩

end Handed

/-- The arguments of the three overloads. -/
inductive SendArg
  | pointer (data : List UInt8) (len : Nat)
  | piece (message : StringPiece)
  | buffer (buf : RawBuffer)
  deriving Repr, DecidableEq

namespace SendArg

/-- The bytes an argument stands for. -/
def message : SendArg → List UInt8
  | .pointer data len => data.take len
  | .piece message => message.ptr.take message.length.toNat
  | .buffer buf => buf.content

/-- The argument stands for bytes: they are there, and no object is
larger than objects get. -/
def Denotes : SendArg → Prop
  | .pointer data len => len ≤ data.length ∧ len ≤ maxSize
  | .piece message => message.Denotes
  | .buffer buf => Reachable buf

end SendArg

/-- The ways a copy or a buffer can fail. -/
inductive SendFault
  /-- a string copied from beyond the end of an object -/
  | outOfBounds
  | buffer (f : RawFault)
  deriving Repr, DecidableEq

/-- `string(data, len)`. -/
def copyString (mem : List UInt8) (len : Nat) :
    Except SendFault (List UInt8) := do
  require (len ≤ mem.length) .outOfBounds
  .ok (mem.take len)

/-- `StringPiece::as_string`. -/
def StringPiece.as_string (p : StringPiece) : Except SendFault (List UInt8) :=
  copyString p.data (castSize p.size)

/-- A `send` that found the connection up. -/
structure Issued where
  inLoopThread : Bool
  arg : SendArg
  /-- the caller's buffer afterwards -/
  left : Option RawBuffer
  deriving Repr, DecidableEq

/-- The connection's state, the functors that `send` has handed to its
loop, and the record. -/
structure SendPaths where
  state : StateE
  queue : FunctorQueue (Nat × List UInt8)
  issued : List Issued
  reached : List (Nat × Handed)
  deriving Repr, DecidableEq

inductive SendAct
  | send (inLoopThread : Bool) (arg : SendArg)
  /-- the connection comes up, is shut down or goes down -/
  | setState (state : StateE)
  /-- `doPendingFunctors` swaps -/
  | swap
  /-- `doPendingFunctors` calls the next functor -/
  | call
  deriving Repr, DecidableEq

namespace SendPaths

/-- A connection that is up. -/
def start : SendPaths := ⟨.kConnected, .empty, [], []⟩

/-- The number of the next send. -/
def next (s : SendPaths) : Nat := s.issued.length

/-- `sendInLoop(const void* data, size_t len)` is entered. -/
def sendInLoop (s : SendPaths) (number : Nat) (data : List UInt8)
    (len : Nat) : SendPaths :=
  { s with reached := s.reached ++ [(number, .ofPointer data len)] }

/-- `sendInLoop(const StringPiece& message)`. -/
def sendInLoopPiece (s : SendPaths) (number : Nat) (message : StringPiece) :
    SendPaths :=
  s.sendInLoop number message.data (castSize message.size)

/-- `runInLoop` on another thread: the functor has the string bound. -/
def runInLoop (s : SendPaths) (number : Nat) (message : List UInt8) :
    SendPaths :=
  { s with queue := s.queue.push (number, message) }

def issue (s : SendPaths) (e : Issued) : SendPaths :=
  { s with issued := s.issued ++ [e] }

/-- `send` on the loop thread, the connection being up. -/
def sendHere (s : SendPaths) : SendArg → Except SendFault SendPaths
  | .pointer data len =>
      .ok ((s.sendInLoop s.next data len).issue
        ⟨true, .pointer data len, none⟩)
  | .piece message =>
      .ok ((s.sendInLoopPiece s.next message).issue
        ⟨true, .piece message, none⟩)
  | .buffer buf =>
      .ok ((s.sendInLoop s.next (buf.buffer.drop buf.readerIndex)
        buf.readableBytes).issue ⟨true, .buffer buf, some buf.retrieveAll⟩)

/-- `send` on another thread, the connection being up. -/
def sendThere (s : SendPaths) : SendArg → Except SendFault SendPaths
  | .pointer data len => do
      let message ← copyString data len
      .ok ((s.runInLoop s.next message).issue
        ⟨false, .pointer data len, none⟩)
  | .piece message => do
      let str ← message.as_string
      .ok ((s.runInLoop s.next str).issue ⟨false, .piece message, none⟩)
  | .buffer buf => do
      let (message, left) ← buf.retrieveAllAsString.mapError .buffer
      .ok ((s.runInLoop s.next message).issue
        ⟨false, .buffer buf, some left⟩)

def send (s : SendPaths) (inLoopThread : Bool) (arg : SendArg) :
    Except SendFault SendPaths :=
  if s.state == .kConnected then
    if inLoopThread then s.sendHere arg else s.sendThere arg
  else .ok s

/-- The functor, called by the loop. -/
def call (s : SendPaths) : SendPaths :=
  match s.queue.functors with
  | (number, message) :: rest =>
      { s with queue := { s.queue with functors := rest } }.sendInLoopPiece
        number (.ofString message)
  | [] => s

def step (s : SendPaths) : SendAct → Except SendFault SendPaths
  | .send inLoopThread arg => s.send inLoopThread arg
  | .setState state => .ok { s with state := state }
  | .swap =>
      if s.queue.functors.isEmpty then .ok { s with queue := s.queue.swap }
      else .ok s
  | .call => .ok s.call

/-- The arguments stand for bytes. -/
def Legal (_ : SendPaths) : SendAct → Prop
  | .send _ arg => arg.Denotes
  | _ => True

end SendPaths

end Cobra
