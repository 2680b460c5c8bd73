/-
A server with its loops (cobra/server.cpp, acceptor.cpp,
worker_thread_pool.cpp and the ends of a connection's life in
tcp_connection.cpp).

# The loops

Loop `0` is the acceptor's, loops `1` to `numThreads` are the pool's, and
loop `i` runs on thread `i`. Each is a `Worker` with its own functor
queue, and moves by the worker's own steps; the functors are the three
that carry a connection through its life, and those of the user. A loop
that returns from `poll` takes `activeChannels_` with it, and its event
handling is over when it leaves the phase `handling`.

# What is a step

An accept, an event handler, a `handleClose` and the call of a functor
are one action each, on the loop they run on. `runInLoop` runs its
functor in the same action when the caller is the loop, and submits it
when it is not. What the handlers do to a connection besides its life is
left out: it is the business of `TcpConnection`. The `++next_conn_id` of
another server is one step as well.

# Objects and descriptors

A connection is the number `EstablishConnection` gave it, and a
descriptor the number of the accept that returned it. `~TcpConnection`
can run when nothing refers to the object any more: not `connections_`,
not a functor that is queued or in the batch being called.

`log`, `issued`, `dead` and the counters of `Descriptor` are history.
-/
import Cobra.Server
import Cobra.TcpConnection
import Cobra.Worker

namespace Cobra

open Machine

-- ============================================================ the state

/-- What goes through the functor queues. -/
inductive ServerFunctor
  | ConnectionEstablished (c : Nat)
  | RemoveConnectionInLoop (c : Nat)
  | ConnectionDestroyed (c : Nat)
  | user (k : Nat)
  deriving Repr, DecidableEq

/-- The connection a functor is bound to. -/
def ServerFunctor.conn : ServerFunctor → Option Nat
  | .ConnectionEstablished c => some c
  | .RemoveConnectionInLoop c => some c
  | .ConnectionDestroyed c => some c
  | .user _ => none

/-- What happens in the life of a connection. -/
inductive LifeEvent
  | established (c : Nat)
  /-- an event handler of the connection runs -/
  | handler (c : Nat)
  /-- `handleClose` is entered -/
  | closed (c : Nat)
  /-- `RemoveConnectionInLoop` has erased its entry -/
  | removed (c : Nat)
  /-- `ConnectionDestroyed` runs, with the `eventHandling_` of its loop -/
  | destroyed (c : Nat) (eventHandling : Bool)
  deriving Repr, DecidableEq

/-- A connection, as far as its life goes. -/
structure ServerConn where
  loop : Nat
  state : StateE
  /-- the channel is registered, with an interest -/
  watched : Bool
  deriving Repr, DecidableEq

/-- A descriptor that an accept returned. -/
structure Descriptor where
  /-- the `TcpConnection` made with it -/
  owner : Option Nat
  /-- how often it has been closed -/
  closes : Nat
  deriving Repr, DecidableEq

structure ServerLoops where
  registry : RegistryRun
  /-- `new_conn_cb_` of the acceptor is set -/
  newConnCb : Bool
  /-- the `Server` object exists -/
  alive : Bool
  /-- `loops_.size()` of the pool -/
  numThreads : Nat
  /-- `next_` of the pool -/
  next : Nat
  loops : Nat → Worker ServerFunctor
  activeChannels : Nat → List Nat
  currentActiveChannel : Nat → Option Nat
  conns : Nat → ServerConn
  descriptors : List Descriptor
  /-- connections named in the process -/
  issued : Nat
  /-- destroyed `TcpConnection` objects -/
  dead : List Nat
  log : List LifeEvent

inductive ServerLoopsAssert
  | server (e : ServerAssert)
  | worker (e : WorkerAssert)
  /-- `assert(state_ == kConnecting)` of `ConnectionEstablished` -/
  | establishState
  /-- the assertion of `handleClose` -/
  | closeState
  /-- the assertion of `Worker::removeChannel` on `activeChannels_` -/
  | removeActive
  /-- a call on the server after its destructor -/
  | deadServer
  deriving Repr, DecidableEq

/-- What `Accept` returns: a descriptor, or one of the errors it expects.
After `EMFILE` the acceptor accepts once more on `idle_fd_`. -/
inductive AcceptResult
  | connfd
  | EMFILE (accepted : Bool)
  | failed
  deriving Repr, DecidableEq

inductive ServerAct
  /-- `Acceptor::HandleRead` -/
  | HandleRead (r : AcceptResult)
  | otherServer
  /-- a step of a loop, or of a thread with a functor of the user -/
  | loop (i : Nat) (a : WorkerAct Nat)
  | pollReturn (i : Nat) (active : List Nat)
  | handler (i c : Nat)
  | handleClose (i c : Nat)
  | call (i : Nat)
  | shutdown (c : Nat)
  /-- `~TcpConnection` -/
  | destroyConn (c : Nat)
  /-- `~Server` -/
  | destroyServer
  deriving Repr, DecidableEq

/-- A worker's action with the functors of the user, less the calls and
the returns from `poll`, which are the server's. -/
def userAct : WorkerAct Nat → Option (WorkerAct ServerFunctor)
  | .pollReturn => none
  | a => a.lift .user

namespace ServerLoops

/-- A server on a fresh pool, with the counter where other servers have
left it. -/
def create (listenAddr : Endpoint) (name : List Char) (nextConnId : BitVec 32)
    (numThreads : Nat) (newConnCb : Bool) : ServerLoops where
  registry := .create listenAddr name nextConnId
  newConnCb := newConnCb
  alive := true
  numThreads := numThreads
  next := 0
  loops := fun i => .create i
  activeChannels := fun _ => []
  currentActiveChannel := fun _ => none
  conns := fun _ => ⟨0, .kConnecting, false⟩
  descriptors := []
  issued := 0
  dead := []
  log := []

-- ====================================================== small operations

/-- The connections made so far. -/
def numConns (s : ServerLoops) : Nat := s.registry.reg.ids.length

def eventHandling (s : ServerLoops) (i : Nat) : Bool :=
  (s.loops i).pc == .handling

def setLoop (s : ServerLoops) (i : Nat) (w : Worker ServerFunctor) :
    ServerLoops :=
  { s with loops := Function.update s.loops i w }

def setConn (s : ServerLoops) (c : Nat) (conn : ServerConn) : ServerLoops :=
  { s with conns := Function.update s.conns c conn }

def logged (s : ServerLoops) (e : LifeEvent) : ServerLoops :=
  { s with log := s.log ++ [e] }

/-- Loop `i` comes to the next channel: a connection's, or another. -/
def atChannel (s : ServerLoops) (i : Nat) (c : Option Nat) : ServerLoops :=
  { s with
    currentActiveChannel := Function.update s.currentActiveChannel i c }

/-- `WorkerThreadPool::getNextLoop`. -/
def getNextLoop (s : ServerLoops) : Nat × Nat :=
  if s.numThreads = 0 then (0, s.next)
  else (s.next + 1, if s.next + 1 ≥ s.numThreads then 0 else s.next + 1)

-- ============================================================ functors

/-- `TcpConnection::ConnectionEstablished`. -/
def ConnectionEstablished (s : ServerLoops) (c : Nat) :
    Except ServerLoopsAssert ServerLoops := do
  require ((s.conns c).state = .kConnecting) .establishState
  .ok ((s.setConn c { s.conns c with state := .kConnected, watched := true }).logged
    (.established c))

/-- `TcpConnection::ConnectionDestroyed`, on the connection's loop. -/
def ConnectionDestroyed (s : ServerLoops) (c : Nat) :
    Except ServerLoopsAssert ServerLoops := do
  let conn := s.conns c
  let state := if conn.state = .kConnected then .kDisconnected else conn.state
  let s' := (s.setConn c { conn with state := state, watched := false }).logged
    (.destroyed c (s.eventHandling conn.loop))
  -- `Worker::removeChannel`
  require (s.eventHandling conn.loop = true →
    s.currentActiveChannel conn.loop = some c
      ∨ c ∉ s.activeChannels conn.loop) .removeActive
  .ok s'

/-- `queueInLoop` on loop `i`, from thread `t`. -/
def queueInLoop (s : ServerLoops) (i t : Nat) (f : ServerFunctor) : ServerLoops :=
  s.setLoop i ((s.loops i).submit t f)

/-- `Server::RemoveConnectionInLoop`, on loop `0`. -/
def RemoveConnectionInLoop (s : ServerLoops) (c : Nat) :
    Except ServerLoopsAssert ServerLoops := do
  require (s.alive = true) .deadServer
  let registry ←
    (s.registry.step (.RemoveConnectionInLoop c)).mapError .server
  let s' := { s with registry := registry }.logged (.removed c)
  .ok (s'.queueInLoop (s.conns c).loop 0 (.ConnectionDestroyed c))

/-- A functor, called on the loop it was submitted to. -/
def apply (s : ServerLoops) : ServerFunctor → Except ServerLoopsAssert ServerLoops
  | .ConnectionEstablished c => s.ConnectionEstablished c
  | .RemoveConnectionInLoop c => s.RemoveConnectionInLoop c
  | .ConnectionDestroyed c => s.ConnectionDestroyed c
  | .user _ => .ok s

/-- `runInLoop` on loop `i`, from thread `t`. -/
def runInLoop (s : ServerLoops) (i t : Nat) (f : ServerFunctor) :
    Except ServerLoopsAssert ServerLoops :=
  if (s.loops i).isInLoopThread t then s.apply f
  else .ok (s.queueInLoop i t f)

-- ======================================================== the acceptor

/-- `Server::EstablishConnection` up to its last line: the new connection
is named, recorded and given a loop. -/
def record (s : ServerLoops) : ServerLoops :=
  let c := s.numConns
  let (ioLoop, next) := s.getNextLoop
  { s with
    registry :=
      { s.registry with
        reg := s.registry.reg.EstablishConnection
        live := s.registry.live ++ [c] }
    next := next
    conns := Function.update s.conns c ⟨ioLoop, .kConnecting, false⟩
    descriptors := s.descriptors ++ [⟨some c, 0⟩]
    issued := s.issued + 1 }

/-- `Server::EstablishConnection`. -/
def EstablishConnection (s : ServerLoops) :
    Except ServerLoopsAssert ServerLoops := do
  require (s.alive = true) .deadServer
  s.record.runInLoop s.getNextLoop.1 0 (.ConnectionEstablished s.numConns)

/-- `Acceptor::HandleRead`. -/
def HandleRead (s : ServerLoops) (r : AcceptResult) :
    Except ServerLoopsAssert ServerLoops :=
  match r with
  | .connfd =>
      if s.newConnCb then s.EstablishConnection
      else .ok { s with descriptors := s.descriptors ++ [⟨none, 1⟩] }
  | .EMFILE true => .ok { s with descriptors := s.descriptors ++ [⟨none, 1⟩] }
  | .EMFILE false => .ok s
  | .failed => .ok s

-- ======================================================== a connection

/-- `TcpConnection::handleClose`, on loop `i`: the close callback is
`Server::RemoveConnection`. -/
def handleClose (s : ServerLoops) (i c : Nat) :
    Except ServerLoopsAssert ServerLoops := do
  let conn := s.conns c
  require (conn.state = .kConnected ∨ conn.state = .kDisconnecting) .closeState
  let s' := (s.setConn c
    { conn with state := .kDisconnected, watched := false }).logged (.closed c)
  require (s.alive = true) .deadServer
  s'.runInLoop 0 i (.RemoveConnectionInLoop c)

/-- A loop holds a reference to the connection: in a functor that waits,
or in the batch it is calling. -/
def holds (s : ServerLoops) (i c : Nat) : Bool :=
  (s.loops i).queue.waiting.any (fun f => f.conn == some c)
    || (s.loops i).pc == .draining || (s.loops i).pc == .calling

/-- Something refers to the connection. -/
def referenced (s : ServerLoops) (c : Nat) : Bool :=
  decide (c ∈ s.registry.live) || s.holds 0 c || s.holds (s.conns c).loop c

/-- `std::less` of two names. -/
def nameLess (a b : List Char) : Bool :=
  List.lex a b fun x y => decide (x.toNat < y.toNat)

/-- The connections of `connections_`, in the order of the map. -/
def registered (s : ServerLoops) : List Nat :=
  ((List.range s.numConns).filter fun c =>
    Finmap.lookup (s.registry.reg.nameOf c) s.registry.reg.connections
      = some c).mergeSort
    fun c c' => !nameLess (s.registry.reg.nameOf c') (s.registry.reg.nameOf c)

/-- `Server::~Server`, from thread `0`. -/
def destroyServer (s : ServerLoops) : Except ServerLoopsAssert ServerLoops := do
  let s' ← s.registered.foldlM (fun s c =>
    s.runInLoop (s.conns c).loop 0 (.ConnectionDestroyed c)) s
  .ok { s' with
    alive := false
    registry := { s'.registry with
      reg := { s'.registry.reg with connections := (∅ : Finmap _) }
      live := [] } }

-- ============================================================ the steps

/-- Loop `i` is going through its active channels. -/
def canHandle (s : ServerLoops) (i : Nat) : Bool :=
  (s.loops i).canLoop .handling

def step (s : ServerLoops) :
    ServerAct → Except ServerLoopsAssert ServerLoops
  | .HandleRead r =>
      if s.alive && s.canHandle 0 then (s.atChannel 0 none).HandleRead r
      else .ok s
  | .otherServer =>
      .ok { s with
        registry := { s.registry with reg := { s.registry.reg with
          nextConnId := s.registry.reg.nextConnId + 1 } }
        issued := s.issued + 1 }
  | .loop i a =>
      match userAct a with
      | none => .ok s
      | some a' => do
          let w ← ((s.loops i).step a').mapError .worker
          .ok (s.setLoop i w)
  | .pollReturn i active =>
      if (s.loops i).canLoop .polling then
        .ok { (s.atChannel i none).setLoop i
            { s.loops i with pc := .handling } with
          activeChannels := Function.update s.activeChannels i
            (active.filter fun c => decide (c < s.numConns)
              && (s.conns c).loop == i && (s.conns c).watched) }
      else .ok s
  | .handler i c =>
      if s.canHandle i && decide (c ∈ s.activeChannels i) then
        .ok ((s.atChannel i (some c)).logged (.handler c))
      else .ok s
  | .handleClose i c =>
      if s.canHandle i && decide (c ∈ s.activeChannels i) then
        (s.atChannel i (some c)).handleClose i c
      else .ok s
  | .call i =>
      if (s.loops i).canLoop .draining then
        match (s.loops i).queue.functors with
        | [] => .ok s
        | f :: _ => (s.setLoop i (s.loops i).callFunctor).apply f
      else .ok s
  | .shutdown c =>
      if (s.conns c).state = .kConnected then
        .ok (s.setConn c { s.conns c with state := .kDisconnecting })
      else .ok s
  | .destroyConn c =>
      if decide (c < s.numConns) && !s.referenced c
          && decide (c ∉ s.dead) then
        .ok { s with dead := s.dead ++ [c] }
      else .ok s
  | .destroyServer =>
      if s.alive && (s.loops 0).canCall 0 then s.destroyServer else .ok s

end ServerLoops

end Cobra
