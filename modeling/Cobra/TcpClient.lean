/-
`TcpClient` (cobra/tcp_client.h, tcp_client.cpp) with its `Connector`,
on one loop.

`connect`, `disconnect` and `stop` come from any thread, one action each.
The rest runs on the loop: the connector's events, timers and functors,
and the `handleClose` of a connection, whose close callback is
`removeConnection`. `newConnection` is called by the connector's
`handleWrite`, in the same action. What a callback of the user calls on
the client is an action of its own: the connection callback is the last
thing `newConnection` does, and in `handleClose` it comes before
`removeConnection`, so the calls made there stand after the one and
before the other.

Of a connection the model has its socket and its state. Its name, with
the counter `nextConnId_` it is made from, is read by nothing here; what
goes over the connection is the business of `TcpConnection`.
-/
import Cobra.Connector
import Cobra.TcpConnection

namespace Cobra

open Machine

-- ============================================================ the state

/-- What the client and its user submit to the loop. -/
inductive ClientFunctor
  | connectDestroyed (c : Nat)
  | user (k : Nat)
  deriving Repr, DecidableEq

/-- A connection that `newConnection` made. -/
structure ClientConn where
  sockfd : Nat
  state : StateE
  deriving Repr, DecidableEq

structure TcpClient where
  connector : Connector ClientFunctor
  retry : Bool
  connect_ : Bool
  /-- `connection_`, by its place in `conns` -/
  connection : Option Nat
  /-- every connection that was made -/
  conns : List ClientConn
  /-- calls of `Connector::restart` -/
  restarts : Nat

inductive ClientAssert
  | connector (e : ConnectorAssert)
  /-- `assert(connection_ == conn)` of `removeConnection` -/
  | removeConnection
  /-- the assertion of `TcpConnection::handleClose` -/
  | handleClose
  deriving Repr, DecidableEq

inductive ClientAct
  | connect (t : Nat) (errno : ConnectErrno)
  | disconnect (t : Nat)
  | stop (t : Nat)
  | enableRetry
  | handleEvent (revents : BitVec 32) (soError : Nat) (selfConnect : Bool)
  | timer (k : Nat) (errno : ConnectErrno)
  | call (errno : ConnectErrno)
  /-- `TcpConnection::handleClose` of connection `c` -/
  | handleClose (c : Nat) (errno : ConnectErrno)
  | loop (a : WorkerAct Nat)
  deriving Repr, DecidableEq

namespace TcpClient

/-- The constructor, for a loop on thread `threadId`. -/
def create (threadId : Nat) : TcpClient where
  connector := .create threadId
  retry := false
  connect_ := true
  connection := none
  conns := []
  restarts := 0

-- ============================================================= the calls

/-- The connector did something. -/
def withConnector (s : TcpClient)
    (x : Except ConnectorAssert (Connector ClientFunctor)) :
    Except ClientAssert TcpClient := do
  let connector ← x.mapError .connector
  .ok { s with connector := connector }

/-- `TcpClient::connect`. -/
def connect (s : TcpClient) (t : Nat) (errno : ConnectErrno) :
    Except ClientAssert TcpClient :=
  let s' := { s with connect_ := true }
  s'.withConnector (s'.connector.start t errno)

/-- `setState` of connection `c`. -/
def setState (s : TcpClient) (c : Nat) (state : StateE) : TcpClient :=
  { s with conns := s.conns.modify c fun conn => { conn with state := state } }

/-- `TcpConnection::shutdown`, as far as the state goes. -/
def shutdown (s : TcpClient) (c : Nat) : TcpClient :=
  match s.conns[c]? with
  | some conn =>
      if conn.state = .kConnected then s.setState c .kDisconnecting else s
  | none => s

/-- `TcpClient::disconnect`. -/
def disconnect (s : TcpClient) : TcpClient :=
  let s' := { s with connect_ := false }
  match s'.connection with
  | some c => s'.shutdown c
  | none => s'

/-- `TcpClient::stop`. -/
def stop (s : TcpClient) (t : Nat) : TcpClient :=
  { s with connect_ := false, connector := s.connector.stop t }

-- ======================================================= the connections

/-- `TcpClient::newConnection`: the connection is made, recorded and
established. -/
def newConnection (s : TcpClient) (sockfd : Nat) : TcpClient :=
  { s with
    connection := some s.conns.length
    conns := s.conns ++ [⟨sockfd, .kConnected⟩] }

/-- `TcpClient::removeConnection`. -/
def removeConnection (s : TcpClient) (c : Nat) (errno : ConnectErrno) :
    Except ClientAssert TcpClient := do
  require (s.connection = some c) .removeConnection
  let s' := { s with
    connection := none
    connector := s.connector.queueInLoop (.other (.connectDestroyed c)) }
  if s'.retry && s'.connect_ then
    ({ s' with restarts := s'.restarts + 1 } : TcpClient).withConnector
      (s'.connector.restart errno)
  else .ok s'

/-- `TcpConnection::handleClose`, with the close callback. -/
def handleClose (s : TcpClient) (c : Nat) (errno : ConnectErrno) :
    Except ClientAssert TcpClient :=
  match s.conns[c]? with
  | some conn => do
      require (conn.state = .kConnected ∨ conn.state = .kDisconnecting)
        .handleClose
      (s.setState c .kDisconnected).removeConnection c errno
  | none => .ok s

/-- `TcpConnection::connectDestroyed`. -/
def connectDestroyed (s : TcpClient) (c : Nat) : TcpClient :=
  match s.conns[c]? with
  | some conn =>
      if conn.state = .kConnected then s.setState c .kDisconnected else s
  | none => s

-- ============================================================ the steps

/-- A functor, called on the loop thread. -/
def apply (s : TcpClient) (errno : ConnectErrno) :
    ConnectorFunctor ClientFunctor → Except ClientAssert TcpClient
  | .other (.connectDestroyed c) => .ok (s.connectDestroyed c)
  | f => s.withConnector (s.connector.apply errno f)

def step (s : TcpClient) : ClientAct → Except ClientAssert TcpClient
  | .connect t errno =>
      if s.connector.loop.canCall t then s.connect t errno else .ok s
  | .disconnect t =>
      if s.connector.loop.canCall t then .ok s.disconnect else .ok s
  | .stop t => if s.connector.loop.canCall t then .ok (s.stop t) else .ok s
  | .enableRetry => .ok { s with retry := true }
  | .handleEvent revents soError selfConnect => do
      let (connector, sockfd) ←
        (s.connector.handleEvent revents soError selfConnect).mapError .connector
      let s' := { s with connector := connector }
      match sockfd with
      | some sockfd => .ok (s'.newConnection sockfd)
      | none => .ok s'
  | .timer k errno => s.withConnector (s.connector.timer k errno)
  | .call errno =>
      if s.connector.loop.canLoop .draining then
        match s.connector.loop.queue.functors with
        | [] => .ok s
        | f :: _ =>
            { s with connector := { s.connector with
              loop := s.connector.loop.callFunctor } }.apply errno f
      else .ok s
  | .handleClose c errno =>
      if s.connector.loop.canLoop .handling then s.handleClose c errno
      else .ok s
  | .loop a =>
      match a.lift .user with
      | some a' => s.withConnector (s.connector.loopStep a')
      | none => .ok s

end TcpClient

end Cobra
