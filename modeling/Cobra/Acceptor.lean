/-
`Acceptor` (cobra/acceptor.h, acceptor.cpp) with `Accept` of
cobra/socket_wrapper.cpp, in a process whose other threads open and close
descriptors all the time.

# The reserve

`idle_fd_` is open on `/dev/null` and good for nothing but its number.
When the process has no number left, `HandleRead` gives it up, accepts
the connection under it, closes that, and opens `/dev/null` again: a
connection that cannot be served is refused, and does not keep the
listening socket readable forever.

# What is a step

A system call of the acceptor on the table of descriptors is one step,
with whatever belongs to it up to the next one; between two of them
other threads open and close what is theirs. `Accept`, its log
statements and the test of `errno` are one step: `errno` is the
thread's own.

# The kernel

`accept` takes the number before it looks at the backlog, as Linux does,
and may always fail with an error of its own. `close` frees the number in
any case. A log statement may leave anything in `errno`. A descriptor is
a `Nat`, the `-1` of a failed call is `none`.

`arrivals`, `fates`, `calls` and `closes` are history.
-/
import Cobra.Endpoint
import Cobra.Lib.FdTable
import Cobra.Lib.Machine

namespace Cobra

open Machine Process

-- ============================================================ the state

/-- The values of `errno` that `Accept` tells apart. -/
inductive AcceptErrno
  | EAGAIN
  | ECONNABORTED
  | EINTR
  | EPROTO
  | EPERM
  | EMFILE
  | EBADF
  | EFAULT
  | EINVAL
  | ENFILE
  | ENOBUFS
  | ENOMEM
  | ENOTSOCK
  | EOPNOTSUPP
  | other (errno : Nat)
  deriving Repr, DecidableEq

/-- The expected errors of `Accept`: the others are fatal. -/
def AcceptErrno.expected : AcceptErrno → Bool
  | .EAGAIN | .ECONNABORTED | .EINTR | .EPROTO | .EPERM | .EMFILE => true
  | .EBADF | .EFAULT | .EINVAL | .ENFILE | .ENOBUFS | .ENOMEM | .ENOTSOCK
  | .EOPNOTSUPP => false
  | .other _ => false

/-- What a descriptor of the process is. -/
inductive FdUse
  /-- `listen_fd_` -/
  | listening
  /-- `/dev/null`, opened for `idle_fd_` -/
  | devNull
  /-- a connection that the acceptor has accepted and still has -/
  | accepted
  /-- a connection that was given to `new_conn_cb_` -/
  | connection
  /-- any other -/
  | other
  deriving Repr, DecidableEq

/-- It is the acceptor's to close. -/
def FdUse.ofAcceptor : FdUse → Bool
  | .listening | .devNull | .accepted => true
  | .connection | .other => false

/-- What became of a connection of the backlog. -/
inductive Fate
  | handed
  | refused
  deriving Repr, DecidableEq

/-- Where the loop thread is. -/
inductive AcceptorPc
  /-- outside of `HandleRead` -/
  | resting
  /-- `Accept` has returned a descriptor -/
  | accepted (connfd : Nat) (peer : Endpoint)
  /-- `errno == EMFILE`: before the first `::close(idle_fd_)` -/
  | full
  /-- before `::accept` -/
  | released
  /-- before the second `::close(idle_fd_)`, with what `::accept` took -/
  | holding (peer : Option Endpoint)
  /-- before `::open` -/
  | closed
  /-- the acceptor is destroyed -/
  | destroyed
  deriving Repr, DecidableEq

structure Acceptor where
  fds : FdTable FdUse
  listenFd : Nat
  idleFd : Option Nat
  /-- `new_conn_cb_` is set -/
  newConnCb : Bool
  listenning : Bool
  pc : AcceptorPc
  /-- the backlog of the listening socket -/
  pending : List Endpoint
  /-- every connection that came into the backlog -/
  arrivals : List Endpoint
  /-- every connection that left it and is done with -/
  fates : List (Endpoint × Fate)
  /-- the calls of `new_conn_cb_` -/
  calls : List (Nat × Endpoint)
  /-- what was open under each number that the acceptor has closed -/
  closes : List (Option FdUse)
  deriving Repr, DecidableEq

inductive AcceptorAssert
  /-- `createNonblockingOrDie` -/
  | socket
  /-- `assert(idle_fd_ >= 0)` -/
  | idleFd
  /-- an error that `Accept` does not expect -/
  | accept (e : AcceptErrno)
  deriving Repr, DecidableEq

inductive AcceptorAct
  | SetNewConnectionCb
  | Listen
  /-- `HandleRead` starts: the error the kernel has of its own, and what the
  log statement writes to `errno` -/
  | HandleRead (fail : Option AcceptErrno) (logErrno : Option AcceptErrno)
  /-- the next system call of `HandleRead`; `fail` if it fails anyway -/
  | proceed (fail : Option AcceptErrno)
  /-- `~Acceptor` -/
  | destroy
  /-- a connection comes into the backlog -/
  | arrive (peer : Endpoint)
  /-- the rest of the process opens a descriptor -/
  | othersOpen
  /-- the rest of the process closes one that is not the acceptor's -/
  | othersClose (fd : Nat)
  deriving Repr, DecidableEq

namespace Acceptor

/-- The constructor, in a process that uses the numbers marked in `used`. -/
def create (used : List Bool) : Except AcceptorAssert Acceptor :=
  match FdTable.alloc
      ⟨used.map fun b => if b then some FdUse.other else none⟩ .listening with
  | none => .error .socket
  | some (listenFd, fds) =>
      match fds.alloc .devNull with
      | none => .error .idleFd
      | some (idleFd, fds) => .ok {
          fds := fds
          listenFd := listenFd
          idleFd := some idleFd
          newConnCb := false
          listenning := false
          pc := .resting
          pending := []
          arrivals := []
          fates := []
          calls := []
          closes := [] }

-- ========================================================= system calls

/-- `::close(fd)`. Of `-1` it is an error and nothing else. -/
def close (s : Acceptor) (fd : Option Nat) : Acceptor :=
  match fd with
  | none => s
  | some fd =>
      { s with
        fds := s.fds.close fd
        closes := s.closes ++ [s.fds.lookup fd] }

/-- `::accept(listen_fd_, ..)`. -/
def accept (s : Acceptor) (fail : Option AcceptErrno) :
    Except AcceptErrno (Nat × Endpoint × Acceptor) :=
  match fail with
  | some e => .error e
  | none =>
      match s.fds.alloc .accepted with
      | none => .error .EMFILE
      | some (fd, fds) =>
          match s.pending with
          | [] => .error .EAGAIN
          | peer :: rest => .ok (fd, peer, { s with fds := fds, pending := rest })

/-- `::open("/dev/null", ..)` into `idle_fd_`. -/
def openIdle (s : Acceptor) (fail : Option AcceptErrno) : Acceptor :=
  match fail with
  | some _ => { s with idleFd := none }
  | none =>
      match s.fds.alloc .devNull with
      | none => { s with idleFd := none }
      | some (fd, fds) => { s with fds := fds, idleFd := some fd }

-- ========================================================== HandleRead

/-- `Accept`: the errors that are not expected end the process. -/
def Accept (s : Acceptor) (fail : Option AcceptErrno) :
    Except AcceptorAssert (Except AcceptErrno (Nat × Endpoint × Acceptor)) :=
  match s.accept fail with
  | .ok r => .ok (.ok r)
  | .error e => if e.expected then .ok (.error e) else .error (.accept e)

/-- `HandleRead`, up to its next system call. -/
def HandleRead (s : Acceptor) (fail logErrno : Option AcceptErrno) :
    Except AcceptorAssert Acceptor := do
  match ← s.Accept fail with
  | .ok (connfd, peer, s') => .ok { s' with pc := .accepted connfd peer }
  | .error e =>
      -- the log statement stands between `Accept` and the test
      let errno := logErrno.getD e
      .ok { s with pc := if errno = .EMFILE then .full else .resting }

/-- `new_conn_cb_(connfd, peer_address)`: the descriptor is somebody
else's from now on. -/
def hand (s : Acceptor) (connfd : Nat) (peer : Endpoint) : Acceptor :=
  { s with
    fds := s.fds.put connfd .connection
    calls := s.calls ++ [(connfd, peer)]
    fates := s.fates ++ [(peer, .handed)] }

/-- A connection that was accepted has been closed. -/
def refused (s : Acceptor) (peer : Option Endpoint) : Acceptor :=
  { s with fates := s.fates ++ peer.toList.map fun p => (p, .refused) }

/-- The rest of `HandleRead`, one system call. -/
def proceed (s : Acceptor) (fail : Option AcceptErrno) : Acceptor :=
  match s.pc with
  | .accepted connfd peer =>
      if s.newConnCb then { s.hand connfd peer with pc := .resting }
      else { (s.close (some connfd)).refused (some peer) with pc := .resting }
  | .full => { s.close s.idleFd with pc := .released }
  | .released =>
      match s.accept fail with
      | .ok (fd, peer, s') =>
          { s' with idleFd := some fd, pc := .holding (some peer) }
      | .error _ => { s with idleFd := none, pc := .holding none }
  | .holding peer => { (s.close s.idleFd).refused peer with pc := .closed }
  | .closed => { s.openIdle fail with pc := .resting }
  | .resting | .destroyed => s

/-- `Acceptor::~Acceptor`. -/
def destroy (s : Acceptor) : Acceptor :=
  { s.close s.idleFd with pc := .destroyed }

-- ============================================================ the steps

def othersOpen (s : Acceptor) : Acceptor :=
  match s.fds.alloc .other with
  | none => s
  | some (_, fds) => { s with fds := fds }

def othersClose (s : Acceptor) (fd : Nat) : Acceptor :=
  match s.fds.lookup fd with
  | some use => if use.ofAcceptor then s else { s with fds := s.fds.close fd }
  | none => s

def step (s : Acceptor) : AcceptorAct → Except AcceptorAssert Acceptor
  | .SetNewConnectionCb => .ok { s with newConnCb := true }
  | .Listen =>
      if s.pc = .resting then .ok { s with listenning := true } else .ok s
  | .HandleRead fail logErrno =>
      if s.listenning && s.pc = .resting then s.HandleRead fail logErrno
      else .ok s
  | .proceed fail => .ok (s.proceed fail)
  | .destroy => if s.pc = .resting then .ok s.destroy else .ok s
  | .arrive peer =>
      if s.listenning then
        .ok { s with
          pending := s.pending ++ [peer]
          arrivals := s.arrivals ++ [peer] }
      else .ok s
  | .othersOpen => .ok s.othersOpen
  | .othersClose fd => .ok (s.othersClose fd)

-- ========================================================== the backlog

/-- The acceptor as its backlog sees it: somewhere to put a connection, or
at least the means to turn it away. -/
structure Desk where
  room : Nat
  reserve : Bool
  pending : List Endpoint
  fates : List (Endpoint × Fate)

/-- The first in the backlog is served. -/
def Desk.serve (d : Desk) : Desk :=
  match d.pending with
  | [] => d
  | peer :: rest =>
      if d.room = 0 then
        if d.reserve then
          { d with pending := rest, fates := d.fates ++ [(peer, .refused)] }
        else d
      else
        { d with
          room := d.room - 1
          pending := rest
          fates := d.fates ++ [(peer, .handed)] }

/-- How many of `n` in a row are served. -/
def Desk.serves (d : Desk) (n : Nat) : Nat :=
  if d.reserve then n else min n d.room

def desk (s : Acceptor) : Desk := ⟨s.fds.free, s.idleFd.isSome, s.pending, s.fates⟩

/-- `HandleRead` with nothing in between: the kernel and the log statement
fail at nothing of their own, and the other threads wait. -/
def handler : List AcceptorAct :=
  [.HandleRead none none, .proceed none, .proceed none, .proceed none,
    .proceed none]

/-- `n` of them. -/
def handlers (n : Nat) : List AcceptorAct := (List.replicate n handler).flatten

end Acceptor

end Cobra
