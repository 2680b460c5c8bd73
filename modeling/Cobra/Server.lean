/-
The connection registry of `Server` (cobra/server.cpp): `connections_`,
the names it is keyed with, and the counter the names are made from.

A `TcpConnection` is an object, here a number: the connections of this
server in the order `EstablishConnection` made them. Each remembers the
value of the counter it was named with. The counter is a `static` of
`EstablishConnection`, so every `Server` of the process counts with it.

`RegistryRun` is the registry over a sequence of calls, with the live
connections and the entry each removal has erased as history.
`RemoveConnectionInLoop` comes from the close callback of a connection,
and is called for a live one. The `++next_conn_id` of another server is
one step: two servers whose loops count at the same time are not modelled.
-/
import Cobra.Endpoint
import Cobra.Lib.Machine
import Mathlib.Data.Finmap

namespace Cobra

open Machine

-- ========================================================== the registry

/-- `connections_`: names to connections. -/
abbrev ConnectionMap : Type := Finmap (fun _ : List Char => Nat)

structure Registry where
  hostport : List Char
  name : List Char
  /-- the `static` counter -/
  nextConnId : BitVec 32
  connections : ConnectionMap
  /-- the counter value of each connection made so far -/
  ids : List (BitVec 32)

inductive ServerAssert
  /-- `assert(n == 1)` of `RemoveConnectionInLoop` -/
  | eraseOne
  deriving Repr, DecidableEq

namespace Registry

/-- The constructor, with the counter where other servers have left it. -/
def create (listenAddr : Endpoint) (name : List Char) (nextConnId : BitVec 32) :
    Registry where
  hostport := listenAddr.toIpPort
  name := name
  nextConnId := nextConnId
  connections := (∅ : Finmap _)
  ids := []

/-- `connName`, for a value of the counter. -/
def connName (r : Registry) (id : BitVec 32) : List Char :=
  r.name ++ snprintf 32 ([':'] ++ r.hostport ++ ['#'] ++ formatD id)

/-- The name of a connection. -/
def nameOf (r : Registry) (c : Nat) : List Char :=
  r.connName (r.ids.getD c 0)

/-- `EstablishConnection`, as far as the registry goes: the new connection
is `r.ids.length`. -/
def EstablishConnection (r : Registry) : Registry :=
  { r with
    nextConnId := r.nextConnId + 1
    connections :=
      Finmap.insert (r.connName r.nextConnId) r.ids.length r.connections
    ids := r.ids ++ [r.nextConnId] }

/-- `connections_.erase(conn->name())`, and its assertion. -/
def RemoveConnectionInLoop (r : Registry) (c : Nat) :
    Except ServerAssert Registry := do
  require (Finmap.lookup (r.nameOf c) r.connections ≠ none) .eraseOne
  .ok { r with connections := Finmap.erase (r.nameOf c) r.connections }

end Registry

-- ============================================================== its runs

structure RegistryRun where
  reg : Registry
  /-- history: established and not removed -/
  live : List Nat
  /-- history: each removed connection, and whose entry was erased -/
  erased : List (Nat × Option Nat)

inductive RegistryAct
  | EstablishConnection
  | RemoveConnectionInLoop (c : Nat)
  /-- another server names a connection -/
  | otherServer
  deriving Repr, DecidableEq

namespace RegistryRun

def create (listenAddr : Endpoint) (name : List Char)
    (nextConnId : BitVec 32) : RegistryRun where
  reg := .create listenAddr name nextConnId
  live := []
  erased := []

def step (s : RegistryRun) :
    RegistryAct → Except ServerAssert RegistryRun
  | .EstablishConnection =>
      .ok { s with
        reg := s.reg.EstablishConnection
        live := s.live ++ [s.reg.ids.length] }
  | .RemoveConnectionInLoop c =>
      if c ∈ s.live then do
        let reg ← s.reg.RemoveConnectionInLoop c
        .ok { reg := reg
              live := s.live.erase c
              erased := s.erased
                ++ [(c, Finmap.lookup (s.reg.nameOf c) s.reg.connections)] }
      else .ok s
  | .otherServer =>
      .ok { s with
        reg := { s.reg with nextConnId := s.reg.nextConnId + 1 } }

end RegistryRun

end Cobra
