import Workbench.Address.Basic
import Workbench.Serve.Response
/-!
# The static server and the network

The network knows who listens where. Each listener serves one root directory. Listeners are told
apart by numbers that are never used twice.

A server has a root directory and an address. Starting and stopping it are idempotent, and its
root can be changed only while it is stopped.
-/
namespace Workbench

/-- Something that waits for requests at an address and answers them from a root. -/
structure Listener where
  id : Nat
  bound : SocketAddress
  root : Path
  deriving DecidableEq, Repr

/-- The listeners at work, the number of the next one, what keeps an address from being bound or
from being read off a listener, and whether requests get through at all. -/
structure Network where
  listeners : List Listener := []
  next : Nat := 0
  obstacle : SocketAddress → Option Fault := fun _ => none
  unreadable : SocketAddress → Option Fault := fun _ => none
  reachable : Bool := true

namespace Network

/-- The first port that is handed out to those who leave the choice open. -/
def firstFreePort : Nat := 32768

/-- The address that a request for an address leads to: port zero leaves the choice open. -/
def choose (n : Network) (a : SocketAddress) : SocketAddress :=
  if a.port = 0 then { a with port := UInt16.ofNat (firstFreePort + n.next % 28000) } else a

def isTaken (n : Network) (a : SocketAddress) : Bool := n.listeners.any (·.bound = a)

def bind (n : Network) (a : SocketAddress) (root : Path) : Except Fault (Listener × Network) :=
  match n.obstacle a with
  | some fault => .error fault
  | none =>
    let bound := n.choose a
    if n.isTaken bound then .error .addressInUse
    else
      let l : Listener := ⟨n.next, bound, root⟩
      .ok (l, { n with listeners := n.listeners ++ [l], next := n.next + 1 })

def hasListener (n : Network) (id : Nat) : Bool := n.listeners.any (·.id = id)

def close (n : Network) (id : Nat) : Network :=
  { n with listeners := n.listeners.filter (·.id ≠ id) }

/-- The answer to a request sent to an address, if somebody listens there. -/
def request (n : Network) (d : Disk) (a : SocketAddress) (r : Serve.Request) :
    Option Serve.Response :=
  if n.reachable then (n.listeners.find? (·.bound = a)).map fun l => Serve.answer d l.root r
  else none

end Network

/-- A server for the files below a root, and its listener while it runs. -/
structure StaticServer where
  root : Path
  address : SocketAddress
  listener : Option Listener := none
  deriving DecidableEq, Repr

namespace StaticServer

def isRunning (s : StaticServer) (n : Network) : Bool := s.listener.any fun l => n.hasListener l.id

def localAddress? (s : StaticServer) : Option SocketAddress := s.listener.map (·.bound)

/-- Start the server, unless it runs. The answer is the address that it is bound to. -/
def start (s : StaticServer) (d : Disk) (n : Network) :
    Outcome SocketAddress × StaticServer × Network :=
  -- a listener that was closed from outside does not count
  match s.listener.filter fun l => n.hasListener l.id with
  | some l => (.ok l.bound, s, n)
  | none =>
    if !d.isDir s.root then (.error (.notFound s.root), s, n)
    else match n.bind s.address s.root with
      | .error fault => (.error (.server (.notBound s.address fault)), s, n)
      | .ok (l, n) =>
        match n.unreadable l.bound with
        -- nobody could find a listener without an address, and it is given up again
        | some fault => (.error (.server (.notRead fault)), s, n.close l.id)
        | none => (.ok l.bound, { s with listener := some l }, n)

def stop (s : StaticServer) (n : Network) : StaticServer × Network :=
  match s.listener with
  | some l => ({ s with listener := none }, n.close l.id)
  | none => (s, n)

def setRoot (s : StaticServer) (n : Network) (root : Path) : Outcome Unit × StaticServer :=
  if s.isRunning n then (.error (.refused .rootOfRunningServer), s) else (.ok (), { s with root })

end StaticServer

end Workbench
