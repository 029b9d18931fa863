import LoopbackLock.Network.Link
import LoopbackLock.Wire.Fault

/-!
# The network of a machine

Listeners and connections of one machine. An endpoint can be listened at when no open listener is
in its way. A connection waits at its listener until it is accepted; when the listener closes,
those that still wait are reset.

What the machine's network allows is its `Terrain`. A machine usually reaches itself and listens at
its own addresses. On an isolated one no connection can be made, and for want of routes any IPv4
address can be listened at.
-/

namespace LoopbackLock

/-- A listener, by number. -/
abbrev ListenerId := Nat

/-- A connection, by number. -/
abbrev LinkId := Nat

/-- What the network of a machine allows. -/
inductive Terrain
  /-- The machine reaches itself. -/
  | usual
  /-- The machine reaches nothing, not even itself. -/
  | isolated
  deriving DecidableEq, Repr

namespace Terrain

/-- Why no listener can have an address, if none can. An IPv4 address inside an IPv6 one counts as
what it is; an address for one link is of no use without its zone, nor one of a group. -/
def bindFault? (t : Terrain) (h : Host) : Option Fault :=
  if h.isMulticast6 || h.isLinkLocal then some .invalidArgument
  else if h.plain.isUnspecified then none
  else
    match t, h.plain with
    | usual, h => if h.isLoopback then none else some .addressNotAvailable
    | isolated, .v4 .. => none
    | isolated, .v6 _ => some .addressNotAvailable

/-- Why no connection to an address can be made, if none can. On an isolated machine an IPv6
connection fails before a route is looked for: there is no address for it to come from. -/
def connectFault? (t : Terrain) (h : Host) : Option Fault :=
  if h.isMulticast6 then some .networkUnreachable
  else if h.isLinkLocal then some .invalidArgument
  else
    match t, h.plain with
    | usual, _ => none
    | isolated, .v4 .. => some .networkUnreachable
    | isolated, .v6 _ => some .addressNotAvailable

end Terrain

namespace Host

/-- What is sent to the second address arrives at a listener with the first. The unspecified IPv6
address stands for the IPv4 addresses too. -/
def covers (a b : Host) : Bool :=
  a.plain == b.plain ||
    match a.plain, b.plain with
    | .v4 a b c d, .v4 .. => (v4 a b c d).isUnspecified
    | .v4 .., .v6 _ => false
    | .v6 groups, _ => (v6 groups).isUnspecified

end Host

namespace Endpoint

/-- A connection to the second endpoint arrives at a listener with the first. -/
def hears (a b : Endpoint) : Bool := a.port == b.port && a.host.covers b.host

/-- Two listeners cannot have these endpoints at once. -/
def clashes (a b : Endpoint) : Bool := a.hears b || b.hears a

end Endpoint

/-- A listener and the connections that wait at it. -/
structure Listener where
  endpoint : Endpoint
  isOpen : Bool := true
  backlog : List LinkId := []
  deriving DecidableEq, Repr

/-- The listeners and connections of a machine. -/
structure Network where
  terrain : Terrain := .usual
  listeners : List Listener := []
  links : List Link := []
  deriving DecidableEq, Repr

namespace Network

/-- Changes a connection. -/
def modifyLink (n : Network) (i : LinkId) (f : Link → Link) : Network :=
  { n with links := n.links.modify i f }

/-- Changes a listener. -/
def modifyListener (n : Network) (i : ListenerId) (f : Listener → Listener) : Network :=
  { n with listeners := n.listeners.modify i f }

/-- The first port from 32768 on that is not among those in use. -/
def freshPort (used : List UInt16) : UInt16 := go used.length 32768
where
  /-- Tries so many more ports from a port on. -/
  go : Nat → UInt16 → UInt16
    | 0, p => p
    | tries + 1, p => if p ∈ used then go tries (p + 1) else p

/-- The ports of open listeners. -/
def listeningPorts (n : Network) : List UInt16 :=
  (n.listeners.filter (·.isOpen)).map (·.endpoint.port)

/-- The endpoint a listener gets: port 0 stands for a port not in use. -/
def settle (n : Network) (e : Endpoint) : Endpoint :=
  if e.port = 0 then { e with port := freshPort n.listeningPorts } else e

/-- An open listener is in the way of another one at an endpoint. -/
def isTaken (n : Network) (e : Endpoint) : Bool :=
  n.listeners.any fun l => l.isOpen && l.endpoint.clashes e

/-- Starts to listen. -/
def bind (n : Network) (e : Endpoint) : Except Fault (ListenerId × Network) :=
  match n.terrain.bindFault? e.host with
  | some f => .error f
  | none =>
    if n.isTaken (n.settle e) then .error .addressInUse
    else .ok (n.listeners.length,
      { n with listeners := n.listeners ++ [{ endpoint := n.settle e }] })

/-- Nothing is in the way of a listener at an endpoint. -/
def isBindable (n : Network) (e : Endpoint) : Bool := (n.bind e).isOk

/-- Stops listening: the connections that wait are reset. -/
def unbind (n : Network) (i : ListenerId) : Network :=
  let waiting := ((n.listeners[i]?).map (·.backlog)).getD []
  waiting.foldl (fun n link => n.modifyLink link (·.refuse .callee))
    (n.modifyListener i fun l => { l with isOpen := false, backlog := [] })

/-- The open listener reached through an endpoint. -/
def listenerAt? (n : Network) (e : Endpoint) : Option ListenerId :=
  n.listeners.findIdx? fun l => l.isOpen && l.endpoint.hears e

/-- A living connection runs between these endpoints. -/
def isLinked (n : Network) (source target : Endpoint) : Bool :=
  n.links.any fun l => l.isAlive && l.source == source && l.target == target

/-- The endpoint a connection to a target comes from when none is asked for. -/
def sourceFor (n : Network) (target : Endpoint) : Endpoint :=
  let host := match target.host with
    | .v4 .. => Host.loopback
    | .v6 .. => Host.loopback6
  { host, port := freshPort ((n.links.filter (·.isAlive)).map (·.source.port)) }

/-- Connects two endpoints; the connection waits at the listener. -/
def connect (n : Network) (source target : Endpoint) : Except Fault (LinkId × Network) :=
  match n.terrain.connectFault? target.host with
  | some f => .error f
  | none =>
    if n.isLinked source target then .error .addressInUse
    else
      match n.listenerAt? target with
      | none => .error .connectionRefused
      | some i =>
        let link := n.links.length
        let links := n.links ++ [{ source, target : Link }]
        .ok (link, { n with links }.modifyListener i
          fun l => { l with backlog := l.backlog ++ [link] })

/-- Takes the connection that has waited longest at a listener. -/
def accept? (n : Network) (i : ListenerId) : Option (LinkId × Network) := do
  let l ← n.listeners[i]?
  match l.backlog with
  | [] => none
  | link :: rest => some (link, n.modifyListener i fun l => { l with backlog := rest })

/-- Reads at most so many bytes at an end; nothing if the read has to wait. -/
def read? (n : Network) (i : LinkId) (s : Side) (most : Nat) : Option (ReadAnswer × Network) := do
  let l ← n.links[i]?
  let answer ← (l.atSide s).found most
  match answer with
  | .ok bytes => some (answer, n.modifyLink i (·.take s bytes.length))
  | .error _ => some (answer, n)

/-- Writes at an end. -/
def write (n : Network) (i : LinkId) (s : Side) (bytes : Bytes) : Except Fault Network :=
  match n.links[i]? with
  | none => .error .notConnected
  | some l => (l.write s bytes).map fun l' => n.modifyLink i fun _ => l'

/-- Ends the stream from an end. -/
def finish (n : Network) (i : LinkId) (s : Side) : Except Fault Network :=
  match n.links[i]? with
  | none => .error .notConnected
  | some l => (l.finish s).map fun l' => n.modifyLink i fun _ => l'

/-- An owner gives up an end. -/
def release (n : Network) (i : LinkId) (s : Side) : Network := n.modifyLink i (·.release s)

/-- Owners give up the called ends of connections. -/
def releaseAll (n : Network) (links : List LinkId) : Network :=
  links.foldl (fun n link => n.release link .callee) n

/-- The called end of a connection looks open. -/
def looksOpen (n : Network) (i : LinkId) : Bool :=
  match n.links[i]? with
  | some l => l.callee.looksOpen
  | none => false

end Network

end LoopbackLock
