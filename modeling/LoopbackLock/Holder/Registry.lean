import LoopbackLock.Exchange.Chance

/-!
# The registry of a holder

The holder files each connection it has answered under the port of its peer. A connection filed
under a port displaces the one that was filed there before. In which order a registry yields its
entries is not up to the holder.
-/

namespace LoopbackLock

/-- Connections by the port of the peer. -/
abbrev Registry := List (UInt16 × LinkId)

namespace Registry

/-- The connections filed. -/
def links (r : Registry) : List LinkId := r.map (·.2)

/-- Files a connection. -/
def insert (r : Registry) (port : UInt16) (link : LinkId) : Registry :=
  r.filter (·.1 ≠ port) ++ [(port, link)]

/-- The connections that filing one under a port displaces. -/
def displaced (r : Registry) (port : UInt16) : List LinkId := links (r.filter (·.1 = port))

/-- The entries whose connection is found open. -/
def pruned (r : Registry) (n : Network) (chance : Chance) : Registry :=
  r.filter fun e => n.findsOpen chance e.2

/-- The connections that are not found open. -/
def hungUp (r : Registry) (n : Network) (chance : Chance) : List LinkId :=
  links (r.filter fun e => !n.findsOpen chance e.2)

/-- The entries in another order. Each turn takes the entry of that number out of those that are
left; the rest come last. -/
def arrange : List Nat → Registry → Registry
  | [], r => r
  | k :: turns, r => (r[k]?).toList ++ arrange turns (r.eraseIdx k)

end Registry

end LoopbackLock
