import LoopbackLock.World.Basic

/-!
# Events

All that can happen in a world: an actor makes a step, a thread begins a call, a sleeper stirs for
no reason, locks and threads come into being, peers that do not use the library connect, write, and
close, and registries yield their entries in another order. A run is a sequence of events.
-/

namespace LoopbackLock

/-- Which call a thread begins. -/
inductive CallKind
  | acquire | release | drop
  deriving DecidableEq, Repr

/-- How a call begins. -/
def CallKind.call : CallKind → Call
  | acquire => .acquire
  | release => .release
  | drop => .drop

/-- What a peer does with the calling end of a connection. -/
inductive Deed
  | write (bytes : Bytes)
  /-- Takes bytes that have arrived. -/
  | take (count : Nat)
  /-- Says that it sends no more. -/
  | finish
  | close
  deriving DecidableEq, Repr

/-- Something that happens. -/
inductive Event
  | step (a : Actor) (chance : Chance)
  | begins (t : ThreadId) (i : LockId) (kind : CallKind)
  /-- A sleeper in a gate wakes without having been roused. -/
  | stir (t : ThreadId) (i : LockId)
  | newLock (s : Settings)
  | newThread
  /-- A peer connects from an endpoint. -/
  | call (source target : Endpoint)
  | deed (link : LinkId) (d : Deed)
  /-- The registry of a holder comes to yield its entries in another order. -/
  | shuffle (h : HolderId) (turns : List Nat)
  deriving DecidableEq, Repr

namespace World

/-- A call that is under way on a lock keeps one of this kind from beginning on it. -/
def bars (i : LockId) (kind : CallKind) : Activity → Bool
  | .free _ => false
  | .busy j call => j = i && (kind = .drop || call.isDrop)

/-- A thread in no call begins one on a lock that was not dropped. A lock is dropped only when no
thread is in a call on it, and no call begins on a lock that is being dropped. -/
def begin? (w : World) (t : ThreadId) (i : LockId) (kind : CallKind) : Option World := do
  let _ ← w.lock? i
  match ← w.threads[t]? with
  | .busy .. => none
  | .free _ =>
    if w.threads.any (bars i kind) then none
    else some { w with threads := w.threads.set t (.busy i kind.call) }

/-- A peer does something with the calling end of a connection. -/
def deed (w : World) (link : LinkId) : Deed → World
  | .write bytes =>
    match w.network.write link .caller bytes with
    | .ok network => { w with network }
    | .error _ => w
  | .take count => { w with network := w.network.modifyLink link (·.take .caller count) }
  | .finish =>
    match w.network.finish link .caller with
    | .ok network => { w with network }
    | .error _ => w
  | .close => { w with network := w.network.release link .caller }

/-- Something happens, if it can. -/
def happen? (w : World) : Event → Option World
  | .step a chance => w.step? a chance
  | .begins t i kind => w.begin? t i kind
  | .stir t i => do
    let lock ← w.lock? i
    some { w with locks := w.locks.set i (some { lock with gate := lock.gate.stir t }) }
  | .newLock settings => some { w with locks := w.locks ++ [some { settings }] }
  | .newThread => some { w with threads := w.threads ++ [.free none] }
  | .call source target =>
    match w.network.connect source target with
    | .ok (_, network) => some { w with network }
    | .error _ => none
  | .deed link d => some (w.deed link d)
  | .shuffle h turns => do
    let holder ← w.holders[h]?
    some (w.setHolder h ({ holder with registry := holder.registry.arrange turns }, w.network))

/-- A sequence of events happens. -/
def run? (w : World) (events : List Event) : Option World := events.foldlM happen? w

end World

end LoopbackLock
