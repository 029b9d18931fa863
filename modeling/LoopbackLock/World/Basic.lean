import LoopbackLock.Holder.Basic
import LoopbackLock.Lock.Call
import LoopbackLock.Occupant.Decoy
import LoopbackLock.Occupant.Puppet

/-!
# The world of a machine

Locks, the threads that call them, the holders they have founded, other occupants of ports, and the
network between them. The world moves in steps: one actor makes one access to what is shared, and
chance decides how the system treats it. Every interleaving of all actors is a sequence of steps.
-/

namespace LoopbackLock

/-- A lock, by number. -/
abbrev LockId := Nat

/-- An occupant of a port that is no lock, by number. -/
abbrev OccupantId := Nat

/-- What a thread does. -/
inductive Activity
  /-- It is in no call; its last call ended so. -/
  | free (last : Option Ending)
  | busy (lock : LockId) (call : Call)
  deriving DecidableEq, Repr

/-- An occupant of a port that is no lock. -/
inductive Occupant
  | decoy (d : Decoy)
  | puppet (p : Puppet)
  deriving DecidableEq, Repr

/-- The locks, threads, holders, occupants and the network of a machine. A lock that was dropped
leaves its number behind. -/
structure World where
  network : Network := {}
  locks : List (Option PortLock) := []
  threads : List Activity := []
  holders : List Holder := []
  occupants : List Occupant := []
  deriving DecidableEq, Repr

/-- Who makes a step. -/
inductive Actor
  | thread (t : ThreadId)
  | worker (h : HolderId)
  | attendant (h : HolderId) (k : Nat)
  | occupant (o : OccupantId)
  deriving DecidableEq, Repr

namespace World

/-- A lock that was not dropped. -/
def lock? (w : World) (i : LockId) : Option PortLock := (w.locks[i]?).join

/-- The phase of a lock, idle for one that was dropped. -/
def phase (w : World) (i : LockId) : Phase := ((w.lock? i).map (·.phase)).getD .idle

/-- How many connections are registered with a lock. -/
def waiterCount (w : World) (i : LockId) : Nat :=
  match w.lock? i with
  | some { state := .holding h, .. } => ((w.holders[h]?).map (·.registry.length)).getD 0
  | _ => 0

/-! ## Requests -/

/-- Changes a holder. -/
def setHolder (w : World) (h : HolderId) (next : Holder × Network) : World :=
  { w with holders := w.holders.set h next.1, network := next.2 }

/-- A request without a result but failure. -/
def attempt (w : World) (chance : Chance) (w' : World) : Reply × World :=
  match chance with
  | .fail f => (.failed f, w)
  | _ => (.done, w')

/-- Listening at an endpoint. -/
def bind (w : World) (e : Endpoint) : Chance → Reply × World
  | .fail f => (.failed f, w)
  | _ =>
    match w.network.bind e with
    | .ok (listener, network) => (.bound listener, { w with network })
    | .error f => (.failed f, w)

/-- Connecting to an endpoint. -/
def connect (w : World) (e : Endpoint) (limit : UInt64) : Chance → Reply × World
  | .fail f => (.failed f, w)
  | .expire => (.failed .connectionTimedOut, w)
  | _ =>
    match w.network.connect (w.network.sourceFor e) e with
    | .ok (link, network) =>
      if limit = 0 then (.failed .zeroTimeout, w) else (.connected link, { w with network })
    | .error f => (.failed f, w)

/-- Setting a time limit. -/
def limit (w : World) (limit : UInt64) : Chance → Reply × World
  | .fail f => (.failed f, w)
  | _ => if limit = 0 then (.failed .zeroTimeout, w) else (.done, w)

/-- Sending a whole message. -/
def send (w : World) (link : LinkId) (m : Message) : Chance → Reply × World
  | .fail f => (.failed f, w)
  | _ =>
    match w.network.write link .caller (Text.encode m.line) with
    | .ok network => (.done, { w with network })
    | .error f => (.failed f, w)

/-- Ending both directions of a connection. -/
def shut (w : World) (link : LinkId) : Chance → Reply × World
  | .fail f => (.failed f, w)
  | _ =>
    match w.network.finish link .callee with
    | .ok network => (.done, { w with network })
    | .error f => (.failed f, w)

/-- The system serves a request of a call; nothing if the call has to wait. -/
def serve? (w : World) (s : Settings) (chance : Chance) : Request → Option (Reply × World)
  | .nothing => some (.done, w)
  | .choose =>
    match chance with
    | .rouse choice => some (.chosen choice, w)
    | _ => some (.chosen 0, w)
  | .bind e => some (w.bind e chance)
  | .unblock _ => some (w.attempt chance w)
  | .found listener =>
    match chance with
    | .fail f => some (.failed f, w)
    | _ => some (.founded w.holders.length,
        { w with holders := w.holders ++ [Holder.found s listener] })
  | .unbind listener => some (.done, { w with network := w.network.unbind listener })
  | .connect e limit => some (w.connect e limit chance)
  | .limit _ limit => some (w.limit limit chance)
  | .send link m => some (w.send link m chance)
  | .read link _ =>
    (w.network.hear? link .caller chance).map fun (reply, network) => (reply, { w with network })
  | .hangUp link => some (.done, { w with network := w.network.release link .caller })
  | .drain h => do
    let holder ← w.holders[h]?
    if holder.registrar.isSome then none
    else some (.drained holder.registry.links,
      w.setHolder h ({ holder with registry := [] }, w.network))
  | .write link bytes =>
    let (reply, network) := w.network.say link .callee bytes chance
    some (reply, { w with network })
  | .shut link => some (w.shut link chance)
  | .discard link => some (.done, { w with network := w.network.release link .callee })
  | .stop h => do
    let holder ← w.holders[h]?
    some (.done, w.setHolder h ({ holder with stopping := true }, w.network))
  | .join h => do
    let holder ← w.holders[h]?
    if holder.worker = .gone then some (.done, w) else none
  | .abandon h => do
    let holder ← w.holders[h]?
    some (.done, w.setHolder h (({ holder with kept := false } : Holder).settle w.network))

/-! ## Steps -/

/-- A call has made a step. A lock whose drop is over is gone. -/
def settle (w : World) (t : ThreadId) (i : LockId) (lock : PortLock) :
    Progress Call Ending → World
  | .going call =>
    { w with locks := w.locks.set i (some lock), threads := w.threads.set t (.busy i call) }
  | .over .dropped =>
    { w with locks := w.locks.set i none, threads := w.threads.set t (.free (some .dropped)) }
  | .over ending =>
    { w with
      locks := w.locks.set i (some lock), threads := w.threads.set t (.free (some ending)) }

/-- A step of a thread; nothing if it is in no call or has to wait. -/
def stepThread? (w : World) (t : ThreadId) (chance : Chance) : Option World := do
  match ← w.threads[t]? with
  | .free _ => none
  | .busy i call =>
    let lock ← w.lock? i
    if lock.isAsleep t call then none
    else
      let (reply, w') ← w.serve? lock.settings chance (call.request lock.settings)
      let (lock', progress) := lock.step t call reply
      some (w'.settle t i lock' progress)

/-- A step of an occupant. -/
def stepOccupant? (w : World) (o : OccupantId) (chance : Chance) : Option World := do
  let (occupant, network) ←
    match ← w.occupants[o]? with
    | .decoy d => (d.step? w.network chance).map fun (d, n) => (Occupant.decoy d, n)
    | .puppet p => (p.step? w.network chance).map fun (p, n) => (Occupant.puppet p, n)
  some { w with occupants := w.occupants.set o occupant, network }

/-- A step of an actor; nothing if it has nothing to do or has to wait. -/
def step? (w : World) (a : Actor) (chance : Chance) : Option World :=
  match a with
  | .thread t => w.stepThread? t chance
  | .worker h => do
    let holder ← w.holders[h]?
    (holder.poll? w.network chance).map (w.setHolder h)
  | .attendant h k => do
    let holder ← w.holders[h]?
    (holder.attend? w.network k chance).map (w.setHolder h)
  | .occupant o => w.stepOccupant? o chance

end World

end LoopbackLock
