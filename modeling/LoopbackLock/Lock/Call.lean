import LoopbackLock.Lock.Contention
import LoopbackLock.Lock.Dismantling
import LoopbackLock.Lock.Gate

/-!
# Calls of a lock

A lock is its settings, its gate and its state. Threads call it: they acquire it, release it, or
drop it for good. A guard is taken by acquiring the lock and given back by releasing it, so it
needs no call of its own.

Acquiring passes the gate first. A thread that owned the gate already is done at once; otherwise it
contends for the port, and when that fails it stores that the lock is idle and leaves the gate.
Releasing does nothing for a thread that does not own the gate and only lowers the count of a
thread that holds it more than once. The last release stores that the lock is idle, dismantles the
holder if there is one, and then leaves the gate.
-/

namespace LoopbackLock

/-- A lock. -/
structure PortLock where
  settings : Settings := {}
  gate : Gate := {}
  state : LockState := .idle
  deriving DecidableEq, Repr

/-- Where a call stands. -/
inductive Call
  /-- Acquiring: the gate is to be looked at. -/
  | entering
  /-- The gate was owned already; how the lock was acquired is to be looked up. -/
  | rejoining
  | contending (c : Contention)
  /-- Contending failed; it is to be stored that the lock is idle. -/
  | failing (why : LockError)
  /-- The gate is to be left. -/
  | quitting (why : LockError)
  /-- Releasing: the holds are to be counted. -/
  | counting
  /-- The last hold goes; it is to be stored that the lock is idle. -/
  | resetting
  | dismantling (holder : HolderId) (d : Dismantling)
  /-- The gate is to be left. -/
  | leaving
  /-- Dropping: the state is to be looked at. -/
  | retiring
  | dropping (holder : HolderId) (d : Dismantling)
  deriving DecidableEq, Repr

/-- How a call ended. -/
inductive Ending
  | acquired (how : Acquisition)
  | failed (why : LockError)
  | released
  | dropped
  deriving DecidableEq, Repr

namespace Call

/-- A call that acquires the lock. -/
def acquire : Call := entering

/-- A call that releases the lock. -/
def release : Call := counting

/-- A call that drops the lock. -/
def drop : Call := retiring

/-- The lock is being dropped. -/
def isDrop : Call → Bool
  | retiring | dropping .. => true
  | _ => false

/-- What the call asks of the system next. -/
def request (s : Settings) : Call → Request
  | entering | rejoining | failing _ | counting | resetting | retiring => .nothing
  | contending c => c.request s
  | quitting _ | leaving => .choose
  | dismantling holder d | dropping holder d => d.request holder

end Call

namespace PortLock

/-- The phase others see. -/
def phase (l : PortLock) : Phase := l.state.phase

/-- A call that found the gate owned sleeps until it is roused. -/
def isAsleep (l : PortLock) (t : ThreadId) (call : Call) : Bool :=
  call = .entering && l.gate.asleep.contains t

/-- What a thread that owns the gate already learns. -/
def acquisition (l : PortLock) : Acquisition :=
  if l.state = .assumed then .assumed else .bound

/-- The thread looks at the gate. -/
def enter (l : PortLock) (t : ThreadId) : PortLock × Progress Call Ending :=
  let (entry, gate) := l.gate.enter t
  let l' := { l with gate }
  match entry with
  | .first => (l', .going (.contending .announcing))
  | .reentered => (l', .going .rejoining)
  | .barred => (l', .going .entering)

/-- The thread leaves the gate. -/
def leave (l : PortLock) (t : ThreadId) (choice : Nat) : PortLock :=
  { l with gate := l.gate.leave t choice }

/-- The contender takes a reply, and stores what its step stores. -/
def contend (l : PortLock) (c : Contention) (reply : Reply) : PortLock × Progress Call Ending :=
  let l' :=
    match c.stored?, reply with
    | some state, .done => { l with state }
    | _, _ => l
  match c.step l.settings reply with
  | .going c => (l', .going (.contending c))
  | .over (.ok how) => (l', .over (.acquired how))
  | .over (.error why) => (l', .going (.failing why))

/-- What a release does about the thread's holds. -/
def count (l : PortLock) (t : ThreadId) : Progress Call Ending :=
  match l.gate.holdsOf t with
  | 0 => .over .released
  | 1 => .going .resetting
  | _ => .going .leaving

/-- A call of a thread takes the system's reply to its request. -/
def step (l : PortLock) (t : ThreadId) : Call → Reply → PortLock × Progress Call Ending
  | .entering, .done => l.enter t
  | .rejoining, .done => (l, .over (.acquired l.acquisition))
  | .contending c, reply => l.contend c reply
  | .failing why, .done => ({ l with state := .idle }, .going (.quitting why))
  | .quitting why, .chosen choice => (l.leave t choice, .over (.failed why))
  | .counting, .done => (l, l.count t)
  | .resetting, .done =>
    let next :=
      match l.state with
      | .holding holder => .dismantling holder .draining
      | _ => .leaving
    ({ l with state := .idle }, .going next)
  | .dismantling holder d, reply =>
    match d.step true reply with
    | .going d => (l, .going (.dismantling holder d))
    | .over () => (l, .going .leaving)
  | .leaving, .chosen choice => (l.leave t choice, .over .released)
  | .retiring, .done =>
    match l.state with
    | .holding holder => (l, .going (.dropping holder .stopping))
    | _ => (l, .over .dropped)
  | .dropping holder d, reply =>
    match d.step false reply with
    | .going d => (l, .going (.dropping holder d))
    | .over () => (l, .over .dropped)
  | call, _ => (l, .going call)

end PortLock

end LoopbackLock
