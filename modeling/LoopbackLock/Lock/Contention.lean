import LoopbackLock.Lock.Vigil

/-!
# Contending for the port

A contender goes round by round. It tries to listen at the lock's endpoint: when that works it sets
a holder to work and has the lock. When the endpoint is taken it waits for the occupant, and starts
the next round once the occupant has released the lock or departed. When the occupant vanished, the
policy decides between the next round and taking the lock without the port.

The contender stores in the lock what it is doing; it does so in steps of their own.
-/

namespace LoopbackLock

/-- How a lock was acquired. -/
inductive Acquisition
  /-- The port is bound. -/
  | bound
  /-- The holder vanished, and the lock was taken without the port. -/
  | assumed
  deriving DecidableEq, Repr

namespace Acquisition

/-- The port is bound. -/
def isBound : Acquisition → Bool
  | bound => true
  | assumed => false

/-- The name of a way to acquire a lock. -/
def name : Acquisition → String
  | bound => "Bound"
  | assumed => "Assumed"

end Acquisition

/-- What others see a lock do. -/
inductive Phase
  | idle
  /-- Trying to bind the port. -/
  | acquiring
  /-- Challenging or waiting for another holder. -/
  | waiting
  | holding
  /-- The lock is held without the port. -/
  | assumed
  deriving DecidableEq, Repr

/-- The name of a phase. -/
def Phase.name : Phase → String
  | idle => "Idle"
  | acquiring => "Acquiring"
  | waiting => "Waiting"
  | holding => "Holding"
  | assumed => "Assumed"

/-- What a lock stores about itself: its phase, and the holder while there is one. -/
inductive LockState
  | idle
  | acquiring
  | waiting
  | holding (holder : HolderId)
  | assumed
  deriving DecidableEq, Repr

/-- The phase of a state. -/
def LockState.phase : LockState → Phase
  | idle => .idle
  | acquiring => .acquiring
  | waiting => .waiting
  | holding _ => .holding
  | assumed => .assumed

/-- Where contending stands. -/
inductive Contention
  /-- The phase is to be stored before the port is tried. -/
  | announcing
  | binding
  /-- The port is bound; the listener is to return at once when nobody connects. -/
  | unblocking (listener : ListenerId)
  /-- A holder is to be set to work. -/
  | founding (listener : ListenerId)
  /-- No holder came about; the listener is to be closed. -/
  | unbinding (listener : ListenerId) (why : LockError)
  /-- The holder is at work and is to be stored. -/
  | installing (holder : HolderId)
  /-- The port is taken; the phase is to be stored before waiting. -/
  | yielding
  | watching (v : Vigil)
  /-- The holder vanished; the lock is to be taken without the port. -/
  | assuming
  deriving DecidableEq, Repr

namespace Contention

/-- What the contender asks of the system next. -/
def request (s : Settings) : Contention → Request
  | announcing | installing _ | yielding | assuming => .nothing
  | binding => .bind s.endpoint
  | unblocking listener => .unblock listener
  | founding listener => .found listener
  | unbinding listener _ => .unbind listener
  | watching v => v.request s

/-- What the contender stores in the lock with its next step. -/
def stored? : Contention → Option LockState
  | announcing => some .acquiring
  | installing holder => some (.holding holder)
  | yielding => some .waiting
  | assuming => some .assumed
  | _ => none

/-- What follows when waiting has ended. -/
def resume (s : Settings) : WaitOutcome → Contention
  | .released | .disconnected => announcing
  | .vanished =>
    match s.onVanished with
    | .rebind => announcing
    | .assume => assuming

/-- The contender takes the system's reply to its request. -/
def step (s : Settings) : Contention → Reply →
    Progress Contention (Except LockError Acquisition)
  | announcing, .done => .going binding
  | binding, .bound listener => .going (unblocking listener)
  | binding, .failed f =>
    if f.kind = .addrInUse then .going yielding
    else .over (.error (.io f s.endpoint "bind lock port"))
  | unblocking listener, .done => .going (founding listener)
  | unblocking listener, .failed f =>
    .going (unbinding listener (.io f s.endpoint "configure listener"))
  | founding _, .founded holder => .going (installing holder)
  | founding listener, .failed f =>
    .going (unbinding listener (.io f s.endpoint "spawn accept loop"))
  | unbinding _ why, .done => .over (.error why)
  | installing _, .done => .over (.ok .bound)
  | yielding, .done => .going (watching (.probing .connecting))
  | watching v, reply =>
    match v.step s reply with
    | .going v => .going (watching v)
    | .over (.ok outcome) => .going (resume s outcome)
    | .over (.error e) => .over (.error e)
  | assuming, .done => .over (.ok .assumed)
  | c, _ => .going c

end Contention

end LoopbackLock
